import SimplyTransport.ReadCommittedRuns
import SimplyTransport.RealtimeSnapshot

/-!
# Two imports of one dataset

`importrealtime` and `seedrealtimefromfile` run under mutexes of their own names, so that one of
each may import a dataset at the same time. Each replaces the rows of `rt_trip` and then those of
`rt_stop_time`, in a transaction each. A `DELETE` that begins while the other run's transaction on
the table is open misses the rows that this one commits, and the table may end with the rows of
both payloads.
-/

namespace SimplyTransport.ConcurrentSnapshots
open Transition RealtimeSnapshot

inductive Command
  | importrealtime
  | seedrealtimefromfile
  deriving DecidableEq

/-- The commands of the two runs, and the payloads that the builder has made of their feeds. -/
structure Runs (dataset : String) where
  command : Bool → Command
  payload : Bool → Payload dataset

structure State where
  mutex : Command → Option Bool
  started : Bool → Bool
  trips : ReadCommitted.State RtTripRecord
  stops : ReadCommitted.State RtStopTimeRecord

inductive Event
  | start (p : Bool)
  | release (p : Bool)
  | expire (cmd : Command)
  | trips (e : ReadCommitted.Event)
  | stops (e : ReadCommitted.Event)

def initial (trips : List RtTripRecord) (stops : List RtStopTimeRecord) : State where
  mutex _ := none
  started _ := false
  trips := ReadCommitted.initial trips
  stops := ReadCommitted.initial stops

/-- A run ends with its second transaction, or where its first one fails. -/
def State.ended (s : State) (p : Bool) : Bool :=
  match s.trips.phase p with
  | .failed => true
  | .committed => (s.stops.phase p).isEnded
  | _ => false

section System

variable {dataset : String} (R : Runs dataset)

def Runs.tripRecords (p : Bool) : List RtTripRecord := (R.payload p).trips

def Runs.stopRecords (p : Bool) : List RtStopTimeRecord := (R.payload p).stops

def next (s : State) : Event → Option State
  | .start p =>
    if s.started p = false ∧ s.mutex (R.command p) = none then
      some { s with
        mutex := Function.update s.mutex (R.command p) (some p)
        started := Function.update s.started p true }
    else none
  | .release p =>
    if s.ended p then
      some { s with mutex := fun cmd => (s.mutex cmd).filter (fun holder => holder ≠ p) }
    else none
  | .expire cmd => some { s with mutex := Function.update s.mutex cmd none }
  | .trips e =>
    if s.started e.run then
      (ReadCommitted.next RtTripRecord.key R.tripRecords s.trips e).map
        (fun t => { s with trips := t })
    else none
  | .stops e =>
    match s.trips.phase e.run with
    | .committed =>
      (ReadCommitted.next RtStopTimeRecord.key R.stopRecords s.stops e).map
        (fun t => { s with stops := t })
    | _ => none

/-- No `DELETE` begins while the other run's transaction on its table is open, unless the records
for the table share a key or one payload has none. -/
def Separate (s : State) : Event → Prop
  | .trips e => ReadCommitted.Separate RtTripRecord.key R.tripRecords s.trips e
  | .stops e => ReadCommitted.Separate RtStopTimeRecord.key R.stopRecords s.stops e
  | _ => True

def Unmixed (s : State) : Prop :=
  (∃ p, s.trips.rows.map Prod.snd = (R.payload p).trips) ∧
    ∃ p, s.stops.rows.map Prod.snd = (R.payload p).stops

structure Inv (s : State) : Prop where
  trips : ReadCommitted.Inv RtTripRecord.key R.tripRecords s.trips
  stops : ReadCommitted.Inv RtStopTimeRecord.key R.stopRecords s.stops
  order : ∀ p, s.stops.phase p = .idle ∨ s.trips.phase p = .committed

end System

variable {dataset : String} {R : Runs dataset} {s s' : State}

theorem trips_cases {e : ReadCommitted.Event} (he : next R s (.trips e) = some s') :
    ∃ t, ReadCommitted.next RtTripRecord.key R.tripRecords s.trips e = some t ∧
      s' = { s with trips := t } := by
  simp only [next] at he
  split_ifs at he
  obtain ⟨t, ht, rfl⟩ := Option.map_eq_some_iff.1 he
  exact ⟨t, ht, rfl⟩

theorem stops_cases {e : ReadCommitted.Event} (he : next R s (.stops e) = some s') :
    s.trips.phase e.run = .committed ∧
      ∃ t, ReadCommitted.next RtStopTimeRecord.key R.stopRecords s.stops e = some t ∧
        s' = { s with stops := t } := by
  simp only [next] at he
  split at he
  · next hp =>
    obtain ⟨t, ht, rfl⟩ := Option.map_eq_some_iff.1 he
    exact ⟨hp, t, ht, rfl⟩
  · cases he

theorem inv_initial (trips : List RtTripRecord) (stops : List RtStopTimeRecord) :
    Inv R (initial trips stops) where
  trips := ReadCommitted.inv_initial trips
  stops := ReadCommitted.inv_initial stops
  order _ := Or.inl rfl

theorem inv_step {e : Event} (h : Inv R s) (hsep : Separate R s e) (he : next R s e = some s') :
    Inv R s' := by
  cases e with
  | start p =>
      simp only [next] at he
      split_ifs at he
      obtain rfl := Option.some.inj he
      exact ⟨h.trips, h.stops, h.order⟩
  | release p =>
      simp only [next] at he
      split_ifs at he
      obtain rfl := Option.some.inj he
      exact ⟨h.trips, h.stops, h.order⟩
  | expire cmd =>
      obtain rfl := Option.some.inj he
      exact ⟨h.trips, h.stops, h.order⟩
  | trips e =>
      obtain ⟨t, ht, rfl⟩ := trips_cases he
      obtain ⟨hopen, hother⟩ := ReadCommitted.next_phase ht
      refine ⟨ReadCommitted.inv_step h.trips hsep ht, h.stops, fun p => ?_⟩
      refine (h.order p).imp_right (fun hp => ?_)
      exact (hother p (fun hpe => hopen (hpe ▸ hp))).trans hp
  | stops e =>
      obtain ⟨hcommitted, t, ht, rfl⟩ := stops_cases he
      refine ⟨h.trips, ReadCommitted.inv_step h.stops hsep ht, fun p => ?_⟩
      by_cases hp : p = e.run
      · exact Or.inr (hp ▸ hcommitted)
      · exact (h.order p).imp_left ((ReadCommitted.next_phase ht).2 p hp).trans

theorem ended_cases {p : Bool} (h : s.ended p = true) :
    s.trips.phase p = .failed ∨
      s.trips.phase p = .committed ∧ (s.stops.phase p).isEnded = true := by
  unfold State.ended at h
  split at h
  · next hp => exact Or.inl hp
  · next hp => exact Or.inr ⟨hp, h⟩
  · cases h

/-- A run that replaces its stop rows leaves the records of one payload there: the other run has
ended the same way or has not come to the stop rows. -/
theorem Inv.stops_unmixed (h : Inv R s) {p : Bool} (hp : (s.stops.phase p).isEnded = true)
    (hnot : s.ended (!p) = true) :
    ∃ q, s.stops.rows.map Prod.snd = (R.payload q).stops := by
  apply h.stops.records_of_ended (ReadCommitted.isEnded_iff.1 hp)
  rcases ended_cases hnot with hfailed | ⟨_, hended⟩
  · refine Or.inr (Or.inr ((h.order (!p)).resolve_right (fun hcommitted => ?_)))
    rw [hfailed] at hcommitted
    cases hcommitted
  · exact (ReadCommitted.isEnded_iff.1 hended).imp_right Or.inl

theorem Inv.unmixed (h : Inv R s) (hended : ∀ p, s.ended p = true) : Unmixed R s := by
  have htrips : ∀ p, s.trips.phase p = .committed ∨ s.trips.phase p = .failed := fun p =>
    (ended_cases (hended p)).elim Or.inr (fun hp => Or.inl hp.1)
  refine ⟨h.trips.records_of_ended (htrips true) ((htrips false).imp_right Or.inl), ?_⟩
  rcases ended_cases (hended true) with hfailed | ⟨_, hstops⟩
  · -- Of the two runs at most one fails.
    have hother := h.trips.phases true
    rw [hfailed] at hother
    rcases ended_cases (hended false) with hfailed' | ⟨_, hstops⟩
    · exact absurd hfailed' hother.2
    · exact h.stops_unmixed hstops (hended true)
  · exact h.stops_unmixed hstops (hended false)

section Examples

def tripFeed (tripId : String) : List FeedEntity :=
  [⟨some "e", some ⟨⟨some tripId, none, none, some (.str "20240429"), none, none⟩, ⟨none, none⟩, []⟩⟩]

def tripRecord (tripId : String) : RtTripRecord :=
  ⟨tripId, "R1", Time.midnight, ⟨739005⟩, "SCHEDULED", 0, "e", "TFI", ⟨0⟩⟩

def twoTrips : OrderedDict String (String × ℤ) :=
  (OrderedDict.empty.set "T1" ("R1", 0)).set "T2" ("R1", 0)

theorem build_first : buildRtTripAndStopTimeRecords "TFI" twoTrips [] ⟨0⟩ ⟨739005⟩
    (tripFeed "T1") = .ok ([tripRecord "T1"], []) := rfl

theorem build_second : buildRtTripAndStopTimeRecords "TFI" twoTrips [] ⟨0⟩ ⟨739005⟩
    (tripFeed "T2") = .ok ([tripRecord "T2"], []) := rfl

def runsOf (second : Payload "TFI") : Runs "TFI" where
  command p := if p then .seedrealtimefromfile else .importrealtime
  payload p := if p then second else ⟨_, _, snapshot_of_build build_first⟩

/-- Both runs begin to delete before one of them inserts. -/
def interleaved : List Event :=
  [.start false, .start true,
    .trips (.beginDelete false), .trips (.beginDelete true),
    .trips (.finishDelete false), .trips (.beginInsert false), .trips (.finishInsert false),
    .trips (.commit false),
    .trips (.finishDelete true), .trips (.beginInsert true)]

def stopsOf (p : Bool) : List Event :=
  [.stops (.beginDelete p), .stops (.finishDelete p), .stops (.beginInsert p), .stops (.commit p),
    .release p]

def mixedEvents : List Event :=
  interleaved ++ [.trips (.finishInsert true), .trips (.commit true)] ++ stopsOf false ++
    stopsOf true

theorem mixedEvents_run :
    (exec (next (runsOf ⟨_, _, snapshot_of_build build_second⟩)) (initial [] [])
      mixedEvents).isSome = true := by decide

def raisingEvents : List Event :=
  interleaved ++ [.trips (.raiseInsert true)] ++ stopsOf false

theorem raisingEvents_run :
    (exec (next (runsOf ⟨_, _, snapshot_of_build build_first⟩)) (initial [] [])
      raisingEvents).isSome = true := by decide

theorem separate_of_compatible
    (htrips : ReadCommitted.Compatible RtTripRecord.key R.tripRecords)
    (hstops : ReadCommitted.Compatible RtStopTimeRecord.key R.stopRecords) (e : Event)
    (s : State) : Separate R s e := by
  rcases e with _ | _ | _ | e | e
  · trivial
  · trivial
  · trivial
  · cases e with
    | beginDelete p => exact Or.inr htrips
    | _ => trivial
  · cases e with
    | beginDelete p => exact Or.inr hstops
    | _ => trivial

end Examples

end SimplyTransport.ConcurrentSnapshots

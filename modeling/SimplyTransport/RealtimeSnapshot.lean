import SimplyTransport.OverlayOrder
import SimplyTransport.RealtimeRecords
import SimplyTransport.Transition

/-!
# Replacing the two realtime tables

An import replaces the rows of its dataset in `rt_trip` and then in `rt_stop_time`, in one
transaction each. Imports of the dataset follow each other and may fail at any step; a
transaction that does not commit is rolled back. A reader selects from the two tables one after
the other, at any moment. Each table always holds one whole payload; the two tables hold the
same one except between the two commits of an import, and after an import that failed there.
-/

namespace SimplyTransport.RealtimeSnapshot
open Transition

variable {dataset : String}

/-- The records of a payload that the builder has accepted. -/
structure Payload (dataset : String) where
  trips : List RtTripRecord
  stops : List RtStopTimeRecord
  snapshot : Snapshot dataset trips stops

/-- An import of the dataset; no two have the same number. -/
structure Import (dataset : String) where
  number : ℕ
  payload : Payload dataset

/-- The import under way. `copied` means deleted and copied in an open transaction. -/
inductive Pc (dataset : String)
  | idle
  | built (i : Import dataset)
  | copiedTrips (i : Import dataset) (firstId : ℤ)
  | committedTrips (i : Import dataset)
  | copiedStops (i : Import dataset) (firstId : ℤ)

/-- A call of `load_recent_rt_overlay_for_schedules`: the rows it has read, and of which imports
they are. -/
inductive Reader (dataset : String)
  | idle
  | readTrips (trips : List RTTripModel) (i : Import dataset)
  | done (trips : List RTTripModel) (i : Import dataset) (stopTimes : List RTStopTimeModel)
    (j : Import dataset)

/-- The committed tables. `tripsOf` and `stopsOf` are the imports that wrote the dataset's rows. -/
structure State (dataset : String) where
  trips : List RTTripModel
  tripsOf : Import dataset
  stopTimes : List RTStopTimeModel
  stopsOf : Import dataset
  importer : Pc dataset
  imports : ℕ
  readers : ℕ → Reader dataset

inductive Event
  | lookupFails
  | start (trips : List TripModel) (stops : List StopModel) (createdAt : DateTime) (today : Date)
      (data : List FeedEntity)
  | copyTrips (firstId : ℤ)
  | commitTrips
  | copyStops (firstId : ℤ)
  | commitStops
  | fail
  | readTrips (c : ℕ)
  | readStops (c : ℕ)

def initial (trips : List RTTripModel) (stopTimes : List RTStopTimeModel) (p : Payload dataset) :
    State dataset :=
  ⟨trips, ⟨0, p⟩, stopTimes, ⟨0, p⟩, .idle, 0, fun _ => .idle⟩

def State.setReader (s : State dataset) (c : ℕ) (r : Reader dataset) : State dataset :=
  { s with readers := Function.update s.readers c r }

def next (s : State dataset) : Event → Option (State dataset)
  | .lookupFails =>
    match s.importer with
    | .idle => some s
    | _ => none
  | .start trips stops createdAt today data =>
    match s.importer with
    | .idle =>
      match h : importRecords trips stops dataset createdAt today data with
      | .ok out => some { s with
          importer := .built ⟨s.imports + 1, out.1, out.2, snapshot_of_build h⟩
          imports := s.imports + 1 }
      -- The builder raises before any table is touched.
      | .error _ => some s
    | _ => none
  | .copyTrips firstId =>
    match s.importer with
    | .built i => some { s with importer := .copiedTrips i firstId }
    | _ => none
  | .commitTrips =>
    match s.importer with
    | .copiedTrips i firstId =>
      some { s with
        trips := snapshotRtTrip s.trips i.payload.trips dataset firstId
        tripsOf := i
        importer := .committedTrips i }
    | _ => none
  | .copyStops firstId =>
    match s.importer with
    | .committedTrips i => some { s with importer := .copiedStops i firstId }
    | _ => none
  | .commitStops =>
    match s.importer with
    | .copiedStops i firstId =>
      some { s with
        stopTimes := snapshotRtStopTime s.stopTimes i.payload.stops dataset firstId
        stopsOf := i
        importer := .idle }
    | _ => none
  | .fail =>
    match s.importer with
    | .idle => none
    | _ => some { s with importer := .idle }
  | .readTrips c => some (s.setReader c (.readTrips s.trips s.tripsOf))
  | .readStops c =>
    match s.readers c with
    | .readTrips trips i => some (s.setReader c (.done trips i s.stopTimes s.stopsOf))
    | _ => none

/-- The import whose trip records are committed while its stop records are not. -/
def Pc.committed? : Pc dataset → Option (Import dataset)
  | .committedTrips i => some i
  | .copiedStops i _ => some i
  | _ => none

def HoldsTrips (p : Payload dataset) (rows : List RTTripModel) : Prop :=
  (rows.filter (fun r => r.dataset = dataset)).map (fun r => r.toRtTripRecord) = p.trips

def HoldsStops (p : Payload dataset) (rows : List RTStopTimeModel) : Prop :=
  (rows.filter (fun r => r.dataset = dataset)).map (fun r => r.toRtStopTimeRecord) = p.stops

theorem recordsWithIds_snd {ρ : Type} (rows : List ρ) (firstId : ℤ) :
    (IdRanges.recordsWithIds rows firstId).map Prod.snd = rows := by
  rw [IdRanges.recordsWithIds, List.map_map]
  exact List.zipIdx_map_fst 0 rows

theorem filter_snapshotCopyTable {α β : Type} {datasetOf : β → String} {withId : ℤ → α → β}
    {toRecord : β → α} {rows : List β} {records : List α} {firstId : ℤ}
    (hrecord : ∀ i a, toRecord (withId i a) = a)
    (hdataset : ∀ i, ∀ a ∈ records, datasetOf (withId i a) = dataset) :
    ((snapshotCopyTable datasetOf withId rows records dataset firstId).filter
      (fun r => datasetOf r = dataset)).map toRecord = records := by
  have hold : (rows.filter (fun r => datasetOf r ≠ dataset)).filter
      (fun r => datasetOf r = dataset) = [] := by
    rw [List.filter_filter, List.filter_eq_nil_iff]
    intro r _
    simp
  have hnew : ((IdRanges.recordsWithIds records firstId).map (fun p => withId p.1 p.2)).filter
      (fun r => datasetOf r = dataset) =
        (IdRanges.recordsWithIds records firstId).map (fun p => withId p.1 p.2) := by
    rw [List.filter_eq_self]
    intro r hr
    obtain ⟨p, hp, rfl⟩ := List.mem_map.1 hr
    have hmem : p.2 ∈ records := by
      rw [← recordsWithIds_snd records firstId]
      exact List.mem_map_of_mem hp
    exact decide_eq_true (hdataset p.1 p.2 hmem)
  rw [snapshotCopyTable, List.filter_append, hold, hnew, List.nil_append, List.map_map]
  simp only [Function.comp_def, hrecord]
  exact recordsWithIds_snd records firstId

theorem holdsTrips_snapshot (p : Payload dataset) (rows : List RTTripModel) (firstId : ℤ) :
    HoldsTrips p (snapshotRtTrip rows p.trips dataset firstId) :=
  filter_snapshotCopyTable (fun _ _ => rfl) (fun _ r hr => p.snapshot.trips_dataset r hr)

theorem holdsStops_snapshot (p : Payload dataset) (rows : List RTStopTimeModel) (firstId : ℤ) :
    HoldsStops p (snapshotRtStopTime rows p.stops dataset firstId) :=
  filter_snapshotCopyTable (fun _ _ => rfl) (fun _ r hr => p.snapshot.stops_dataset r hr)

theorem HoldsTrips.mem {p : Payload dataset} {rows : List RTTripModel} (h : HoldsTrips p rows)
    {r : RTTripModel} (hr : r ∈ rows) (hd : r.dataset = dataset) : r.toRtTripRecord ∈ p.trips := by
  rw [← h]
  exact List.mem_map_of_mem (List.mem_filter.2 ⟨hr, decide_eq_true hd⟩)

theorem HoldsTrips.exists_row {p : Payload dataset} {rows : List RTTripModel}
    (h : HoldsTrips p rows) {record : RtTripRecord} (hr : record ∈ p.trips) :
    ∃ r ∈ rows, r.toRtTripRecord = record := by
  rw [← h] at hr
  obtain ⟨r, hmem, hrecord⟩ := List.mem_map.1 hr
  exact ⟨r, List.mem_of_mem_filter hmem, hrecord⟩

theorem HoldsStops.mem {p : Payload dataset} {rows : List RTStopTimeModel} (h : HoldsStops p rows)
    {st : RTStopTimeModel} (hst : st ∈ rows) (hd : st.dataset = dataset) :
    st.toRtStopTimeRecord ∈ p.stops := by
  rw [← h]
  exact List.mem_map_of_mem (List.mem_filter.2 ⟨hst, decide_eq_true hd⟩)

/-- Where both tables hold one payload, a stop row stands beside a trip row of its trip. -/
theorem exists_trip_row {p : Payload dataset} {trips : List RTTripModel}
    {stopTimes : List RTStopTimeModel} (htrips : HoldsTrips p trips)
    (hstops : HoldsStops p stopTimes) {st : RTStopTimeModel} (hst : st ∈ stopTimes)
    (hd : st.dataset = dataset) :
    ∃ r ∈ trips, BelongsTo st.toRtStopTimeRecord r.toRtTripRecord := by
  obtain ⟨record, hrecord, hb⟩ := p.snapshot.belongs _ (hstops.mem hst hd)
  obtain ⟨row, hrow, rfl⟩ := htrips.exists_row hrecord
  exact ⟨row, hrow, hb⟩

def OverlayFrom (p : Payload dataset) (o : Overlay) : Prop :=
  (∀ t r, o.tripsById.get? t = some r → r.toRtTripRecord ∈ p.trips) ∧
    ∀ k c, o.stopMap.get? k = some c → c.row.toRtStopTimeRecord ∈ p.stops

theorem overlayFrom_load {p : Payload dataset} {trips : List RTTripModel}
    {stopTimes : List RTStopTimeModel} (htrips : HoldsTrips p trips)
    (hstops : HoldsStops p stopTimes) (now : DateTime) {schedules : List StaticScheduleModel}
    (hd : ∀ first ∈ schedules.head?, first.trip.dataset = dataset) :
    OverlayFrom p (loadRecentRtOverlayForSchedules trips stopTimes now schedules) := by
  constructor
  · intro t r h
    obtain ⟨first, hfirst, hr⟩ := mem_of_tripsById h
    simp only [recentTripRows, List.mem_filter, decide_eq_true_eq] at hr
    exact htrips.mem hr.1 (hr.2.2.1.trans (hd first hfirst))
  · intro k c h
    obtain ⟨first, hfirst, hr⟩ := mem_of_stopMap h
    simp only [recentStopRows, List.mem_filter, decide_eq_true_eq] at hr
    exact hstops.mem hr.1 (hr.2.2.1.trans (hd first hfirst))

end SimplyTransport.RealtimeSnapshot

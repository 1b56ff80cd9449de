import SimplyTransport.CivilDate
import SimplyTransport.RealtimeImporters
import SimplyTransport.StableSort

/-!
# The shift of the seed data to now

For a local test of the realtime pages the stop times of the payload's trips are moved to a few
minutes from now, trip by trip, and the payload is given the new starts. A row gets its new arrival
as its departure too: the times keep their distances exactly where each row departs when it
arrives.
-/

namespace SimplyTransport

/-- A time of day, moved by microseconds round the clock. -/
def Time.addMicros (t : Time) (n : ℤ) : Time := (⟨t.micros + n⟩ : DateTime).time

def DateTime.floorMinute (d : DateTime) : DateTime := ⟨d.micros - d.micros % 60000000⟩

namespace SeedTimeShift

structure TripPropertiesDict extends TripProperties where
  startTime : Option JsonScalar

/-- A trip update of the payload: its `trip` may be missing, and its `trip_properties`. -/
structure TripUpdateDict where
  trip : Option TripDescriptor
  tripProperties : Option TripPropertiesDict
  stopTimeUpdate : List StopTimeUpdate

structure Entity where
  id : Option String
  tripUpdate : Option TripUpdateDict

def noTrip : TripDescriptor := ⟨none, none, none, none, none, none⟩

def TripUpdateDict.toTripUpdate (u : TripUpdateDict) : TripUpdate where
  trip := u.trip.getD noTrip
  tripProperties := (u.tripProperties.map TripPropertiesDict.toTripProperties).getD ⟨none, none⟩
  stopTimeUpdate := u.stopTimeUpdate

def TripUpdateDict.effectiveTripId (u : TripUpdateDict) : Option String :=
  effectiveTripIdForTripUpdate u.toTripUpdate

def seeTrip (order : List String) (u : TripUpdateDict) : List String :=
  match u.effectiveTripId with
  | some tid => if tid ∈ order then order else order ++ [tid]
  | none => order

/-- The distinct trips of the payload, as they are first seen. -/
def tripOrder (payload : List Entity) : List String :=
  (payload.filterMap (fun e => e.tripUpdate)).foldl seeTrip []

theorem seeTrip_nodup {order : List String} (h : order.Nodup) (u : TripUpdateDict) :
    (seeTrip order u).Nodup := by
  unfold seeTrip
  cases u.effectiveTripId with
  | none => exact h
  | some tid =>
      by_cases hmem : tid ∈ order
      · simpa [hmem] using h
      · simpa [hmem, List.nodup_append] using ⟨h, fun a ha hne => hmem (hne ▸ ha)⟩

theorem foldl_seeTrip_nodup {order : List String} (h : order.Nodup) (us : List TripUpdateDict) :
    (us.foldl seeTrip order).Nodup := by
  induction us generalizing order with
  | nil => exact h
  | cons u us ih => exact ih (seeTrip_nodup h u)

theorem tripOrder_nodup (payload : List Entity) : (tripOrder payload).Nodup :=
  foldl_seeTrip_nodup List.nodup_nil _

def anchor (now : DateTime) (i : ℕ) : DateTime :=
  (now.addMinutes 2).floorMinute.addMinutes (10 * i)

def anchors (now : DateTime) (order : List String) : List (String × DateTime) :=
  order.zipIdx.map (fun entry => (entry.1, anchor now entry.2))

theorem anchors_keys (now : DateTime) (order : List String) :
    (anchors now order).map Prod.fst = order := by
  rw [anchors, List.map_map]
  exact List.zipIdx_map_fst 0 order

theorem anchors_nodup (now : DateTime) (payload : List Entity) :
    ((anchors now (tripOrder payload)).map Prod.fst).Nodup := by
  rw [anchors_keys]
  exact tripOrder_nodup payload

def tripAnchor (now : DateTime) (payload : List Entity) : OrderedDict String DateTime :=
  ⟨anchors now (tripOrder payload), anchors_nodup now payload⟩

section Rows

variable (dataset : String) (today : Date)

def ofTrip (tid : String) (st : StopTimeModel) : Bool := st.tripId = tid ∧ st.dataset = dataset

def moveRow (delta : ℤ) (st : StopTimeModel) : StopTimeModel :=
  let naive := (DateTime.combine today st.arrivalTime).addMicros delta
  { st with arrivalTime := naive.time, departureTime := naive.time }

def shiftTrip (stopTimes : List StopTimeModel) (entry : String × DateTime) :
    List StopTimeModel :=
  let stList := (stopTimes.filter (ofTrip dataset entry.1)).mergeSort
    (fun a b => a.stopSequence ≤ b.stopSequence)
  match stList with
  | [] => stopTimes
  | first :: _ =>
      let delta := entry.2.sub (DateTime.combine today first.arrivalTime)
      stopTimes.map (fun st => if ofTrip dataset entry.1 st then moveRow today delta st else st)

end Rows

def serviceIdActiveOnLocalToday (db : StaticDatabase) (dataset : String) (today : Date) :
    Option String :=
  let removedServices := (db.calendarDates.filter (fun e =>
    e.dataset = dataset ∧ e.date = today ∧ e.exceptionType = .removed)).map (fun e => e.serviceId)
  (db.calendars.find? (fun c => c.dataset = dataset ∧ c.startDate ≤ today ∧ c.endDate ≥ today ∧
    c.weekdayFlags.getD today.weekday.toNat 0 = 1 ∧ c.id ∉ removedServices)).bind
      (fun c => truthy (some c.id))

def repoint (dataset : String) (order : List String) (service : Option String)
    (trips : List TripModel) : List TripModel :=
  match service with
  | none => trips
  | some serviceId =>
      trips.map (fun t => if t.dataset = dataset ∧ t.id ∈ order then { t with serviceId } else t)

theorem repoint_ids (dataset : String) (order : List String) (service : Option String)
    (trips : List TripModel) :
    (repoint dataset order service trips).map (fun t => t.id) = trips.map (fun t => t.id) := by
  cases service with
  | none => rfl
  | some serviceId =>
      simp only [repoint, List.map_map]
      apply List.map_congr_left
      intro t _
      simp only [Function.comp]
      split_ifs <;> rfl

theorem repoint_nodup (db : StaticDatabase) (dataset : String) (order : List String)
    (service : Option String) :
    ((repoint dataset order service db.trips).map (fun t => t.id)).Nodup := by
  rw [repoint_ids]
  exact db.trips_nodup

def startDate (start : DateTime) : Option JsonScalar := some (.str start.date.strftimeYmd)

def startTime (start : DateTime) : Option JsonScalar := some (.str start.time.strftimeHms)

/-- A trip update with an id has a trip, so that `setdefault` finds it. -/
def patchTripUpdate (start : DateTime) (u : TripUpdateDict) : TripUpdateDict :=
  { u with
    trip := some { u.trip.getD noTrip with
      startDate := startDate start
      startTime := startTime start }
    tripProperties := u.tripProperties.map (fun props => { props with
      startDate := startDate start
      startTime := startTime start }) }

def patchEntity (starts : OrderedDict String DateTime) (e : Entity) : Entity :=
  match e.tripUpdate with
  | none => e
  | some u =>
    match u.effectiveTripId.bind starts.get? with
    | none => e
    | some start => { e with tripUpdate := some (patchTripUpdate start u) }

structure Shifted where
  service : Option String
  db : StaticDatabase
  payload : List Entity

def shiftDbStopTimesAndPatchPayloadForNow (now : DateTime) (dataset : String) (db : StaticDatabase)
    (payload : List Entity) : Shifted :=
  let order := tripOrder payload
  if order = [] then ⟨none, db, payload⟩ else
  let service := serviceIdActiveOnLocalToday db dataset now.date
  let starts := tripAnchor now payload
  { service
    db := { db with
      trips := repoint dataset order service db.trips
      trips_nodup := repoint_nodup db dataset order service
      stopTimes := starts.entries.foldl (shiftTrip dataset now.date) db.stopTimes }
    payload := payload.map (patchEntity starts) }

section Rows

variable {dataset : String} {today : Date}

theorem time_combine_addMicros (d : Date) (t : Time) (n : ℤ) :
    ((DateTime.combine d t).addMicros n).time = t.addMicros n := by
  apply Time.ext
  simp only [DateTime.combine, DateTime.addMicros, DateTime.time, Time.addMicros, dayMicros]
  omega

theorem moveRow_eq (today : Date) (delta : ℤ) (st : StopTimeModel) :
    moveRow today delta st = { st with
      arrivalTime := st.arrivalTime.addMicros delta
      departureTime := st.arrivalTime.addMicros delta } := by
  rw [moveRow]
  simp only [time_combine_addMicros]

theorem ofTrip_moveRow (tid : String) (delta : ℤ) (st : StopTimeModel) :
    ofTrip dataset tid (moveRow today delta st) = ofTrip dataset tid st := rfl

def movedRows (today : Date) (start : DateTime) (rows : List StopTimeModel) :
    List StopTimeModel :=
  match rows.mergeSort (fun a b => a.stopSequence ≤ b.stopSequence) with
  | [] => rows
  | first :: _ => rows.map (moveRow today (start.sub (DateTime.combine today first.arrivalTime)))

theorem filter_map_moved {p q : StopTimeModel → Bool} {delta : ℤ} {stopTimes : List StopTimeModel}
    (hp : ∀ st, p (moveRow today delta st) = p st) :
    (stopTimes.map (fun st => if q st then moveRow today delta st else st)).filter p =
      (stopTimes.filter p).map (fun st => if q st then moveRow today delta st else st) := by
  rw [List.filter_map]
  congr 1
  apply List.filter_congr
  intro st _
  simp only [Function.comp]
  split_ifs
  · exact hp st
  · rfl

theorem shiftTrip_filter_self (stopTimes : List StopTimeModel) (entry : String × DateTime) :
    (shiftTrip dataset today stopTimes entry).filter (ofTrip dataset entry.1) =
      movedRows today entry.2 (stopTimes.filter (ofTrip dataset entry.1)) := by
  unfold shiftTrip movedRows
  cases (stopTimes.filter (ofTrip dataset entry.1)).mergeSort
      (fun a b => a.stopSequence ≤ b.stopSequence) with
  | nil => rfl
  | cons first rest =>
      simp only
      rw [filter_map_moved fun st => ofTrip_moveRow _ _ st]
      apply List.map_congr_left
      intro st hst
      rw [if_pos (List.mem_filter.1 hst).2]

theorem shiftTrip_filter_of_ne (stopTimes : List StopTimeModel) {entry : String × DateTime}
    {tid : String} (h : tid ≠ entry.1) :
    (shiftTrip dataset today stopTimes entry).filter (ofTrip dataset tid) =
      stopTimes.filter (ofTrip dataset tid) := by
  unfold shiftTrip
  cases (stopTimes.filter (ofTrip dataset entry.1)).mergeSort
      (fun a b => a.stopSequence ≤ b.stopSequence) with
  | nil => rfl
  | cons first rest =>
      simp only
      rw [filter_map_moved fun st => ofTrip_moveRow _ _ st]
      refine (List.map_congr_left ?_).trans (List.map_id _)
      intro st hst
      have htid : st.tripId = tid := by
        have hof := (List.mem_filter.1 hst).2
        simp only [ofTrip, decide_eq_true_eq] at hof
        exact hof.1
      have hnot : ofTrip dataset entry.1 st = false := by
        simp [ofTrip, htid, h]
      rw [hnot, if_neg Bool.false_ne_true, id]

/-- The turns of other trips leave the rows of a trip. -/
theorem foldl_shiftTrip_of_notMem {entries : List (String × DateTime)} {tid : String}
    (h : tid ∉ entries.map Prod.fst) (stopTimes : List StopTimeModel) :
    (entries.foldl (shiftTrip dataset today) stopTimes).filter (ofTrip dataset tid) =
      stopTimes.filter (ofTrip dataset tid) := by
  induction entries generalizing stopTimes with
  | nil => rfl
  | cons entry entries ih =>
      rw [List.map_cons, List.mem_cons, not_or] at h
      rw [List.foldl_cons, ih h.2, shiftTrip_filter_of_ne _ h.1]

/-- After all turns the rows of a trip are those after its own. -/
theorem foldl_shiftTrip_filter {entries : List (String × DateTime)}
    (hnodup : (entries.map Prod.fst).Nodup) {entry : String × DateTime} (h : entry ∈ entries)
    (stopTimes : List StopTimeModel) :
    (entries.foldl (shiftTrip dataset today) stopTimes).filter (ofTrip dataset entry.1) =
      movedRows today entry.2 (stopTimes.filter (ofTrip dataset entry.1)) := by
  induction entries generalizing stopTimes with
  | nil => exact absurd h List.not_mem_nil
  | cons e entries ih =>
      rw [List.map_cons, List.nodup_cons] at hnodup
      rw [List.foldl_cons]
      rcases List.mem_cons.1 h with rfl | hrest
      · rw [foldl_shiftTrip_of_notMem hnodup.1, shiftTrip_filter_self]
      · have hne : entry.1 ≠ e.1 := by
          intro heq
          apply hnodup.1
          rw [← heq]
          exact List.mem_map_of_mem hrest
        rw [ih hnodup.2 hrest, shiftTrip_filter_of_ne _ hne]

end Rows

section Moved

/-- A trip that has been moved by one delta, so that its first row arrives at the start. -/
structure Moved (start : DateTime) (before after : List StopTimeModel) : Prop where
  delta : ∃ delta : ℤ, after = before.map (fun st => { st with
    arrivalTime := st.arrivalTime.addMicros delta
    departureTime := st.departureTime.addMicros delta })
  first : ∃ st ∈ after, (∀ other ∈ after, st.stopSequence ≤ other.stopSequence) ∧
    st.arrivalTime = start.time

theorem addMicros_injective {t u : Time} {n : ℤ} (h : t.addMicros n = u.addMicros n) : t = u := by
  have ht := t.lt_day
  have hu := u.lt_day
  have hmicros := congrArg Time.micros h
  apply Time.ext
  simp only [Time.addMicros, DateTime.time, dayMicros] at ht hu hmicros
  omega

theorem lowest_of_sorted {rows rest : List StopTimeModel} {first : StopTimeModel}
    (h : rows.mergeSort (fun a b => a.stopSequence ≤ b.stopSequence) = first :: rest) :
    first ∈ rows ∧ ∀ st ∈ rows, first.stopSequence ≤ st.stopSequence := by
  have hsorted := StableSort.sorted_mergeSort (fun st : StopTimeModel => st.stopSequence) rows
  have hperm := List.mergeSort_perm rows (fun a b => a.stopSequence ≤ b.stopSequence)
  rw [h] at hsorted hperm
  refine ⟨hperm.mem_iff.1 List.mem_cons_self, ?_⟩
  intro st hst
  rcases List.mem_cons.1 (hperm.mem_iff.2 hst) with rfl | hrest
  · exact le_rfl
  · exact List.rel_of_pairwise_cons hsorted hrest

theorem moved_iff {today : Date} {start : DateTime} {rows : List StopTimeModel} (hne : rows ≠ []) :
    Moved start rows (movedRows today start rows) ↔
      ∀ st ∈ rows, st.departureTime = st.arrivalTime := by
  unfold movedRows
  cases hsort : rows.mergeSort (fun a b => a.stopSequence ≤ b.stopSequence) with
  | nil =>
      have hlength :=
        (List.mergeSort_perm rows (fun a b => a.stopSequence ≤ b.stopSequence)).length_eq
      rw [hsort] at hlength
      exact absurd (List.length_eq_zero_iff.1 hlength.symm) hne
  | cons first rest =>
      simp only
      constructor
      · intro h st hst
        obtain ⟨delta, hdelta⟩ := h.delta
        have hrow := List.map_inj_left.1 hdelta st hst
        rw [moveRow_eq] at hrow
        have harrival := congrArg StopTimeModel.arrivalTime hrow
        have hdeparture := congrArg StopTimeModel.departureTime hrow
        simp only at harrival hdeparture
        exact addMicros_injective (hdeparture.symm.trans harrival)
      · intro h
        obtain ⟨hfirst, hlowest⟩ := lowest_of_sorted hsort
        constructor
        · refine ⟨start.sub (DateTime.combine today first.arrivalTime), ?_⟩
          apply List.map_congr_left
          intro st hst
          rw [moveRow_eq, h st hst]
        · refine ⟨_, List.mem_map_of_mem hfirst, ?_, ?_⟩
          · intro other hother
            obtain ⟨st, hst, rfl⟩ := List.mem_map.1 hother
            exact hlowest st hst
          · simp only [moveRow, DateTime.addMicros, DateTime.sub, add_sub_cancel]

end Moved

section Payload

structure Carries (start : DateTime) (u : TripUpdateDict) : Prop where
  trip : ∃ trip, u.trip = some trip ∧ trip.startDate = startDate start ∧
    trip.startTime = startTime start
  properties : ∀ props ∈ u.tripProperties, props.startDate = startDate start ∧
    props.startTime = startTime start

theorem patchTripUpdate_carries (start : DateTime) (u : TripUpdateDict) :
    Carries start (patchTripUpdate start u) where
  trip := ⟨_, rfl, rfl, rfl⟩
  properties := by
    intro props hprops
    obtain ⟨old, -, rfl⟩ := Option.map_eq_some_iff.1 hprops
    exact ⟨rfl, rfl⟩

end Payload

/-- What the shift promises: the rows of every trip are moved by one delta to its start, and its
entities carry the start. -/
structure SpacingPreserved (now : DateTime) (dataset : String) (db : StaticDatabase)
    (payload : List Entity) (result : Shifted) : Prop where
  rows : ∀ i tid, (tripOrder payload)[i]? = some tid →
    db.stopTimes.filter (ofTrip dataset tid) ≠ [] →
    Moved (anchor now i) (db.stopTimes.filter (ofTrip dataset tid))
      (result.db.stopTimes.filter (ofTrip dataset tid))
  entities : ∀ (k : ℕ) (e : Entity) (u : TripUpdateDict), payload[k]? = some e →
    e.tripUpdate = some u →
    ∀ i tid, u.effectiveTripId = some tid → (tripOrder payload)[i]? = some tid →
    ∃ (e' : Entity) (u' : TripUpdateDict), result.payload[k]? = some e' ∧
      e'.tripUpdate = some u' ∧
      u'.tripProperties.isSome = u.tripProperties.isSome ∧ Carries (anchor now i) u'

section Shift

variable {now : DateTime} {dataset : String} {db : StaticDatabase} {payload : List Entity}

theorem mem_anchors_iff {order : List String} {tid : String} {start : DateTime} :
    (tid, start) ∈ anchors now order ↔ ∃ i, order[i]? = some tid ∧ anchor now i = start := by
  rw [anchors, List.mem_map]
  constructor
  · rintro ⟨entry, hentry, h⟩
    obtain ⟨rfl, rfl⟩ := Prod.mk.inj h
    exact ⟨entry.2, List.mem_zipIdx_iff_getElem?.1 hentry, rfl⟩
  · rintro ⟨i, hi, rfl⟩
    exact ⟨(tid, i), List.mem_zipIdx_iff_getElem?.2 hi, rfl⟩

theorem shifted_rows {i : ℕ} {tid : String} (h : (tripOrder payload)[i]? = some tid) :
    (shiftDbStopTimesAndPatchPayloadForNow now dataset db payload).db.stopTimes.filter
        (ofTrip dataset tid) =
      movedRows now.date (anchor now i) (db.stopTimes.filter (ofTrip dataset tid)) := by
  have horder : tripOrder payload ≠ [] := List.ne_nil_of_mem (List.mem_of_getElem? h)
  have hmem : (tid, anchor now i) ∈ anchors now (tripOrder payload) :=
    mem_anchors_iff.2 ⟨i, h, rfl⟩
  rw [shiftDbStopTimesAndPatchPayloadForNow, if_neg horder]
  exact foldl_shiftTrip_filter (anchors_nodup now payload) hmem db.stopTimes

theorem shifted_payload (h : tripOrder payload ≠ []) :
    (shiftDbStopTimesAndPatchPayloadForNow now dataset db payload).payload =
      payload.map (patchEntity (tripAnchor now payload)) := by
  rw [shiftDbStopTimesAndPatchPayloadForNow, if_neg h]

theorem patchEntity_eq {e : Entity} {u : TripUpdateDict} {i : ℕ} {tid : String}
    (he : e.tripUpdate = some u) (hu : u.effectiveTripId = some tid)
    (h : (tripOrder payload)[i]? = some tid) :
    patchEntity (tripAnchor now payload) e =
      { e with tripUpdate := some (patchTripUpdate (anchor now i) u) } := by
  have hget : (tripAnchor now payload).get? tid = some (anchor now i) :=
    OrderedDict.mem_entries_iff.1 (mem_anchors_iff.2 ⟨i, h, rfl⟩)
  unfold patchEntity
  simp only [he, hu, Option.bind_some, hget]

end Shift

/-- The promise is kept exactly where the rows of the payload's trips depart when they arrive. -/
theorem spacing_preserved_iff (now : DateTime) (dataset : String) (db : StaticDatabase)
    (payload : List Entity) :
    SpacingPreserved now dataset db payload
        (shiftDbStopTimesAndPatchPayloadForNow now dataset db payload) ↔
      ∀ st ∈ db.stopTimes, st.dataset = dataset → st.tripId ∈ tripOrder payload →
        st.departureTime = st.arrivalTime := by
  constructor
  · intro h st hst hdataset htrip
    obtain ⟨i, hi⟩ := List.mem_iff_getElem?.1 htrip
    have hrow : st ∈ db.stopTimes.filter (ofTrip dataset st.tripId) :=
      List.mem_filter.2 ⟨hst, decide_eq_true ⟨rfl, hdataset⟩⟩
    have hne := List.ne_nil_of_mem hrow
    have hmoved := h.rows i st.tripId hi hne
    rw [shifted_rows hi, moved_iff hne] at hmoved
    exact hmoved st hrow
  · intro h
    constructor
    · intro i tid hi hne
      rw [shifted_rows hi, moved_iff hne]
      intro st hst
      obtain ⟨hrow, hof⟩ := List.mem_filter.1 hst
      obtain ⟨rfl, hdataset⟩ := of_decide_eq_true hof
      exact h st hrow hdataset (List.mem_of_getElem? hi)
    · intro k e u hk he i tid hu hi
      have horder : tripOrder payload ≠ [] := List.ne_nil_of_mem (List.mem_of_getElem? hi)
      refine ⟨{ e with tripUpdate := some (patchTripUpdate (anchor now i) u) }, _, ?_, rfl, ?_,
        patchTripUpdate_carries (anchor now i) u⟩
      · rw [shifted_payload horder, List.getElem?_map, hk, Option.map_some,
          patchEntity_eq he hu hi]
      · simp [patchTripUpdate]

def dwellRow : StopTimeModel :=
  ⟨1, "T1", ⟨28800000000, by decide⟩, ⟨29100000000, by decide⟩, "8220DB000270", 1, "", none, none,
    none, "TFI"⟩

def dwellDb : StaticDatabase where
  routes := []
  calendars := []
  calendarDates := []
  stops := []
  trips := []
  stopTimes := [dwellRow]
  routes_nodup := List.nodup_nil
  calendars_nodup := List.nodup_nil
  stops_nodup := List.nodup_nil
  trips_nodup := List.nodup_nil

def dwellPayload : List Entity :=
  [⟨some "1", some ⟨some { noTrip with tripId := some "T1" }, none, []⟩⟩]

/-- The wait is lost. -/
theorem dwell_is_lost : ¬ ∀ (now : DateTime) (dataset : String) (db : StaticDatabase)
    (payload : List Entity), SpacingPreserved now dataset db payload
      (shiftDbStopTimesAndPatchPayloadForNow now dataset db payload) := by
  intro h
  have horder : (tripOrder dwellPayload)[0]? = some "T1" := by decide
  have hne : dwellDb.stopTimes.filter (ofTrip "TFI" "T1") ≠ [] := by decide
  have hmoved := (h ⟨0⟩ "TFI" dwellDb dwellPayload).rows 0 "T1" horder hne
  rw [shifted_rows horder, moved_iff hne] at hmoved
  have hdwell := hmoved dwellRow (by decide)
  exact absurd hdwell (by decide)

end SeedTimeShift

end SimplyTransport

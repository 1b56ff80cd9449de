import SimplyTransport.OrderedDict
import SimplyTransport.RealtimeTables
import Mathlib.Data.Prod.Lex

/-!
# The realtime overlay of a list of static schedules

`load_recent_rt_overlay_for_schedules` reads the recent rows of the trips of a list of schedules
and picks one trip row for each trip and one stop row for each cell of the timetable. What it
picks for one trip or cell is a function of the recent rows of that trip.
-/

namespace SimplyTransport

/-- The order of the sequence numbers, found before the complete one, which does not compute. -/
instance instPreorderInt : Preorder ℤ := Int.instLinearOrder.toPreorder

/-- The stop row chosen for a static schedule cell, and whether it is an exact match. -/
structure RTStopTimeOverlay where
  row : RTStopTimeModel
  exactMatch : Bool
  deriving DecidableEq

def isNotSkipped (r : RTStopTimeModel) : Bool :=
  r.scheduleRelationship ≠ ScheduleRelationship.skipped.value

def sequenceThenCreated (r : RTStopTimeModel) : ℤ ×ₗ DateTime :=
  toLex (r.stopSequence, r.createdAt)

def pickPredecessorCarryForward (tripRows : List RTStopTimeModel) (staticSequence : ℤ) :
    Option RTStopTimeModel :=
  let predecessors := tripRows.filter (fun r => r.stopSequence ≤ staticSequence)
  if predecessors.isEmpty then none else
  let nonSkipped := predecessors.filter isNotSkipped
  if nonSkipped.isEmpty then predecessors.argmax sequenceThenCreated
  else nonSkipped.argmax sequenceThenCreated

def pickEarliest (pool : List RTStopTimeModel) : Option RTStopTimeModel :=
  let minSq := (pool.map (fun r => r.stopSequence)).minimum
  let atMin := pool.filter (fun r => (r.stopSequence : WithTop ℤ) = minSq)
  atMin.argmax (fun r => r.createdAt)

def pickSuccessorCarryForward (tripRows : List RTStopTimeModel) (staticSequence : ℤ) :
    Option RTStopTimeModel :=
  let successors := tripRows.filter (fun r => staticSequence ≤ r.stopSequence)
  if successors.isEmpty then none else
  let nonSkipped := successors.filter isNotSkipped
  pickEarliest (if nonSkipped.isEmpty then successors else nonSkipped)

def overlayForStaticScheduleRow (tripId stopId : String) (stopSequence : ℤ)
    (byTriple : OrderedDict (String × String × ℤ) RTStopTimeModel)
    (tripRows : List RTStopTimeModel) : Option RTStopTimeOverlay :=
  match byTriple.get? (tripId, stopId, stopSequence) with
  | some row => some ⟨row, true⟩
  | none =>
    match pickPredecessorCarryForward tripRows stopSequence with
    | some row => some ⟨row, false⟩
    | none =>
      match pickSuccessorCarryForward tripRows stopSequence with
      | some row => some ⟨row, false⟩
      | none => none

def StaticScheduleModel.cell (s : StaticScheduleModel) : String × String × ℤ :=
  (s.trip.id, s.stop.id, s.stopTime.stopSequence)

def RTStopTimeModel.triple (r : RTStopTimeModel) : String × String × ℤ :=
  (r.tripId, r.stopId, r.stopSequence)

structure Overlay where
  tripsById : OrderedDict String RTTripModel
  stopMap : OrderedDict (String × String × ℤ) RTStopTimeOverlay

def thirtyMinsAgo (now : DateTime) : DateTime := now.addMinutes (-30)

def loadRecentRtOverlayForSchedules (rtTrips : List RTTripModel)
    (rtStopTimes : List RTStopTimeModel) (now : DateTime) (schedules : List StaticScheduleModel) :
    Overlay :=
  match schedules with
  | [] => ⟨OrderedDict.empty, OrderedDict.empty⟩
  | first :: _ =>
    let dataset := first.trip.dataset
    let tripIds := schedules.map (fun s => s.trip.id)
    let trips := rtTrips.filter (fun r =>
      r.tripId ∈ tripIds ∧ r.dataset = dataset ∧ thirtyMinsAgo now ≤ r.createdAt)
    let tripsById := OrderedDict.newestBy (fun r => r.tripId) (fun r => r.createdAt) trips
    let stopTimes := rtStopTimes.filter (fun r =>
      r.dataset = dataset ∧ thirtyMinsAgo now ≤ r.createdAt ∧ r.tripId ∈ tripIds)
    let byTriple :=
      OrderedDict.newestBy RTStopTimeModel.triple (fun r => r.createdAt) stopTimes
    let byTrip := OrderedDict.groupBy (fun r => r.tripId) stopTimes
    let stopMap := OrderedDict.collect StaticScheduleModel.cell (fun s =>
      overlayForStaticScheduleRow s.trip.id s.stop.id s.stopTime.stopSequence byTriple
        (byTrip.getD s.trip.id [])) schedules
    ⟨tripsById, stopMap⟩

def recentTripRows (rtTrips : List RTTripModel) (now : DateTime) (dataset tripId : String) :
    List RTTripModel :=
  rtTrips.filter (fun r =>
    r.tripId = tripId ∧ r.dataset = dataset ∧ thirtyMinsAgo now ≤ r.createdAt)

def recentStopRows (rtStopTimes : List RTStopTimeModel) (now : DateTime)
    (dataset tripId : String) : List RTStopTimeModel :=
  rtStopTimes.filter (fun r =>
    r.tripId = tripId ∧ r.dataset = dataset ∧ thirtyMinsAgo now ≤ r.createdAt)

def newestTripRow (rows : List RTTripModel) : Option RTTripModel :=
  rows.argmax (fun r => r.createdAt)

def exactRows (rows : List RTStopTimeModel) (stopId : String) (sequence : ℤ) :
    List RTStopTimeModel :=
  rows.filter (fun r => r.stopId = stopId ∧ r.stopSequence = sequence)

def carryForward (rows : List RTStopTimeModel) (sequence : ℤ) : Option RTStopTimeModel :=
  (pickPredecessorCarryForward rows sequence).or (pickSuccessorCarryForward rows sequence)

def resolveCell (rows : List RTStopTimeModel) (stopId : String) (sequence : ℤ) :
    Option RTStopTimeOverlay :=
  match (exactRows rows stopId sequence).argmax (fun r => r.createdAt) with
  | some row => some ⟨row, true⟩
  | none => (carryForward rows sequence).map (fun row => ⟨row, false⟩)

theorem thirtyMinsAgo_le (now : DateTime) : thirtyMinsAgo now ≤ now := by
  simp only [thirtyMinsAgo, DateTime.le_iff, DateTime.addMinutes, DateTime.addSeconds,
    DateTime.addMicros]
  omega

theorem get?_tripsById {rtTrips : List RTTripModel} {rtStopTimes : List RTStopTimeModel}
    {now : DateTime} {first : StaticScheduleModel} {rest : List StaticScheduleModel}
    {s : StaticScheduleModel} (hs : s ∈ first :: rest) :
    (loadRecentRtOverlayForSchedules rtTrips rtStopTimes now (first :: rest)).tripsById.get?
      s.trip.id = newestTripRow (recentTripRows rtTrips now first.trip.dataset s.trip.id) := by
  have hid : s.trip.id ∈ (first :: rest).map (fun s => s.trip.id) := List.mem_map_of_mem hs
  simp only [loadRecentRtOverlayForSchedules, OrderedDict.get?_newestBy, List.filter_filter]
  unfold newestTripRow recentTripRows
  congr 1
  apply List.filter_congr
  intro r _
  by_cases hr : r.tripId = s.trip.id
  · simp only [hr, hid, true_and, decide_true, Bool.true_and]
  · simp only [hr, false_and, decide_false, Bool.false_and]

theorem get?_tripsById_none {rtTrips : List RTTripModel} {rtStopTimes : List RTStopTimeModel}
    {now : DateTime} {schedules : List StaticScheduleModel} {t : String}
    (ht : ∀ s ∈ schedules, s.trip.id ≠ t) :
    (loadRecentRtOverlayForSchedules rtTrips rtStopTimes now schedules).tripsById.get? t =
      none := by
  cases schedules with
  | nil => rfl
  | cons first rest =>
      have hid : t ∉ (first :: rest).map (fun s => s.trip.id) := by
        intro hmem
        obtain ⟨s, hs, rfl⟩ := List.mem_map.1 hmem
        exact ht s hs rfl
      simp only [loadRecentRtOverlayForSchedules, OrderedDict.get?_newestBy, List.filter_filter]
      rw [List.argmax_eq_none, List.filter_eq_nil_iff]
      intro r _ hr
      simp only [Bool.and_eq_true, decide_eq_true_eq] at hr
      exact hid (hr.1 ▸ hr.2.1)

/-- The two indexes of the rows give to a cell what the rows of its trip give to it. -/
theorem overlay_eq_resolveCell (rows : List RTStopTimeModel) (tripId stopId : String)
    (sequence : ℤ) :
    overlayForStaticScheduleRow tripId stopId sequence
      (OrderedDict.newestBy RTStopTimeModel.triple (fun r => r.createdAt) rows)
      ((OrderedDict.groupBy (fun r => r.tripId) rows).getD tripId []) =
    resolveCell (rows.filter (fun r => r.tripId = tripId)) stopId sequence := by
  have hexact : rows.filter (fun r => r.triple = (tripId, stopId, sequence)) =
      exactRows (rows.filter (fun r => r.tripId = tripId)) stopId sequence := by
    rw [exactRows, List.filter_filter]
    apply List.filter_congr
    intro r _
    simp only [RTStopTimeModel.triple, Prod.mk.injEq, Bool.decide_and]
    rw [Bool.and_comm]
  simp only [overlayForStaticScheduleRow, OrderedDict.get?_newestBy, OrderedDict.getD_groupBy,
    hexact]
  unfold resolveCell carryForward
  generalize rows.filter (fun r => r.tripId = tripId) = rows
  cases (exactRows rows stopId sequence).argmax (fun r => r.createdAt) with
  | some row => rfl
  | none =>
      cases pickPredecessorCarryForward rows sequence with
      | some row => rfl
      | none => cases pickSuccessorCarryForward rows sequence <;> rfl

theorem overlayForStaticScheduleRow_eq {rtStopTimes : List RTStopTimeModel} {now : DateTime}
    {dataset : String} {tripIds : List String} {s : StaticScheduleModel}
    (hs : s.trip.id ∈ tripIds) :
    let stopTimes := rtStopTimes.filter (fun r =>
      r.dataset = dataset ∧ thirtyMinsAgo now ≤ r.createdAt ∧ r.tripId ∈ tripIds)
    overlayForStaticScheduleRow s.trip.id s.stop.id s.stopTime.stopSequence
      (OrderedDict.newestBy RTStopTimeModel.triple (fun r => r.createdAt) stopTimes)
      ((OrderedDict.groupBy (fun r => r.tripId) stopTimes).getD s.trip.id []) =
    resolveCell (recentStopRows rtStopTimes now dataset s.trip.id) s.stop.id
      s.stopTime.stopSequence := by
  intro stopTimes
  have hrows : stopTimes.filter (fun r => r.tripId = s.trip.id) =
      recentStopRows rtStopTimes now dataset s.trip.id := by
    simp only [stopTimes, recentStopRows, List.filter_filter]
    apply List.filter_congr
    intro r _
    by_cases hr : r.tripId = s.trip.id
    · simp only [hr, hs, true_and, and_true, decide_true, Bool.true_and]
    · simp only [hr, false_and, decide_false, Bool.false_and]
  rw [overlay_eq_resolveCell, hrows]

theorem get?_stopMap {rtTrips : List RTTripModel} {rtStopTimes : List RTStopTimeModel}
    {now : DateTime} {first : StaticScheduleModel} {rest : List StaticScheduleModel}
    (k : String × String × ℤ) (o : RTStopTimeOverlay) :
    (loadRecentRtOverlayForSchedules rtTrips rtStopTimes now (first :: rest)).stopMap.get? k =
      some o ↔ (∃ s ∈ first :: rest, s.cell = k) ∧
        resolveCell (recentStopRows rtStopTimes now first.trip.dataset k.1) k.2.1 k.2.2 =
          some o := by
  simp only [loadRecentRtOverlayForSchedules]
  refine OrderedDict.get?_collect (g := fun k : String × String × ℤ =>
    resolveCell (recentStopRows rtStopTimes now first.trip.dataset k.1) k.2.1 k.2.2) ?_ k o
  intro s hs
  exact overlayForStaticScheduleRow_eq (List.mem_map_of_mem hs)

theorem get?_stopMap_cell {rtTrips : List RTTripModel} {rtStopTimes : List RTStopTimeModel}
    {now : DateTime} {first : StaticScheduleModel} {rest : List StaticScheduleModel}
    {s : StaticScheduleModel} (hs : s ∈ first :: rest) :
    (loadRecentRtOverlayForSchedules rtTrips rtStopTimes now (first :: rest)).stopMap.get? s.cell =
      resolveCell (recentStopRows rtStopTimes now first.trip.dataset s.trip.id) s.stop.id
        s.stopTime.stopSequence := by
  apply Option.ext
  intro o
  rw [get?_stopMap]
  exact and_iff_right ⟨s, hs, rfl⟩

end SimplyTransport

import SimplyTransport.RealtimeOverlay
import SimplyTransport.RealtimeScheduleModel
import Mathlib.Data.List.Lex

/-!
# The realtime service

The display path: the overlay of a list of schedules, one model for each schedule, and the
filters and the sorting over the models.
-/

namespace SimplyTransport

def StaticScheduleModel.rtTrip (s : StaticScheduleModel) (overlay : Overlay) : Option RTTripModel :=
  overlay.tripsById.get? s.trip.id

def StaticScheduleModel.stopOverlay (s : StaticScheduleModel) (overlay : Overlay) :
    Option RTStopTimeOverlay :=
  overlay.stopMap.get? s.cell

def realtimeScheduleFor (overlay : Overlay) (now : DateTime) (static : StaticScheduleModel) :
    RealtimeScheduleModel :=
  let rtTrip := static.rtTrip overlay
  let stopOverlay := static.stopOverlay overlay
  let rtStopTime := stopOverlay.map (fun o => o.row)
  let overlayExact := (stopOverlay.map (fun o => o.exactMatch)).getD false
  if rtTrip.any (fun r => r.isRemoved) then
    RealtimeScheduleModel.new static none rtTrip false now
  else if rtStopTime.isSome then
    RealtimeScheduleModel.new static rtStopTime rtTrip overlayExact now
  else if rtTrip.isSome then RealtimeScheduleModel.new static none rtTrip false now
  else RealtimeScheduleModel.new static none none false now

def realtimeSchedules (overlay : Overlay) (now : DateTime) (schedules : List StaticScheduleModel) :
    List RealtimeScheduleModel :=
  schedules.map (realtimeScheduleFor overlay now)

/-- `nowUtc` and `now` are the same instant on the clock of the database rows and on the wall. -/
def getRealtimeSchedulesForStaticSchedules (rtTrips : List RTTripModel)
    (rtStopTimes : List RTStopTimeModel) (nowUtc now : DateTime)
    (schedules : List StaticScheduleModel) : List RealtimeScheduleModel :=
  if schedules.isEmpty then [] else
  realtimeSchedules (loadRecentRtOverlayForSchedules rtTrips rtStopTimes nowUtc schedules) now
    schedules

def filterToOnlyDueSchedules (rs : List RealtimeScheduleModel) : List RealtimeScheduleModel :=
  rs.filter (fun r => r.isDue)

def filterToOnlySchedulesWithUpdates (rs : List RealtimeScheduleModel) :
    List RealtimeScheduleModel :=
  rs.filter (fun r => r.onTimeStatus ≠ .unknown)

/-- Times from 00:00 to 02:59 sort after 23:59. -/
def customSortKey (arrivalTime : Time) : List ℕ :=
  if arrivalTime.hour ≤ 2 then [24, arrivalTime.hour, arrivalTime.minute, arrivalTime.second]
  else [arrivalTime.hour, arrivalTime.minute, arrivalTime.second]

def applyCustom2300Sorting {α : Type} (arrivalTime : α → Time) (rows : List α) : List α :=
  rows.mergeSort (fun a b => customSortKey (arrivalTime a) ≤ customSortKey (arrivalTime b))

theorem applyCustom2300Sorting_perm {α : Type} (arrivalTime : α → Time) (rows : List α) :
    (applyCustom2300Sorting arrivalTime rows).Perm rows :=
  List.mergeSort_perm rows _

section Cases

variable {overlay : Overlay} {now : DateTime} {static : StaticScheduleModel}

theorem realtimeScheduleFor_removed
    (h : (static.rtTrip overlay).any (fun r => r.isRemoved) = true) :
    realtimeScheduleFor overlay now static =
      .asScheduled static none (static.rtTrip overlay) false "Cancelled" .unknown true now := by
  simp only [realtimeScheduleFor, RealtimeScheduleModel.new, h, if_true]

theorem realtimeScheduleFor_none
    (h : (static.rtTrip overlay).any (fun r => r.isRemoved) = false)
    (hs : static.stopOverlay overlay = none) :
    realtimeScheduleFor overlay now static =
      .asScheduled static none (static.rtTrip overlay) false "-" .unknown false now := by
  simp only [realtimeScheduleFor, h, hs]
  cases ht : static.rtTrip overlay with
  | none => rfl
  | some r =>
      rw [ht] at h
      simp only [RealtimeScheduleModel.new, h, Option.isSome_some]
      rfl

theorem realtimeScheduleFor_some {o : RTStopTimeOverlay}
    (h : (static.rtTrip overlay).any (fun r => r.isRemoved) = false)
    (hs : static.stopOverlay overlay = some o) :
    realtimeScheduleFor overlay now static =
      if o.exactMatch ∧ o.row.scheduleRelationship = ScheduleRelationship.skipped.value then
        .asScheduled static (some o.row) (static.rtTrip overlay) o.exactMatch "Skipped" .skipped
          false now
      else .withDelay static o.row (static.rtTrip overlay) o.exactMatch now := by
  simp only [realtimeScheduleFor, RealtimeScheduleModel.new, h, hs, Option.map_some,
    Option.isSome_some, Option.getD_some]
  rfl

/-- A property of the row of a call, shown for a removed trip, for a call without a stop row and for
one with a row. -/
theorem realtimeScheduleFor_cases {P : RealtimeScheduleModel → Prop}
    (hremoved : (static.rtTrip overlay).any (fun r => r.isRemoved) = true →
      P (.asScheduled static none (static.rtTrip overlay) false "Cancelled" .unknown true now))
    (hnone : (static.rtTrip overlay).any (fun r => r.isRemoved) = false →
      static.stopOverlay overlay = none →
      P (.asScheduled static none (static.rtTrip overlay) false "-" .unknown false now))
    (hskipped : ∀ o, (static.rtTrip overlay).any (fun r => r.isRemoved) = false →
      static.stopOverlay overlay = some o →
      P (.asScheduled static (some o.row) (static.rtTrip overlay) o.exactMatch "Skipped" .skipped
        false now))
    (hdelayed : ∀ o, (static.rtTrip overlay).any (fun r => r.isRemoved) = false →
      static.stopOverlay overlay = some o →
      P (.withDelay static o.row (static.rtTrip overlay) o.exactMatch now)) :
    P (realtimeScheduleFor overlay now static) := by
  cases h : (static.rtTrip overlay).any (fun r => r.isRemoved) with
  | true =>
      rw [realtimeScheduleFor_removed h]
      exact hremoved h
  | false =>
      cases hs : static.stopOverlay overlay with
      | none =>
          rw [realtimeScheduleFor_none h hs]
          exact hnone h hs
      | some o =>
          rw [realtimeScheduleFor_some h hs]
          split_ifs
          · exact hskipped o h hs
          · exact hdelayed o h hs

end Cases

theorem realtimeScheduleFor_isTripRemoved (overlay : Overlay) (now : DateTime)
    (static : StaticScheduleModel) :
    (realtimeScheduleFor overlay now static).isTripRemoved =
      (static.rtTrip overlay).any (fun r => r.isRemoved) := by
  apply realtimeScheduleFor_cases (P := fun r => r.isTripRemoved = _)
  · exact fun h => h.symm
  · exact fun h _ => h.symm
  · exact fun _ h _ => h.symm
  · exact fun _ h _ => h.symm

theorem realtimeScheduleFor_staticSchedule (overlay : Overlay) (now : DateTime)
    (static : StaticScheduleModel) :
    (realtimeScheduleFor overlay now static).staticSchedule = static := by
  apply realtimeScheduleFor_cases (P := fun r => r.staticSchedule = static)
  · exact fun _ => rfl
  · exact fun _ _ => rfl
  · exact fun _ _ _ => rfl
  · exact fun _ _ _ => rfl

theorem realtimeScheduleFor_rtTrip (overlay : Overlay) (now : DateTime)
    (static : StaticScheduleModel) :
    (realtimeScheduleFor overlay now static).rtTrip = static.rtTrip overlay := by
  apply realtimeScheduleFor_cases (P := fun r => r.rtTrip = static.rtTrip overlay)
  · exact fun _ => rfl
  · exact fun _ _ => rfl
  · exact fun _ _ _ => rfl
  · exact fun _ _ _ => rfl

/-- A removed trip carries no stop row. -/
theorem realtimeScheduleFor_rtStopTime (overlay : Overlay) (now : DateTime)
    (static : StaticScheduleModel) :
    (realtimeScheduleFor overlay now static).rtStopTime =
      if (static.rtTrip overlay).any (fun r => r.isRemoved) then none
      else (static.stopOverlay overlay).map (fun o => o.row) := by
  apply realtimeScheduleFor_cases (P := fun r => r.rtStopTime = _)
  · intro h
    rw [if_pos h]
    rfl
  · intro h hs
    rw [h, if_neg Bool.false_ne_true, hs]
    rfl
  · intro o h hs
    rw [h, if_neg Bool.false_ne_true, hs]
    rfl
  · intro o h hs
    rw [h, if_neg Bool.false_ne_true, hs]
    rfl

section Load

variable {rtTrips : List RTTripModel} {rtStopTimes : List RTStopTimeModel} {nowUtc : DateTime}

theorem rtTrip_load {first : StaticScheduleModel} {rest : List StaticScheduleModel}
    {s : StaticScheduleModel} (hs : s ∈ first :: rest) :
    s.rtTrip (loadRecentRtOverlayForSchedules rtTrips rtStopTimes nowUtc (first :: rest)) =
      newestTripRow (recentTripRows rtTrips nowUtc first.trip.dataset s.trip.id) :=
  get?_tripsById hs

theorem stopOverlay_load {first : StaticScheduleModel} {rest : List StaticScheduleModel}
    {s : StaticScheduleModel} (hs : s ∈ first :: rest) :
    s.stopOverlay (loadRecentRtOverlayForSchedules rtTrips rtStopTimes nowUtc (first :: rest)) =
      resolveCell (recentStopRows rtStopTimes nowUtc first.trip.dataset s.trip.id) s.stop.id
        s.stopTime.stopSequence :=
  get?_stopMap_cell hs

end Load

end SimplyTransport

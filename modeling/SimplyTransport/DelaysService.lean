import SimplyTransport.RealtimeService

/-!
# Recording of delays

`due_delay_records` decides from the overlay alone which calls are recorded, without building
the models of the display path. Both paths agree on every call.
-/

namespace SimplyTransport

structure TSStopTimeModel where
  stopId : String
  routeCode : String
  scheduledTime : Time
  delayInSeconds : ℤ
  deriving DecidableEq

def dueDelayRecord (overlay : Overlay) (now : DateTime) (static : StaticScheduleModel) :
    Option TSStopTimeModel :=
  if (static.rtTrip overlay).any (fun r => r.isRemoved) then none else
  match static.stopOverlay overlay with
  | none => none
  | some o =>
    if o.exactMatch ∧ o.row.scheduleRelationship = ScheduleRelationship.skipped.value then none
    else
      let delayInSeconds := delaySeconds o.row
      let arrival := realArrivalTime static.stopTime.arrivalTime delayInSeconds now
      if ¬ isDueArrival arrival now then none else
      some ⟨static.stop.id, static.route.shortName, static.stopTime.arrivalTime, delayInSeconds⟩

def dueDelayRecords (schedules : List StaticScheduleModel) (overlay : Overlay) (now : DateTime) :
    List TSStopTimeModel :=
  schedules.filterMap (dueDelayRecord overlay now)

def RealtimeScheduleModel.record (r : RealtimeScheduleModel) : TSStopTimeModel :=
  ⟨r.staticSchedule.stop.id, r.staticSchedule.route.shortName,
    r.staticSchedule.stopTime.arrivalTime, r.delayInSeconds⟩

/-- The calls of the display path that are due, have an update and are not skipped. -/
def displayedRecords (schedules : List StaticScheduleModel) (overlay : Overlay) (now : DateTime) :
    List TSStopTimeModel :=
  ((filterToOnlySchedulesWithUpdates (filterToOnlyDueSchedules
    (realtimeSchedules overlay now schedules))).filter
      (fun r => r.onTimeStatus ≠ .skipped)).map (fun r => r.record)

def RealtimeScheduleModel.isRecorded (r : RealtimeScheduleModel) : Bool :=
  r.isDue ∧ r.onTimeStatus ≠ .unknown ∧ r.onTimeStatus ≠ .skipped

theorem displayedRecords_eq (schedules : List StaticScheduleModel) (overlay : Overlay)
    (now : DateTime) :
    displayedRecords schedules overlay now =
      ((realtimeSchedules overlay now schedules).filter (fun r => r.isRecorded)).map
        (fun r => r.record) := by
  simp only [displayedRecords, filterToOnlySchedulesWithUpdates, filterToOnlyDueSchedules,
    List.filter_filter]
  congr 2
  funext r
  simp only [RealtimeScheduleModel.isRecorded, Bool.decide_and, Bool.decide_eq_true]
  ac_rfl

theorem withDelay_isRecorded (static : StaticScheduleModel) (row : RTStopTimeModel)
    (rtTrip : Option RTTripModel) (exact : Bool) (now : DateTime) :
    (RealtimeScheduleModel.withDelay static row rtTrip exact now).isRecorded =
      isDueArrival (realArrivalTime static.stopTime.arrivalTime (delaySeconds row) now) now := by
  have hstatus := onTimeStatusOf_cases
    (realArrivalTime static.stopTime.arrivalTime (delaySeconds row) now)
    static.stopTime.arrivalTime now
  simp only [RealtimeScheduleModel.isRecorded, RealtimeScheduleModel.withDelay]
  rcases hstatus with h | h | h <;> simp [h]

/-- A call is recorded exactly where the display path keeps its model. -/
theorem dueDelayRecord_eq (overlay : Overlay) (now : DateTime) (static : StaticScheduleModel) :
    dueDelayRecord overlay now static =
      if (realtimeScheduleFor overlay now static).isRecorded then
        some (realtimeScheduleFor overlay now static).record
      else none := by
  unfold dueDelayRecord
  cases h : (static.rtTrip overlay).any (fun r => r.isRemoved) with
  | true =>
      rw [realtimeScheduleFor_removed h]
      simp [RealtimeScheduleModel.isRecorded, RealtimeScheduleModel.asScheduled]
  | false =>
      cases hs : static.stopOverlay overlay with
      | none =>
          rw [realtimeScheduleFor_none h hs]
          simp [RealtimeScheduleModel.isRecorded, RealtimeScheduleModel.asScheduled]
      | some o =>
          rw [realtimeScheduleFor_some h hs]
          by_cases hskip : o.exactMatch ∧
              o.row.scheduleRelationship = ScheduleRelationship.skipped.value
          · simp only [if_pos hskip]
            simp [RealtimeScheduleModel.isRecorded, RealtimeScheduleModel.asScheduled]
          · simp only [if_neg hskip, withDelay_isRecorded]
            cases isDueArrival _ now <;> rfl

/-- The recorded delays are, in order, the due and updated calls of the display path that are
not skipped, with the delay it shows. -/
theorem due_delay_records_eq_displayed (schedules : List StaticScheduleModel) (overlay : Overlay)
    (now : DateTime) :
    dueDelayRecords schedules overlay now = displayedRecords schedules overlay now := by
  rw [displayedRecords_eq, realtimeSchedules, dueDelayRecords]
  induction schedules with
  | nil => rfl
  | cons static schedules ih =>
      rw [List.filterMap_cons, List.map_cons, List.filter_cons, dueDelayRecord_eq]
      split_ifs with hrec
      · rw [List.map_cons, ih]
      · exact ih

end SimplyTransport

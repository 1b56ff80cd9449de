import SimplyTransport.RealtimeService
import SimplyTransport.ScheduleService

/-!
# The live timetables of a stop

The table of the stop page, for the window around the present, and the endpoint that takes a
window and a weekday. All readings of the clock within one request give the same instant.
-/

namespace SimplyTransport

structure StopRealtimeTable where
  stopId : String
  currentTime : DateTime
  realtimeSchedules : List RealtimeScheduleModel
  startTimeDifference : ℤ
  endTimeDifference : ℤ
  hasExtraService : Bool

structure ValidationException where
  detail : String
  extra : Option (Time × Time × ℤ)

section Request

variable (db : StaticDatabase) (rtTrips : List RTTripModel) (rtStopTimes : List RTStopTimeModel)
  (nowUtc now : DateTime)

def liveSchedules (stopId : String) (day : DayOfWeek) (onDate : Date) (startTime endTime : Time) :
    List RealtimeScheduleModel :=
  let schedules := getScheduleOnStopForDayBetweenTimes db stopId day startTime endTime
  let schedules := removeExceptionsAndInactiveCalendars db schedules onDate
  let schedules := addInAddedExceptions db schedules onDate
    ⟨some stopId, some startTime, some endTime, none⟩
  let schedules := applyCustom2300Sorting (fun s => s.stopTime.arrivalTime) schedules
  applyCustom2300Sorting (fun r => r.realArrivalTime)
    (getRealtimeSchedulesForStaticSchedules rtTrips rtStopTimes nowUtc now schedules)

/-- The table of a stop, or `none` where the stop is not found. -/
def realtimeStopTable (stopId : String) : Option StopRealtimeTable :=
  if stopId ∉ db.stops.map (fun s => s.id) then none else
  let startTimeDifference := -10
  let endTimeDifference := 60
  let startTime := (now.addMinutes startTimeDifference).time
  let endTime := (now.addMinutes endTimeDifference).time
  let onDate := now.date
  let realtimeSchedules := liveSchedules db rtTrips rtStopTimes nowUtc now stopId
    (DayOfWeek.ofDate now.date) onDate startTime endTime
  some {
    stopId := stopId
    currentTime := now
    realtimeSchedules := realtimeSchedules
    startTimeDifference := startTimeDifference
    endTimeDifference := endTimeDifference
    hasExtraService := realtimeSchedules.any (fun r => r.staticSchedule.isAddedException) }

def getRealtimeScheduleByStopId (stopId : String) (startTime endTime : Option Time)
    (day : Option DayOfWeek) : Except ValidationException (List RealtimeScheduleModel) :=
  let startTime := startTime.getD (now.addMinutes (-10)).time
  let endTime := endTime.getD (now.addMinutes 60).time
  let domainDay := day.getD (DayOfWeek.ofDate now.date)
  if startTime = endTime then
    .error ⟨"Start time cannot be equal to end time", none⟩
  else
    let maxHoursApart : ℤ := 4
    let difference := returnTimeDifference startTime endTime
    if difference > maxHoursApart then
      .error ⟨"The difference of hours between start and end time must be at most " ++
        toString maxHoursApart ++ " hours", some (startTime, endTime, difference)⟩
    else
      let onDate := nextDateForDay domainDay.value now.date
      .ok (liveSchedules db rtTrips rtStopTimes nowUtc now stopId domainDay onDate startTime
        endTime)

end Request

variable {db : StaticDatabase} {rtTrips : List RTTripModel} {rtStopTimes : List RTStopTimeModel}
  {nowUtc now : DateTime}

def schedulesInOrder (db : StaticDatabase) (stopId : String) (day : DayOfWeek) (onDate : Date)
    (startTime endTime : Time) : List StaticScheduleModel :=
  applyCustom2300Sorting (fun s => s.stopTime.arrivalTime) (schedulesOnDate db day onDate
    ⟨some stopId, some startTime, some endTime, none⟩)

theorem getRealtimeSchedules_eq (schedules : List StaticScheduleModel) :
    getRealtimeSchedulesForStaticSchedules rtTrips rtStopTimes nowUtc now schedules =
      realtimeSchedules (loadRecentRtOverlayForSchedules rtTrips rtStopTimes nowUtc schedules) now
        schedules := by
  cases schedules <;> rfl

theorem liveSchedules_perm (stopId : String) (day : DayOfWeek) (onDate : Date)
    (startTime endTime : Time) :
    let schedules := schedulesInOrder db stopId day onDate startTime endTime
    (liveSchedules db rtTrips rtStopTimes nowUtc now stopId day onDate startTime endTime).Perm
      (realtimeSchedules (loadRecentRtOverlayForSchedules rtTrips rtStopTimes nowUtc schedules)
        now schedules) := by
  intro schedules
  rw [← getRealtimeSchedules_eq]
  exact applyCustom2300Sorting_perm _ _

/-- The timetable rows of a request are the schedules of its date. -/
theorem liveSchedules_staticSchedule_perm (stopId : String) (day : DayOfWeek) (onDate : Date)
    (startTime endTime : Time) :
    ((liveSchedules db rtTrips rtStopTimes nowUtc now stopId day onDate startTime endTime).map
      (fun r => r.staticSchedule)).Perm
        (schedulesOnDate db day onDate ⟨some stopId, some startTime, some endTime, none⟩) := by
  refine ((liveSchedules_perm stopId day onDate startTime endTime).map _).trans ?_
  rw [realtimeSchedules, List.map_map]
  simp only [Function.comp_def, realtimeScheduleFor_staticSchedule, List.map_id']
  exact applyCustom2300Sorting_perm _ _

/-- A returned row carries what the recent rows of its trip give to it, read from the dataset of
some trip of the database. -/
theorem mem_liveSchedules {stopId : String} {day : DayOfWeek} {onDate : Date}
    {startTime endTime : Time} {m : RealtimeScheduleModel}
    (hm : m ∈ liveSchedules db rtTrips rtStopTimes nowUtc now stopId day onDate startTime endTime) :
    ∃ t ∈ db.trips,
      m.rtTrip = newestTripRow (recentTripRows rtTrips nowUtc t.dataset m.staticSchedule.trip.id) ∧
      m.rtStopTime = if m.rtTrip.any (fun r => r.isRemoved) then none
        else (resolveCell (recentStopRows rtStopTimes nowUtc t.dataset m.staticSchedule.trip.id)
          m.staticSchedule.stop.id m.staticSchedule.stopTime.stopSequence).map (fun o => o.row) := by
  have hm' := (liveSchedules_perm stopId day onDate startTime endTime).mem_iff.1 hm
  obtain ⟨s, hs, rfl⟩ := List.mem_map.1 hm'
  have htrips : ∀ s ∈ schedulesInOrder db stopId day onDate startTime endTime,
      s.trip ∈ db.trips :=
    fun s hs => trip_mem_of_schedulesOnDate ((applyCustom2300Sorting_perm _ _).mem_iff.1 hs)
  cases hrows : schedulesInOrder db stopId day onDate startTime endTime with
  | nil =>
      rw [hrows] at hs
      exact absurd hs List.not_mem_nil
  | cons first rest =>
      rw [hrows] at hs htrips
      refine ⟨first.trip, htrips first List.mem_cons_self, ?_, ?_⟩
      · rw [realtimeScheduleFor_rtTrip, realtimeScheduleFor_staticSchedule, rtTrip_load hs]
      · rw [realtimeScheduleFor_rtStopTime, realtimeScheduleFor_rtTrip,
          realtimeScheduleFor_staticSchedule, stopOverlay_load hs]

theorem DayOfWeek.eq_ofDate {day : DayOfWeek} {onDate : Date} (h : onDate.weekday = day.value) :
    day = DayOfWeek.ofDate onDate :=
  DayOfWeek.value_injective (h.symm.trans (DayOfWeek.value_ofDate onDate).symm)

theorem DayOfWeek.value_bounds (day : DayOfWeek) : 0 ≤ day.value ∧ day.value < 7 := by
  cases day <;> decide

theorem DayOfWeek.ofDate_nextDateForDay (day : DayOfWeek) (start : Date) :
    day = DayOfWeek.ofDate (nextDateForDay day.value start) :=
  DayOfWeek.eq_ofDate (nextDateForDay_weekday day.value_bounds start)

/-- What an accepted request returns. -/
theorem getRealtimeScheduleByStopId_ok {stopId : String} {startTime endTime : Option Time}
    {day : Option DayOfWeek} {models : List RealtimeScheduleModel}
    (h : getRealtimeScheduleByStopId db rtTrips rtStopTimes nowUtc now stopId startTime endTime
      day = .ok models) :
    ∃ startTime' endTime', models = liveSchedules db rtTrips rtStopTimes nowUtc now stopId
      (day.getD (DayOfWeek.ofDate now.date))
      (nextDateForDay (day.getD (DayOfWeek.ofDate now.date)).value now.date) startTime' endTime' := by
  simp only [getRealtimeScheduleByStopId] at h
  split_ifs at h
  exact ⟨_, _, (Except.ok.inj h).symm⟩

end SimplyTransport

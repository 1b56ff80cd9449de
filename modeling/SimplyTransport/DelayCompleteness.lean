import SimplyTransport.DelayRecording
import SimplyTransport.ServiceDay
import SimplyTransport.TripInstance
import SimplyTransport.WrappedMinutes
import Mathlib.Data.List.Dedup
import Mathlib.Tactic.Linarith

/-!
# Completeness of the recording of delays

A run records a call in the minute after its real arrival, among the calls scheduled at most
twenty minutes from the run whose service runs on the date of the run. Runs that are a minute
apart at most cannot step over that minute, except by a run at each of its ends.
-/

namespace SimplyTransport

/-- What a run reads: `nowUtc` and `now` are one instant, for the database and on the wall. -/
structure RecordingRun where
  db : StaticDatabase
  rtTrips : List RTTripModel
  rtStopTimes : List RTStopTimeModel
  nowUtc : DateTime
  now : DateTime

def getDistinctRealtimeTrips (rtTrips : List RTTripModel) : List String :=
  (rtTrips.map (fun r => r.tripId)).dedup

def getAllScheduleForDayBetweenTimes (db : StaticDatabase) (day : DayOfWeek)
    (startTime endTime : Time) (trips : List String) : List StaticScheduleModel :=
  getStaticSchedules db day ⟨none, some startTime, some endTime, some trips⟩

namespace RecordingRun

def schedules (run : RecordingRun) : List StaticScheduleModel :=
  let currentDay := DayOfWeek.ofDate run.now.date
  let startTime := (run.now.addMinutes (-20)).time
  let endTime := (run.now.addMinutes 20).time
  let realtimeTripIds := getDistinctRealtimeTrips run.rtTrips
  let schedules :=
    getAllScheduleForDayBetweenTimes run.db currentDay startTime endTime realtimeTripIds
  let onDate := run.now.date
  let schedules := removeExceptionsAndInactiveCalendars run.db schedules onDate
  addInAddedExceptions run.db schedules onDate
    ⟨none, some startTime, some endTime, some realtimeTripIds⟩

def objectsToCommit (run : RecordingRun) : List TSStopTimeModel :=
  let overlay :=
    loadRecentRtOverlayForSchedules run.rtTrips run.rtStopTimes run.nowUtc run.schedules
  dueDelayRecords run.schedules overlay run.now

/-- The trip of the schedule has a fresh update that is not removed, and the call has one that
is not skipped, with the delay. -/
def KeepsDelay (run : RecordingRun) (s : StaticScheduleModel) (d : ℤ) : Prop :=
  (∃ r, newestTripRow (recentTripRows run.rtTrips run.nowUtc s.trip.dataset s.trip.id) = some r ∧
    r.isRemoved = false) ∧
  ∃ o, resolveCell (recentStopRows run.rtStopTimes run.nowUtc s.trip.dataset s.trip.id) s.stop.id
      s.stopTime.stopSequence = some o ∧
    ¬ (o.exactMatch ∧ o.row.scheduleRelationship = ScheduleRelationship.skipped.value) ∧
    delaySeconds o.row = d

def Serves (run : RecordingRun) (s : StaticScheduleModel) (date : Date) : Prop :=
  run.db.Joined s ∧ (s.calendar.RegularOn run.db date ∨ s.calendar.AddedOn run.db date)

end RecordingRun

def arrivalInstant (s : StaticScheduleModel) (date : Date) (d : ℤ) : DateTime :=
  (DateTime.combine date s.stopTime.arrivalTime).addSeconds d

/-- Later by a minute at most, and not from the one end of the minute after `arrival` to the
other. -/
def RecordingRun.Follows (arrival : DateTime) (run run' : RecordingRun) : Prop :=
  run.now ≤ run'.now ∧ run'.now ≤ run.now.addSeconds 60 ∧
    ¬ (run.now = arrival ∧ run'.now = arrival.addSeconds 60)

section Instants

variable {arrival now : DateTime}

theorem realArrivalTime_eq (s : StaticScheduleModel) (date : Date) (d : ℤ) (now : DateTime) :
    realArrivalTime s.stopTime.arrivalTime d now = (arrivalInstant s date d).time :=
  realArrivalTime_eq_time s.stopTime.arrivalTime d now date

/-- The wrapping knows both sides of a midnight in the minute after an instant. -/
theorem wrapsFrom_of_minute (hlt : arrival < now) (hwithin : now < arrival.addSeconds 60) :
    WrapsFrom now arrival := by
  have hearlier := arrival.date_micros_add_time_micros
  have hlater := now.date_micros_add_time_micros
  have harrival := arrival.time.lt_day
  have hnow := now.time.lt_day
  simp only [DateTime.lt_iff, DateTime.addSeconds, DateTime.addMicros] at hlt hwithin
  simp only [WrapsFrom, Date.ext_iff, Date.addDays, hour_zero_iff, hour_twentyThree_iff]
  unfold dayMicros at hearlier hlater harrival hnow
  omega

/-- In the minute after an instant, the wrapped difference to its time of day is the real one. -/
theorem minutesUntilArrival_time (hlt : arrival < now) (hwithin : now < arrival.addSeconds 60) :
    minutesUntilArrival arrival.time now =
      ((arrival.micros - now.micros : ℤ) : ℚ) / 60000000 := by
  have hwraps := wrapsFrom_of_minute hlt hwithin
  simp only [DateTime.lt_iff, DateTime.addSeconds, DateTime.addMicros] at hlt hwithin
  have hlo : -79200000000 < arrival.sub now := by
    unfold DateTime.sub
    omega
  have hhi : arrival.sub now < 79200000000 := by
    unfold DateTime.sub
    omega
  rw [minutesUntilArrival, wrappedMinutes_combine hlo hhi, if_pos hwraps]
  rfl

theorem isDueArrival_of_minute (hlt : arrival < now) (hwithin : now < arrival.addSeconds 60) :
    isDueArrival arrival.time now = true := by
  rw [isDueArrival, decide_eq_true_eq, minutesUntilArrival_time hlt hwithin]
  simp only [DateTime.lt_iff, DateTime.addSeconds, DateTime.addMicros] at hlt hwithin
  have hneg : ((arrival.micros - now.micros : ℤ) : ℚ) < 0 := by
    exact_mod_cast sub_neg_of_lt hlt
  have hgt : (-60000000 : ℚ) < ((arrival.micros - now.micros : ℤ) : ℚ) := by
    exact_mod_cast (by omega : (-60000000 : ℤ) < arrival.micros - now.micros)
  constructor <;> linarith

/-- Runs that follow each other reach the open minute after an instant that they pass. -/
theorem exists_run_in_minute {run : RecordingRun} {runs : List RecordingRun}
    (hchain : (run :: runs).IsChain (RecordingRun.Follows arrival)) (hfirst : run.now ≤ arrival)
    (hlast : arrival < ((run :: runs).getLast (List.cons_ne_nil _ _)).now) :
    ∃ r ∈ run :: runs, arrival < r.now ∧ r.now < arrival.addSeconds 60 := by
  induction runs generalizing run with
  | nil => exact absurd hlast (not_lt_of_ge hfirst)
  | cons run' runs ih =>
      rw [List.isChain_cons_cons] at hchain
      obtain ⟨⟨_, hgap, hends⟩, hchain⟩ := hchain
      by_cases hpassed : run'.now ≤ arrival
      · obtain ⟨r, hr, hin⟩ := ih hchain hpassed hlast
        exact ⟨r, List.mem_cons_of_mem _ hr, hin⟩
      · refine ⟨run', List.mem_cons_of_mem _ List.mem_cons_self, not_le.1 hpassed, ?_⟩
        simp only [DateTime.ext_iff, DateTime.le_iff, DateTime.lt_iff, DateTime.addSeconds,
          DateTime.addMicros] at hgap hends hfirst ⊢
        omega

end Instants

section Record

variable {run : RecordingRun} {s : StaticScheduleModel} {date : Date} {d : ℤ}

def RecordingRun.conditions (run : RecordingRun) : ScheduleConditions :=
  ⟨none, some (run.now.addMinutes (-20)).time, some (run.now.addMinutes 20).time,
    some (getDistinctRealtimeTrips run.rtTrips)⟩

theorem RecordingRun.schedules_eq (run : RecordingRun) :
    run.schedules =
      schedulesOnDate run.db (DayOfWeek.ofDate run.now.date) run.now.date run.conditions := rfl

/-- A schedule of a trip with updates that is scheduled at most twenty minutes from the run. -/
theorem RecordingRun.hold_conditions (htrip : ∃ r ∈ run.rtTrips, r.tripId = s.trip.id)
    (date : Date)
    (hleft : run.now.addMinutes (-20) ≤ DateTime.combine date s.stopTime.arrivalTime)
    (hright : DateTime.combine date s.stopTime.arrivalTime ≤ run.now.addMinutes 20) :
    run.conditions.hold s = true := by
  have hids : s.trip.id ∈ getDistinctRealtimeTrips run.rtTrips := by
    obtain ⟨r, hr, hid⟩ := htrip
    rw [getDistinctRealtimeTrips, List.mem_dedup, ← hid]
    exact List.mem_map_of_mem hr
  have htime := (arrivalTimeConditions_window_iff run.now (by decide) (by decide) s.stopTime).2
    ⟨date, hleft, hright⟩
  have hne : getDistinctRealtimeTrips run.rtTrips ≠ [] := List.ne_nil_of_mem hids
  simp [ScheduleConditions.hold, RecordingRun.conditions, hids, hne, htime]

/-- A row that matches and whose service runs is listed, as regular or as added service: no
regular row of its trip can take its place. -/
theorem mem_schedulesOnDate_of_runs {db : StaticDatabase} {q : ScheduleConditions}
    (hjoin : db.Joined s) (hq : q.hold s = true)
    (hruns : s.calendar.RegularOn db date ∨ s.calendar.AddedOn db date) :
    ∃ b, { s with isAddedException := b } ∈
      schedulesOnDate db (DayOfWeek.ofDate date) date q := by
  by_cases hregular : s.calendar.RegularOn db date
  · refine ⟨false, ?_⟩
    rw [schedulesOnDate, mem_addInAddedExceptions, ← hjoin.isAddedException]
    exact Or.inl ((mem_regular rfl).2 ⟨hjoin, hq, hregular⟩)
  · refine ⟨true, ?_⟩
    rw [schedulesOnDate, mem_addInAddedExceptions]
    refine Or.inr ⟨s, hjoin, hq, hruns.resolve_left hregular, fun hkey => ?_, rfl⟩
    obtain ⟨s', hs', hkey⟩ := List.mem_map.1 hkey
    obtain ⟨hjoin', _, hregular'⟩ := (mem_regular rfl).1 hs'
    have htrip : s'.trip = s.trip := List.inj_on_of_nodup_map db.trips_nodup hjoin'.trip.1
      hjoin.trip.1 (congrArg Prod.fst hkey)
    have hcalendar : s'.calendar = s.calendar := List.inj_on_of_nodup_map db.calendars_nodup
      hjoin'.calendar.1 hjoin.calendar.1 (by rw [hjoin'.calendar.2, hjoin.calendar.2, htrip])
    exact hregular (hcalendar ▸ hregular')

/-- The record of a schedule that is listed and keeps its delay, in the minute after its
arrival. -/
theorem dueDelayRecord_of_keepsDelay {first : StaticScheduleModel}
    {rest : List StaticScheduleModel} {b : Bool}
    (hmem : { s with isAddedException := b } ∈ first :: rest)
    (hdataset : first.trip.dataset = s.trip.dataset) (hkeeps : run.KeepsDelay s d)
    (hdue : isDueArrival (arrivalInstant s date d).time run.now = true) :
    dueDelayRecord (loadRecentRtOverlayForSchedules run.rtTrips run.rtStopTimes run.nowUtc
        (first :: rest)) run.now { s with isAddedException := b } =
      some ⟨s.stop.id, s.route.shortName, s.stopTime.arrivalTime, d⟩ := by
  obtain ⟨⟨r, hr, hremoved⟩, o, ho, hskipped, hdelay⟩ := hkeeps
  have hdue' : isDueArrival (realArrivalTime s.stopTime.arrivalTime d run.now) run.now = true := by
    rw [realArrivalTime_eq s date d]
    exact hdue
  rw [dueDelayRecord, rtTrip_load hmem, stopOverlay_load hmem, hdataset]
  dsimp only
  rw [hr, ho]
  simp only [Option.any_some, hremoved, Bool.false_eq_true, if_false, if_neg hskipped, hdelay,
    hdue', not_true_eq_false]

/-- A run in the minute after the arrival records the call. -/
theorem RecordingRun.mem_objectsToCommit (hd : -1200 ≤ d ∧ d ≤ 1140)
    (hlt : arrivalInstant s date d < run.now)
    (hwithin : run.now < (arrivalInstant s date d).addSeconds 60)
    (hserves : run.Serves s run.now.date) (hkeeps : run.KeepsDelay s d)
    (hdataset : ∀ first ∈ run.schedules.head?, first.trip.dataset = s.trip.dataset) :
    ⟨s.stop.id, s.route.shortName, s.stopTime.arrivalTime, d⟩ ∈ run.objectsToCommit := by
  have hdue := isDueArrival_of_minute hlt hwithin
  have htrip : ∃ r ∈ run.rtTrips, r.tripId = s.trip.id := by
    obtain ⟨⟨r, hr, _⟩, _⟩ := hkeeps
    have hmem := List.mem_filter.1 (List.argmax_mem hr)
    exact ⟨r, hmem.1, (of_decide_eq_true hmem.2).1⟩
  have hhold : run.conditions.hold s = true := by
    apply RecordingRun.hold_conditions htrip date
    all_goals
      simp only [DateTime.le_iff, DateTime.lt_iff, DateTime.addMinutes, DateTime.addSeconds,
        DateTime.addMicros, arrivalInstant] at hlt hwithin ⊢
      omega
  obtain ⟨b, hmem⟩ := mem_schedulesOnDate_of_runs hserves.1 hhold hserves.2
  rw [← run.schedules_eq] at hmem
  rw [RecordingRun.objectsToCommit, dueDelayRecords, List.mem_filterMap]
  cases hrows : run.schedules with
  | nil =>
      rw [hrows] at hmem
      exact absurd hmem List.not_mem_nil
  | cons first rest =>
      rw [hrows] at hmem hdataset
      exact ⟨_, hmem, dueDelayRecord_of_keepsDelay hmem (hdataset first rfl) hkeeps hdue⟩

/-- Only calls that are scheduled at most twenty minutes from the run are recorded. -/
theorem RecordingRun.scheduled_of_mem {row : TSStopTimeModel} (hu : UniqueCalls run.db)
    (h : row ∈ run.objectsToCommit) :
    ∃ st ∈ run.db.stopTimes, arrivalTimeConditions (some (run.now.addMinutes (-20)).time)
      (some (run.now.addMinutes 20).time) st = true := by
  rw [RecordingRun.objectsToCommit, dueDelayRecords, List.mem_filterMap] at h
  obtain ⟨s, hs, _⟩ := h
  rw [run.schedules_eq] at hs
  obtain ⟨hjoin, hhold, _⟩ := (mem_schedulesOnDate hu rfl).1 hs
  rw [ScheduleConditions.hold, decide_eq_true_eq] at hhold
  exact ⟨s.stopTime, hjoin.stopTime, hhold.2.2⟩

end Record

/-- Runs that follow each other and pass the arrival of a call with a delay from -20 to 19
minutes find it due, where its service runs on the date of the run and the run reads the updates
of its dataset. -/
theorem delay_recording_complete (s : StaticScheduleModel) (date : Date) (d : ℤ)
    (run : RecordingRun) (runs : List RecordingRun)
    (hchain : (run :: runs).IsChain (RecordingRun.Follows (arrivalInstant s date d)))
    (hfirst : run.now < arrivalInstant s date d)
    (hlast : arrivalInstant s date d < ((run :: runs).getLast (List.cons_ne_nil _ _)).now)
    (hd : -1200 ≤ d ∧ d ≤ 1140)
    (hruns : ∀ r ∈ run :: runs, arrivalInstant s date d < r.now →
      r.now < (arrivalInstant s date d).addSeconds 60 →
      r.Serves s r.now.date ∧ r.KeepsDelay s d ∧
        ∀ first ∈ r.schedules.head?, first.trip.dataset = s.trip.dataset) :
    ∃ r ∈ run :: runs, ∃ row ∈ r.objectsToCommit,
      row = ⟨s.stop.id, s.route.shortName, s.stopTime.arrivalTime, d⟩ ∧
      ∀ state : DelayRecording.State, row ∈ state.newRows r.objectsToCommit ∨
        state.keyExists (DelayRecording.callKey (DelayRecording.call row)) = true := by
  obtain ⟨r, hr, hlt, hwithin⟩ := exists_run_in_minute hchain hfirst.le hlast
  obtain ⟨hserves, hkeeps, hdataset⟩ := hruns r hr hlt hwithin
  have hmem := RecordingRun.mem_objectsToCommit hd hlt hwithin hserves hkeeps hdataset
  refine ⟨r, hr, _, hmem, rfl, fun state => ?_⟩
  rw [DelayRecording.State.newRows, List.mem_filter, and_iff_right hmem, decide_eq_true_eq]
  exact (em _).symm

def delayedRun (delay : ℤ) (now : DateTime) : RecordingRun where
  db := oneTripDatabase
  rtTrips := [snapshotTrip 1 "T" "R1" "SCHEDULED" "TFI" now]
  rtStopTimes := [{
    stopId := "S"
    tripId := "T"
    stopSequence := 1
    scheduleRelationship := "SCHEDULED"
    arrivalDelay := some delay
    departureDelay := some delay
    entityId := ""
    dataset := "TFI"
    createdAt := now
    id := 1 }]
  nowUtc := now
  now := now

theorem delayedRun_serves (delay : ℤ) (now : DateTime) :
    (delayedRun delay now).Serves (timetableRow "T" "TFI" "S" 1 Time.midnight) ⟨739005⟩ := by
  refine ⟨⟨?_, ⟨?_, rfl⟩, ⟨?_, rfl⟩, ⟨?_, rfl⟩, ⟨?_, rfl⟩, rfl⟩, Or.inl ⟨by decide, nofun⟩⟩ <;>
    exact List.mem_cons_self

theorem delayedRun_keepsDelay (delay : ℤ) (now : DateTime) :
    (delayedRun delay now).KeepsDelay (timetableRow "T" "TFI" "S" 1 Time.midnight) delay := by
  have hfresh := thirtyMinsAgo_le now
  have htrips : recentTripRows (delayedRun delay now).rtTrips now "TFI" "T" =
      (delayedRun delay now).rtTrips := by
    simp [recentTripRows, delayedRun, snapshotTrip, hfresh]
  have hstops : recentStopRows (delayedRun delay now).rtStopTimes now "TFI" "T" =
      (delayedRun delay now).rtStopTimes := by
    simp [recentStopRows, delayedRun, hfresh]
  refine ⟨⟨_, (congrArg newestTripRow htrips).trans rfl, rfl⟩, _,
    (congrArg (fun rows => resolveCell rows "S" 1) hstops).trans rfl, ?_, max_self delay⟩
  have hscheduled : "SCHEDULED" ≠ ScheduleRelationship.skipped.value := by decide
  exact fun hskipped => hscheduled hskipped.2

theorem delay_recording_complete_five_minutes :
    ∃ r ∈ [delayedRun 300 (mondayMidnight.addSeconds 270),
        delayedRun 300 (mondayMidnight.addSeconds 330)],
      ∃ row ∈ r.objectsToCommit, row = ⟨"S", "15", Time.midnight, 300⟩ ∧
        ∀ state : DelayRecording.State, row ∈ state.newRows r.objectsToCommit ∨
          state.keyExists (DelayRecording.callKey (DelayRecording.call row)) = true := by
  have hall : ∀ r ∈ [delayedRun 300 (mondayMidnight.addSeconds 270),
      delayedRun 300 (mondayMidnight.addSeconds 330)],
      r.Serves (timetableRow "T" "TFI" "S" 1 Time.midnight) r.now.date ∧
      r.KeepsDelay (timetableRow "T" "TFI" "S" 1 Time.midnight) 300 ∧
      ∀ first ∈ r.schedules.head?, first.trip.dataset = "TFI" := by
    intro r hr
    obtain ⟨now, rfl, hdate⟩ : ∃ now, r = delayedRun 300 now ∧ now.date = ⟨739005⟩ := by
      rcases List.mem_pair.1 hr with rfl | rfl
      · exact ⟨_, rfl, by decide⟩
      · exact ⟨_, rfl, by decide⟩
    refine ⟨?_, delayedRun_keepsDelay 300 now, fun first hfirst => ?_⟩
    · change RecordingRun.Serves _ _ now.date
      rw [hdate]
      exact delayedRun_serves 300 now
    · have htrip : first.trip ∈ oneTripDatabase.trips :=
        trip_mem_of_schedulesOnDate (List.mem_of_mem_head? hfirst)
      rw [List.mem_singleton.1 htrip]
      rfl
  exact delay_recording_complete (timetableRow "T" "TFI" "S" 1 Time.midnight) ⟨739005⟩ 300 _ _
    (.cons_cons ⟨by decide, by decide, by decide⟩ (.singleton _)) (by decide) (by decide) (by decide)
    (fun r hr _ _ => hall r hr)

/-- A call half an hour late is out of the window of every run when it arrives. -/
theorem delay_recording_misses_late :
    ¬ ∀ (s : StaticScheduleModel) (date : Date) (d : ℤ) (run : RecordingRun)
      (runs : List RecordingRun), |d| < 43200 →
      (run :: runs).IsChain (fun r r' => r.now ≤ r'.now ∧ r'.now ≤ r.now.addSeconds 60) →
      run.now < arrivalInstant s date d →
      arrivalInstant s date d < ((run :: runs).getLast (List.cons_ne_nil _ _)).now →
      (∀ r ∈ run :: runs, UniqueCalls r.db ∧ (∀ t ∈ r.db.trips, t.dataset = s.trip.dataset) ∧
        r.Serves s date ∧ r.KeepsDelay s d) →
      ∃ r ∈ run :: runs,
        ⟨s.stop.id, s.route.shortName, s.stopTime.arrivalTime, d⟩ ∈ r.objectsToCommit := by
  intro h
  have hu : UniqueCalls oneTripDatabase := by decide
  have hall : ∀ r ∈ [delayedRun 1800 (mondayMidnight.addSeconds 1770),
      delayedRun 1800 (mondayMidnight.addSeconds 1830)],
      UniqueCalls r.db ∧ (∀ t ∈ r.db.trips, t.dataset = "TFI") ∧
        r.Serves (timetableRow "T" "TFI" "S" 1 Time.midnight) ⟨739005⟩ ∧
        r.KeepsDelay (timetableRow "T" "TFI" "S" 1 Time.midnight) 1800 := by
    intro r hr
    obtain ⟨now, rfl⟩ : ∃ now, r = delayedRun 1800 now := by
      rcases List.mem_pair.1 hr with rfl | rfl
      · exact ⟨_, rfl⟩
      · exact ⟨_, rfl⟩
    refine ⟨hu, fun t ht => ?_, delayedRun_serves 1800 now, delayedRun_keepsDelay 1800 now⟩
    rw [List.mem_singleton.1 ht]
    rfl
  obtain ⟨r, hr, hmem⟩ := h (timetableRow "T" "TFI" "S" 1 Time.midnight) ⟨739005⟩ 1800 _ _
    (by decide) (.cons_cons ⟨by decide, by decide⟩ (.singleton _)) (by decide) (by decide) hall
  rcases List.mem_pair.1 hr with rfl | rfl
  · obtain ⟨st, hst, htime⟩ := RecordingRun.scheduled_of_mem hu hmem
    rw [List.mem_singleton.1 hst] at htime
    exact absurd htime (by decide)
  · obtain ⟨st, hst, htime⟩ := RecordingRun.scheduled_of_mem hu hmem
    rw [List.mem_singleton.1 hst] at htime
    exact absurd htime (by decide)

end SimplyTransport

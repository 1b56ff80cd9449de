import SimplyTransport.Joins
import SimplyTransport.StaticTables
import Mathlib.Tactic.IntervalCases

/-!
# The schedule repository

Both queries join each stop time with its trip, stop, route and calendar, filter the joined rows
and order them by arrival time. The keys are unique, so a stop time joins at most once.
-/

namespace SimplyTransport

inductive DayOfWeek
  | monday
  | tuesday
  | wednesday
  | thursday
  | friday
  | saturday
  | sunday
  deriving DecidableEq

def DayOfWeek.value : DayOfWeek → ℤ
  | .monday => 0
  | .tuesday => 1
  | .wednesday => 2
  | .thursday => 3
  | .friday => 4
  | .saturday => 5
  | .sunday => 6

def DayOfWeek.ofDate (d : Date) : DayOfWeek :=
  [monday, tuesday, wednesday, thursday, friday, saturday, sunday].getD d.weekday.toNat monday

def CalendarModel.flagOn (c : CalendarModel) : DayOfWeek → ℤ
  | .monday => c.monday
  | .tuesday => c.tuesday
  | .wednesday => c.wednesday
  | .thursday => c.thursday
  | .friday => c.friday
  | .saturday => c.saturday
  | .sunday => c.sunday

structure ScheduleConditions where
  stopId : Option String
  startTime : Option Time
  endTime : Option Time
  trips : Option (List String)

def arrivalTimeConditions (startTime endTime : Option Time) (s : StopTimeModel) : Bool :=
  match startTime, endTime with
  | some startTime, some endTime =>
    if startTime > endTime then s.arrivalTime ≥ startTime ∨ s.arrivalTime ≤ endTime
    else s.arrivalTime ≥ startTime ∧ s.arrivalTime ≤ endTime
  | _, _ => true

/-- A stop id or a list of trips that is empty is no condition. -/
def ScheduleConditions.hold (q : ScheduleConditions) (s : StaticScheduleModel) : Bool :=
  (q.stopId.filter (fun id => id ≠ "")).all (fun id => s.stop.id = id) ∧
    (q.trips.filter (fun ids => ids ≠ [])).all (fun ids => s.trip.id ∈ ids) ∧
    arrivalTimeConditions q.startTime q.endTime s.stopTime

def StaticDatabase.joinStopTime (db : StaticDatabase) (stopTime : StopTimeModel) :
    List StaticScheduleModel :=
  (db.trips.filter (fun t => t.id = stopTime.tripId)).flatMap (fun trip =>
    (db.stops.filter (fun s => s.id = stopTime.stopId)).flatMap (fun stop =>
      (db.routes.filter (fun r => r.id = trip.routeId)).flatMap (fun route =>
        (db.calendars.filter (fun c => c.id = trip.serviceId)).map (fun calendar =>
          ⟨route, stopTime, calendar, stop, trip, false⟩))))

def StaticDatabase.joinedRows (db : StaticDatabase) : List StaticScheduleModel :=
  db.stopTimes.flatMap db.joinStopTime

/-- Rows of one arrival time keep the order of the tables. -/
def executeStaticSchedules (db : StaticDatabase) (conditions : StaticScheduleModel → Bool) :
    List StaticScheduleModel :=
  (db.joinedRows.filter conditions).mergeSort
    (fun s s' => s.stopTime.arrivalTime ≤ s'.stopTime.arrivalTime)

def getStaticSchedules (db : StaticDatabase) (day : DayOfWeek) (q : ScheduleConditions) :
    List StaticScheduleModel :=
  executeStaticSchedules db (fun s => s.calendar.flagOn day = 1 ∧ q.hold s)

def getStaticSchedulesForServiceIds (db : StaticDatabase) (serviceIds : List String)
    (q : ScheduleConditions) : List StaticScheduleModel :=
  if serviceIds.isEmpty then []
  else executeStaticSchedules db (fun s => s.calendar.id ∈ serviceIds ∧ q.hold s)

/-- The query's condition on the arrival, wrapped at midnight, is that the clock shows the time
at some moment between two that are less than a day apart. -/
theorem arrivalTimeConditions_window_iff (now : DateTime) {a b : ℤ} (hab : a ≤ b)
    (hday : b - a < 1440) (st : StopTimeModel) :
    arrivalTimeConditions (some (now.addMinutes a).time) (some (now.addMinutes b).time) st =
      true ↔ ∃ d, now.addMinutes a ≤ DateTime.combine d st.arrivalTime ∧
        DateTime.combine d st.arrivalTime ≤ now.addMinutes b := by
  have hstart := (now.addMinutes a).time_micros
  have hend := (now.addMinutes b).time_micros
  have harrival := st.arrivalTime.lt_day
  simp only [DateTime.addMinutes, DateTime.addSeconds, DateTime.addMicros, dayMicros]
    at hstart hend harrival
  simp only [arrivalTimeConditions, DateTime.combine, DateTime.le_iff, Time.le_iff, Time.lt_iff,
    gt_iff_lt, ge_iff_le, DateTime.addMinutes, DateTime.addSeconds, DateTime.addMicros, dayMicros]
  constructor
  · intro h
    -- The time comes up on the day that the window starts on, or on the next.
    by_cases hfirst : (now.micros + a * 60 * 1000000) % 86400000000 ≤ st.arrivalTime.micros
    · refine ⟨⟨(now.micros + a * 60 * 1000000) / 86400000000⟩, ?_⟩
      dsimp only
      split_ifs at h <;> simp only [decide_eq_true_eq] at h <;> omega
    · refine ⟨⟨(now.micros + a * 60 * 1000000) / 86400000000 + 1⟩, ?_⟩
      dsimp only
      split_ifs at h <;> simp only [decide_eq_true_eq] at h <;> omega
  · rintro ⟨d, h⟩
    split_ifs <;> simp only [decide_eq_true_eq] <;> omega

theorem DayOfWeek.value_ofDate (d : Date) : (DayOfWeek.ofDate d).value = d.weekday := by
  have hw := d.weekday_lt
  unfold DayOfWeek.ofDate
  generalize d.weekday = w at hw ⊢
  obtain ⟨h₀, h₇⟩ := hw
  interval_cases w <;> rfl

theorem DayOfWeek.value_injective {day day' : DayOfWeek} (h : day.value = day'.value) :
    day = day' := by
  cases day <;> cases day' <;> first | rfl | cases h

theorem CalendarModel.flagOn_ofDate (c : CalendarModel) (d : Date) :
    c.flagOn (DayOfWeek.ofDate d) = c.weekdayFlags.getD d.weekday.toNat 0 := by
  have hw := d.weekday_lt
  unfold DayOfWeek.ofDate
  generalize d.weekday = w at hw ⊢
  obtain ⟨h₀, h₇⟩ := hw
  interval_cases w <;> rfl

/-- A joined row: each part is in its table, and refers to the next one. -/
structure StaticDatabase.Joined (db : StaticDatabase) (s : StaticScheduleModel) : Prop where
  stopTime : s.stopTime ∈ db.stopTimes
  trip : s.trip ∈ db.trips ∧ s.trip.id = s.stopTime.tripId
  stop : s.stop ∈ db.stops ∧ s.stop.id = s.stopTime.stopId
  route : s.route ∈ db.routes ∧ s.route.id = s.trip.routeId
  calendar : s.calendar ∈ db.calendars ∧ s.calendar.id = s.trip.serviceId
  isAddedException : s.isAddedException = false

variable {db : StaticDatabase} {s : StaticScheduleModel}

theorem mem_joinStopTime {stopTime : StopTimeModel} :
    s ∈ db.joinStopTime stopTime ↔ s.stopTime = stopTime ∧
      (s.trip ∈ db.trips ∧ s.trip.id = stopTime.tripId) ∧
      (s.stop ∈ db.stops ∧ s.stop.id = stopTime.stopId) ∧
      (s.route ∈ db.routes ∧ s.route.id = s.trip.routeId) ∧
      (s.calendar ∈ db.calendars ∧ s.calendar.id = s.trip.serviceId) ∧
      s.isAddedException = false := by
  simp only [StaticDatabase.joinStopTime, List.mem_flatMap, List.mem_map, List.mem_filter,
    decide_eq_true_eq]
  constructor
  · rintro ⟨trip, ht, stop, hs, route, hr, calendar, hc, rfl⟩
    exact ⟨rfl, ht, hs, hr, hc, rfl⟩
  · rintro ⟨rfl, ht, hs, hr, hc, hadded⟩
    refine ⟨s.trip, ht, s.stop, hs, s.route, hr, s.calendar, hc, ?_⟩
    rw [← hadded]

theorem mem_joinedRows : s ∈ db.joinedRows ↔ db.Joined s := by
  simp only [StaticDatabase.joinedRows, List.mem_flatMap, mem_joinStopTime]
  constructor
  · rintro ⟨stopTime, hst, rfl, ht, hs, hr, hc, hadded⟩
    exact ⟨hst, ht, hs, hr, hc, hadded⟩
  · rintro ⟨hst, ht, hs, hr, hc, hadded⟩
    exact ⟨s.stopTime, hst, rfl, ht, hs, hr, hc, hadded⟩

theorem mem_executeStaticSchedules {conditions : StaticScheduleModel → Bool} :
    s ∈ executeStaticSchedules db conditions ↔ db.Joined s ∧ conditions s = true := by
  rw [executeStaticSchedules, List.mem_mergeSort, List.mem_filter, mem_joinedRows]

theorem mem_getStaticSchedules {day : DayOfWeek} {q : ScheduleConditions} :
    s ∈ getStaticSchedules db day q ↔
      db.Joined s ∧ s.calendar.flagOn day = 1 ∧ q.hold s = true := by
  rw [getStaticSchedules, mem_executeStaticSchedules, decide_eq_true_eq]

theorem mem_getStaticSchedulesForServiceIds {serviceIds : List String}
    {q : ScheduleConditions} :
    s ∈ getStaticSchedulesForServiceIds db serviceIds q ↔
      db.Joined s ∧ s.calendar.id ∈ serviceIds ∧ q.hold s = true := by
  unfold getStaticSchedulesForServiceIds
  split_ifs with h
  · rw [List.isEmpty_iff] at h
    simp [h]
  · rw [mem_executeStaticSchedules, decide_eq_true_eq]

section Unique

theorem length_joinStopTime_le_one (db : StaticDatabase) (stopTime : StopTimeModel) :
    (db.joinStopTime stopTime).length ≤ 1 := by
  apply Joins.length_flatMap_le_one (Joins.length_filter_le_one db.trips_nodup _)
  intro trip _
  apply Joins.length_flatMap_le_one (Joins.length_filter_le_one db.stops_nodup _)
  intro stop _
  apply Joins.length_flatMap_le_one (Joins.length_filter_le_one db.routes_nodup _)
  intro route _
  rw [List.length_map]
  exact Joins.length_filter_le_one db.calendars_nodup _

/-- A stop time joins once at most. -/
theorem joinedRows_stopTime_sublist (db : StaticDatabase) :
    (db.joinedRows.map (fun s => s.stopTime)).Sublist db.stopTimes := by
  unfold StaticDatabase.joinedRows
  induction db.stopTimes with
  | nil => exact .slnil
  | cons stopTime stopTimes ih =>
      rw [List.flatMap_cons, List.map_append, ← List.singleton_append]
      refine List.Sublist.append ?_ ih
      have hlen := length_joinStopTime_le_one db stopTime
      cases hrows : db.joinStopTime stopTime with
      | nil => exact List.nil_sublist _
      | cons s rest =>
          rw [hrows, List.length_cons, Nat.succ_le_succ_iff] at hlen
          obtain rfl := List.eq_nil_of_length_eq_zero (Nat.le_zero.1 hlen)
          have hs : s ∈ db.joinStopTime stopTime := by
            rw [hrows]
            exact List.mem_singleton.2 rfl
          rw [List.map_singleton, (mem_joinStopTime.1 hs).1]

end Unique

end SimplyTransport

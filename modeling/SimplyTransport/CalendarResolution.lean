import SimplyTransport.TripInstance

/-!
# Resolution of the calendar on a date

The three passes list a stop time once when its service runs on the date, and not at all
otherwise. The tables have no foreign keys and the queries join them, so this holds of the stop
times whose trip, route and stop have rows.
-/

namespace SimplyTransport

/-- The filters on a stop time; an empty stop id is none. -/
def ScheduleConditions.Admits (q : ScheduleConditions) (st : StopTimeModel) : Prop :=
  (∀ id ∈ q.stopId, id ≠ "" → st.stopId = id) ∧
    (∀ ids ∈ q.trips, st.tripId ∈ ids) ∧
    ∀ startTime ∈ q.startTime, ∀ endTime ∈ q.endTime,
      if endTime < startTime then startTime ≤ st.arrivalTime ∨ st.arrivalTime ≤ endTime
      else startTime ≤ st.arrivalTime ∧ st.arrivalTime ≤ endTime

/-- In range, on a weekday of the calendar and not removed. -/
def CalendarModel.RunsRegularly (c : CalendarModel) (db : StaticDatabase) (date : Date) : Prop :=
  (c.startDate ≤ date ∧ date ≤ c.endDate) ∧ c.flagOn (DayOfWeek.ofDate date) = 1 ∧
    ∀ e ∈ db.calendarDates, e.serviceId = c.id → e.date = date → e.exceptionType ≠ .removed

namespace StaticDatabase

def ServiceRuns (db : StaticDatabase) (st : StopTimeModel) (date : Date) : Prop :=
  ∃ trip ∈ db.trips, trip.id = st.tripId ∧ ∃ c ∈ db.calendars, c.id = trip.serviceId ∧
    (c.RunsRegularly db date ∨ c.AddedOn db date)

def HasStopAndRoute (db : StaticDatabase) (st : StopTimeModel) : Prop :=
  (∃ stop ∈ db.stops, stop.id = st.stopId) ∧
    ∃ trip ∈ db.trips, trip.id = st.tripId ∧ ∃ route ∈ db.routes, route.id = trip.routeId

end StaticDatabase

variable {db : StaticDatabase} {s : StaticScheduleModel} {q : ScheduleConditions} {onDate : Date}

theorem CalendarModel.regularOn_iff (c : CalendarModel) (db : StaticDatabase) (date : Date) :
    c.RegularOn db date ↔ c.RunsRegularly db date := by
  rw [CalendarModel.RegularOn, CalendarModel.isActiveOnDate_iff, ← CalendarModel.flagOn_ofDate,
    CalendarModel.RunsRegularly, and_assoc]

theorem arrivalTimeConditions_true_iff (startTime endTime : Option Time) (st : StopTimeModel) :
    arrivalTimeConditions startTime endTime st = true ↔
      ∀ s ∈ startTime, ∀ e ∈ endTime,
        if e < s then s ≤ st.arrivalTime ∨ st.arrivalTime ≤ e
        else s ≤ st.arrivalTime ∧ st.arrivalTime ≤ e := by
  cases startTime with
  | none => simp [arrivalTimeConditions]
  | some s =>
      cases endTime with
      | none => simp [arrivalTimeConditions]
      | some e =>
          by_cases h : e < s
          · simp [arrivalTimeConditions, h]
          · simp [arrivalTimeConditions, h]

/-- On a joined row the conditions of the queries are the filters on its stop time. -/
theorem StaticDatabase.Joined.hold_iff (h : db.Joined s) (htrips : q.trips ≠ some []) :
    q.hold s = true ↔ q.Admits s.stopTime := by
  rw [ScheduleConditions.hold, decide_eq_true_eq, ScheduleConditions.Admits,
    arrivalTimeConditions_true_iff, h.stop.2, h.trip.2]
  refine and_congr ?_ (and_congr_left' ?_)
  · cases q.stopId with
    | none => simp
    | some id => by_cases hid : id = "" <;> simp [hid]
  · cases hids : q.trips with
    | none => simp
    | some ids =>
        have hne : ids ≠ [] := fun hnil => htrips (by rw [hids, hnil])
        simp [hne]

theorem serviceRuns_of_joined (h : db.Joined s)
    (hruns : s.calendar.RegularOn db onDate ∨ s.calendar.AddedOn db onDate) :
    db.ServiceRuns s.stopTime onDate ∧ db.HasStopAndRoute s.stopTime := by
  rw [CalendarModel.regularOn_iff] at hruns
  exact ⟨⟨s.trip, h.trip.1, h.trip.2, s.calendar, h.calendar.1, h.calendar.2, hruns⟩,
    ⟨s.stop, h.stop⟩, s.trip, h.trip.1, h.trip.2, s.route, h.route⟩

/-- A stop time with all its rows joins, and its joined row has the calendar of its service. -/
theorem exists_joined {st : StopTimeModel} (hst : st ∈ db.stopTimes)
    (hruns : db.ServiceRuns st onDate) (hrows : db.HasStopAndRoute st) :
    ∃ s, db.Joined s ∧ s.stopTime = st ∧
      (s.calendar.RegularOn db onDate ∨ s.calendar.AddedOn db onDate) := by
  obtain ⟨trip, htrip, hid, c, hc, hcid, hruns⟩ := hruns
  obtain ⟨⟨stop, hstop, hsid⟩, trip', htrip', hid', route, hroute, hrid⟩ := hrows
  obtain rfl : trip' = trip :=
    List.inj_on_of_nodup_map db.trips_nodup htrip' htrip (hid'.trans hid.symm)
  rw [← CalendarModel.regularOn_iff] at hruns
  exact ⟨⟨route, st, c, stop, trip', false⟩, ⟨hst, ⟨htrip, hid⟩, ⟨hstop, hsid⟩,
    ⟨hroute, hrid⟩, ⟨hc, hcid⟩, rfl⟩, rfl, hruns⟩

/-- The stop times that the three passes return. -/
theorem mem_map_stopTime_schedulesOnDate (hu : UniqueCalls db) (htrips : q.trips ≠ some [])
    {st : StopTimeModel} (hst : st ∈ db.stopTimes) :
    st ∈ (schedulesOnDate db (DayOfWeek.ofDate onDate) onDate q).map (fun s => s.stopTime) ↔
      q.Admits st ∧ db.ServiceRuns st onDate ∧ db.HasStopAndRoute st := by
  constructor
  · intro h
    obtain ⟨s, hs, rfl⟩ := List.mem_map.1 h
    obtain ⟨s', hjoin, hkey, hq, hruns⟩ := (exists_schedulesOnDate hu rfl s.key).1 ⟨s, hs, rfl⟩
    obtain ⟨hjoin', _, _⟩ := (mem_schedulesOnDate hu rfl).1 hs
    have hrow := hjoin.eq_of_key hu hjoin' hkey
    have hsame : s'.stopTime = s.stopTime := congrArg (fun r => r.stopTime) hrow
    rw [← hsame]
    exact ⟨(hjoin.hold_iff htrips).1 hq, serviceRuns_of_joined hjoin hruns⟩
  · rintro ⟨hadmits, hruns, hrows⟩
    obtain ⟨s, hjoin, rfl, hservice⟩ := exists_joined hst hruns hrows
    obtain ⟨s', hs', hkey⟩ := (exists_schedulesOnDate hu rfl s.key).2
      ⟨s, hjoin, rfl, (hjoin.hold_iff htrips).2 hadmits, hservice⟩
    obtain ⟨hjoin', _, _⟩ := (mem_schedulesOnDate hu rfl).1 hs'
    have hrow := hjoin'.eq_of_key hu hjoin hkey
    exact List.mem_map.2 ⟨s', hs', congrArg (fun r => r.stopTime) hrow⟩

theorem schedulesOnDate_stopTime_nodup (hu : UniqueCalls db) :
    ((schedulesOnDate db (DayOfWeek.ofDate onDate) onDate q).map (fun s => s.stopTime)).Nodup := by
  have hkeys : (schedulesOnDate db (DayOfWeek.ofDate onDate) onDate q).map StaticScheduleModel.key =
      ((schedulesOnDate db (DayOfWeek.ofDate onDate) onDate q).map (fun s => s.stopTime)).map
        (fun st => (st.tripId, st.stopSequence)) := by
    rw [List.map_map]
    apply List.map_congr_left
    intro s hs
    exact ((mem_schedulesOnDate hu rfl).1 hs).1.key_eq
  have hnodup : ((schedulesOnDate db (DayOfWeek.ofDate onDate) onDate q).map
      StaticScheduleModel.key).Nodup := schedulesOnDate_key_nodup hu
  rw [hkeys] at hnodup
  exact hnodup.of_map

/-- Each stop time that matches the filters and has its rows is returned once if its service
runs on the date and not at all otherwise, marked when the service does not run regularly. -/
theorem calendar_resolution (db : StaticDatabase) (onDate : Date) (q : ScheduleConditions)
    (hu : UniqueCalls db) (htrips : q.trips ≠ some []) :
    let rows := schedulesOnDate db (DayOfWeek.ofDate onDate) onDate q
    (∀ st ∈ db.stopTimes,
      (q.Admits st ∧ db.ServiceRuns st onDate ∧ db.HasStopAndRoute st →
        (rows.map (fun s => s.stopTime)).count st = 1) ∧
      (¬ (q.Admits st ∧ db.ServiceRuns st onDate ∧ db.HasStopAndRoute st) →
        (rows.map (fun s => s.stopTime)).count st = 0)) ∧
    ∀ s ∈ rows, db.Joined { s with isAddedException := false } ∧
      (s.isAddedException = true ↔ ¬ s.calendar.RunsRegularly db onDate) := by
  intro rows
  constructor
  · intro st hst
    rw [← mem_map_stopTime_schedulesOnDate hu htrips hst]
    exact ⟨List.count_eq_one_of_mem (schedulesOnDate_stopTime_nodup hu), List.count_eq_zero.2⟩
  · intro s hs
    obtain ⟨hjoin, _, hruns⟩ := (mem_schedulesOnDate hu rfl).1 hs
    refine ⟨hjoin, ?_⟩
    rw [← CalendarModel.regularOn_iff]
    cases hflag : s.isAddedException with
    | false =>
        rw [hflag] at hruns
        exact iff_of_false Bool.false_ne_true (not_not_intro hruns)
    | true =>
        rw [hflag] at hruns
        exact iff_of_true rfl hruns.2

def holidayCall (tripId : String) : StopTimeModel :=
  (timetableRow tripId "TFI" "S" 1 Time.midnight).stopTime

def holidayTrip (tripId serviceId : String) : TripModel :=
  ⟨tripId, "R1", serviceId, "", "", "", 0, "", "TFI"⟩

def holidayTrips : List TripModel :=
  [holidayTrip "T1" "W", holidayTrip "T2" "H", holidayTrip "T3" "A"]

def holidayCalendars : List CalendarModel :=
  [⟨"W", 1, 1, 1, 1, 1, 0, 0, ⟨739000⟩, ⟨739400⟩, "TFI"⟩,
    ⟨"H", 1, 1, 1, 1, 1, 0, 0, ⟨739000⟩, ⟨739400⟩, "TFI"⟩,
    ⟨"A", 0, 0, 0, 0, 0, 0, 0, ⟨739000⟩, ⟨739400⟩, "TFI"⟩]

theorem holidayTrips_nodup : (holidayTrips.map (fun t => t.id)).Nodup := by decide

theorem holidayCalendars_nodup : (holidayCalendars.map (fun c => c.id)).Nodup := by decide

/-- On a Monday `H` is removed and `A` is added. -/
def holidayDatabase : StaticDatabase :=
  { oneTripDatabase with
    calendars := holidayCalendars
    calendarDates := [⟨1, "H", ⟨739005⟩, .removed, "TFI"⟩, ⟨2, "A", ⟨739005⟩, .added, "TFI"⟩]
    trips := holidayTrips
    stopTimes := [holidayCall "T1", holidayCall "T2", holidayCall "T3"]
    calendars_nodup := holidayCalendars_nodup
    trips_nodup := holidayTrips_nodup }

theorem lateEvening_lt : 82800000000 < dayMicros := by decide

theorem earlyMorning_lt : 3600000000 < dayMicros := by decide

def aroundMidnight : ScheduleConditions :=
  ⟨some "S", some ⟨82800000000, lateEvening_lt⟩, some ⟨3600000000, earlyMorning_lt⟩, none⟩

theorem admits_holidayCall (tripId : String) : aroundMidnight.Admits (holidayCall tripId) := by
  refine ⟨fun id hid _ => Option.some.inj hid, nofun, fun startTime hstart endTime hend => ?_⟩
  obtain rfl := Option.some.inj hstart
  obtain rfl := Option.some.inj hend
  have hcall : (holidayCall tripId).arrivalTime ≤ ⟨3600000000, earlyMorning_lt⟩ := by
    change Time.midnight ≤ _
    decide
  exact (if_pos (by decide)).mpr (Or.inr hcall)

theorem hasStopAndRoute_holidayCall {trip : TripModel} (h : trip ∈ holidayTrips) :
    holidayDatabase.HasStopAndRoute (holidayCall trip.id) := by
  refine ⟨⟨_, List.mem_cons_self, rfl⟩, trip, h, rfl, _, List.mem_cons_self, ?_⟩
  revert trip
  decide

theorem not_serviceRuns_removed :
    ¬ holidayDatabase.ServiceRuns (holidayCall "T2") ⟨739005⟩ := by
  rintro ⟨trip, htrip, hid, c, hc, hcid, hruns⟩
  have hservice : ∀ trip ∈ holidayTrips, trip.id = "T2" → trip.serviceId = "H" := by decide
  rw [hservice trip htrip hid] at hcid
  rcases hruns with ⟨-, -, hkept⟩ | ⟨e, he, hserviceId, -, hadded⟩
  · exact hkept _ List.mem_cons_self hcid.symm rfl rfl
  · have hexceptions : ∀ e ∈ holidayDatabase.calendarDates, e.serviceId = "H" →
        e.exceptionType ≠ .added := by decide
    exact hexceptions e he (hserviceId.trans hcid) hadded

/-- Regular service is listed, removed service is not, and added service is marked. -/
theorem calendar_resolution_holiday :
    let rows := schedulesOnDate holidayDatabase .monday ⟨739005⟩ aroundMidnight
    (rows.map (fun s => s.stopTime)).count (holidayCall "T1") = 1 ∧
      (rows.map (fun s => s.stopTime)).count (holidayCall "T2") = 0 ∧
      (rows.map (fun s => s.stopTime)).count (holidayCall "T3") = 1 ∧
      ∀ s ∈ rows, s.isAddedException = true ↔
        ¬ s.calendar.RunsRegularly holidayDatabase ⟨739005⟩ := by
  intro rows
  obtain ⟨hcounts, hmarked⟩ :=
    calendar_resolution holidayDatabase ⟨739005⟩ aroundMidnight (by decide) nofun
  have hfirst : holidayTrip "T1" "W" ∈ holidayTrips := by decide
  have hthird : holidayTrip "T3" "A" ∈ holidayTrips := by decide
  refine ⟨(hcounts _ (by decide)).1 ⟨admits_holidayCall "T1", ?_, ?_⟩,
    (hcounts _ (by decide)).2 (fun h => not_serviceRuns_removed h.2.1),
    (hcounts _ (by decide)).1 ⟨admits_holidayCall "T3", ?_, ?_⟩, fun s hs => (hmarked s hs).2⟩
  · refine ⟨holidayTrip "T1" "W", hfirst, rfl, _, List.mem_cons_self, rfl, Or.inl ⟨?_, ?_, ?_⟩⟩
    · decide
    · decide
    · decide
  · exact hasStopAndRoute_holidayCall hfirst
  · refine ⟨holidayTrip "T3" "A", hthird, rfl, holidayCalendars[2], by decide, rfl, Or.inr ?_⟩
    exact ⟨⟨2, "A", ⟨739005⟩, .added, "TFI"⟩, by decide, rfl, rfl, rfl⟩
  · exact hasStopAndRoute_holidayCall hthird

def stopMissingDatabase : StaticDatabase :=
  { oneTripDatabase with stops := [], stops_nodup := List.nodup_nil }

/-- Its service runs on the Monday, and its stop time is not returned. -/
theorem calendar_resolution_misses_stop :
    ¬ ∀ (db : StaticDatabase) (onDate : Date) (q : ScheduleConditions), UniqueCalls db →
      (∀ trip ∈ db.trips, ∃ c ∈ db.calendars, c.id = trip.serviceId) →
      (∀ e ∈ db.calendarDates, ∀ e' ∈ db.calendarDates, e.serviceId = e'.serviceId →
        e.date = e'.date → e.exceptionType = e'.exceptionType) →
      q.trips ≠ some [] → ∀ st ∈ db.stopTimes, q.Admits st → db.ServiceRuns st onDate →
        ((schedulesOnDate db (DayOfWeek.ofDate onDate) onDate q).map
          (fun s => s.stopTime)).count st = 1 := by
  intro h
  have hu : UniqueCalls stopMissingDatabase := by decide
  have htrips : (⟨none, none, none, none⟩ : ScheduleConditions).trips ≠ some [] := nofun
  have hcount := h stopMissingDatabase ⟨739005⟩ ⟨none, none, none, none⟩ hu
    (by simp [stopMissingDatabase, oneTripDatabase, timetableRow]) nofun htrips
    (timetableRow "T" "TFI" "S" 1 Time.midnight).stopTime List.mem_cons_self
    ⟨nofun, nofun, nofun⟩
    ⟨_, List.mem_cons_self, rfl, _, List.mem_cons_self, rfl, Or.inl ⟨by decide, by decide, nofun⟩⟩
  have hmem := List.count_pos_iff.1 (hcount.symm ▸ Nat.one_pos)
  have hrows := (mem_map_stopTime_schedulesOnDate hu htrips List.mem_cons_self).1 hmem
  obtain ⟨⟨_, hstop, _⟩, _⟩ := hrows.2.2
  exact List.not_mem_nil hstop

end SimplyTransport

import SimplyTransport.ServiceDay

/-!
# The rows of the stop table

After an import of files that write a dataset, the table lists each call of the dataset that is
listed in the window once, and no other. A trip of Monday's service that calls at 24:25 is missed
on Tuesday at 00:30, when it happens.
-/

namespace SimplyTransport

section Rows

variable (db : StaticDatabase) (rtTrips : List RTTripModel) (rtStopTimes : List RTStopTimeModel)
  (nowUtc now : DateTime) (stopId : String)

def StopTableShows (key : String × ℤ) : Prop :=
  ∃ table ∈ realtimeStopTable db rtTrips rtStopTimes nowUtc now stopId,
    ∃ r ∈ table.realtimeSchedules, r.staticSchedule.key = key

def stopTableConditions : ScheduleConditions :=
  ⟨some stopId, some (now.addMinutes (-10)).time, some (now.addMinutes 60).time, none⟩

end Rows

variable {g : GtfsDataset} {db : StaticDatabase} {rtTrips : List RTTripModel}
  {rtStopTimes : List RTStopTimeModel} {nowUtc now : DateTime} {stopId : String}

/-- The rows of the window, with today's weekday and today's exceptions. -/
def stopTableRows (db : StaticDatabase) (rtTrips : List RTTripModel)
    (rtStopTimes : List RTStopTimeModel) (nowUtc now : DateTime) (stopId : String) :
    List RealtimeScheduleModel :=
  liveSchedules db rtTrips rtStopTimes nowUtc now stopId (DayOfWeek.ofDate now.date) now.date
    (now.addMinutes (-10)).time (now.addMinutes 60).time

theorem exists_realtimeStopTable (rtTrips : List RTTripModel)
    (rtStopTimes : List RTStopTimeModel) (nowUtc now : DateTime)
    (h : stopId ∈ db.stops.map (fun s => s.id)) :
    ∃ table ∈ realtimeStopTable db rtTrips rtStopTimes nowUtc now stopId,
      table.realtimeSchedules = stopTableRows db rtTrips rtStopTimes nowUtc now stopId := by
  unfold realtimeStopTable
  rw [if_neg (not_not.2 h)]
  exact ⟨_, rfl, rfl⟩

theorem mem_realtimeStopTable {table : StopRealtimeTable}
    (h : table ∈ realtimeStopTable db rtTrips rtStopTimes nowUtc now stopId) :
    stopId ∈ db.stops.map (fun s => s.id) ∧
      table.realtimeSchedules = stopTableRows db rtTrips rtStopTimes nowUtc now stopId := by
  by_cases hstop : stopId ∈ db.stops.map (fun s => s.id)
  · obtain ⟨table', htable', hrows⟩ :=
      exists_realtimeStopTable rtTrips rtStopTimes nowUtc now hstop
    rw [Option.some.inj (h.symm.trans htable')]
    exact ⟨hstop, hrows⟩
  · rw [realtimeStopTable, if_pos hstop] at h
    cases h

theorem stopTableRows_perm (db : StaticDatabase) (rtTrips : List RTTripModel)
    (rtStopTimes : List RTStopTimeModel) (nowUtc now : DateTime) (stopId : String) :
    ((stopTableRows db rtTrips rtStopTimes nowUtc now stopId).map (fun r => r.staticSchedule)).Perm
      (schedulesOnDate db (DayOfWeek.ofDate now.date) now.date (stopTableConditions now stopId)) :=
  liveSchedules_staticSchedule_perm _ _ _ _ _

theorem stopTableShows_iff_schedules (key : String × ℤ) :
    StopTableShows db rtTrips rtStopTimes nowUtc now stopId key ↔
      stopId ∈ db.stops.map (fun s => s.id) ∧
        ∃ s ∈ schedulesOnDate db (DayOfWeek.ofDate now.date) now.date
          (stopTableConditions now stopId), s.key = key := by
  constructor
  · rintro ⟨table, htable, r, hr, hkey⟩
    obtain ⟨hstop, hrows⟩ := mem_realtimeStopTable htable
    rw [hrows] at hr
    refine ⟨hstop, r.staticSchedule, ?_, hkey⟩
    exact (stopTableRows_perm _ _ _ _ _ _).mem_iff.1 (List.mem_map_of_mem hr)
  · rintro ⟨hstop, s, hs, hkey⟩
    obtain ⟨table, htable, hrows⟩ :=
      exists_realtimeStopTable rtTrips rtStopTimes nowUtc now hstop
    obtain ⟨r, hr, rfl⟩ := List.mem_map.1
      ((stopTableRows_perm db rtTrips rtStopTimes nowUtc now stopId).mem_iff.2 hs)
    rw [← hrows] at hr
    exact ⟨table, htable, r, hr, hkey⟩

theorem stopTableConditions_hold (hne : stopId ≠ "") (s : StaticScheduleModel) :
    (stopTableConditions now stopId).hold s = true ↔
      s.stop.id = stopId ∧ ∃ d, InWindow now (DateTime.combine d s.stopTime.arrivalTime) := by
  rw [← arrivalTimeConditions_iff]
  simp [stopTableConditions, ScheduleConditions.hold, hne]

theorem TablesOf.mem_stops_iff (h : TablesOf g db) :
    stopId ∈ db.stops.map (fun s => s.id) ↔ stopId ∈ g.stops := by
  rw [← map_eq_of_forall₂ (f := id) (fun _ _ heq => heq.symm) h.stops, List.map_id]

/-- The table shows the calls that are listed in the window. -/
theorem TablesOf.stopTableShows_iff (h : TablesOf g db) (key : String × ℤ) :
    StopTableShows db rtTrips rtStopTimes nowUtc now stopId key ↔
      g.Call stopId (g.ListedInWindow now) key := by
  rw [stopTableShows_iff_schedules, h.mem_stops_iff,
    exists_schedulesOnDate h.uniqueCalls rfl]
  constructor
  · rintro ⟨hstop, s, hjoin, hkey, hq, hruns⟩
    have hne : stopId ≠ "" := fun heq => g.stop_ne_empty (heq ▸ hstop)
    obtain ⟨hid, hwindow⟩ := (stopTableConditions_hold hne s).1 hq
    exact (h.exists_joined_iff stopId (fun service arrival => g.RunsOn service now.date ∧
      ∃ d, InWindow now (DateTime.combine d arrival)) key).1
        ⟨s, hjoin, hkey, hid, (h.runsOn_iff hjoin.calendar.1 _).1 hruns, hwindow⟩
  · intro hcall
    have hstop : stopId ∈ g.stops := by
      obtain ⟨st, hst, _, _, _, rfl, _⟩ := hcall
      exact g.stop_mem st hst
    have hne : stopId ≠ "" := fun heq => g.stop_ne_empty (heq ▸ hstop)
    obtain ⟨s, hjoin, hkey, hid, hruns, hwindow⟩ :=
      (h.exists_joined_iff stopId (fun service arrival => g.RunsOn service now.date ∧
        ∃ d, InWindow now (DateTime.combine d arrival)) key).2 hcall
    exact ⟨hstop, s, hjoin, hkey, (stopTableConditions_hold hne s).2 ⟨hid, hwindow⟩,
      (h.runsOn_iff hjoin.calendar.1 _).2 hruns⟩

theorem stopTable_nodup (hu : UniqueCalls db) {table : StopRealtimeTable}
    (h : table ∈ realtimeStopTable db rtTrips rtStopTimes nowUtc now stopId) :
    (table.realtimeSchedules.map (fun r => r.staticSchedule.key)).Nodup := by
  rw [(mem_realtimeStopTable h).2]
  have hkeys := (stopTableRows_perm db rtTrips rtStopTimes nowUtc now stopId).map
    StaticScheduleModel.key
  rw [List.map_map] at hkeys
  exact hkeys.nodup_iff.2 (schedulesOnDate_key_nodup hu)

/-- On a window inside one day a call before 24:00 is listed exactly where it happens. -/
theorem listedInWindow_iff {t : TripLine} {st : StopTimeLine} (hday : InsideOneDay now)
    (hhour : st.arrival.hour < 24) (hcalendar : g.HasCalendar t.serviceId) :
    g.ListedInWindow now t st ↔ g.HappensInWindow now t st := by
  simp only [GtfsDataset.ListedInWindow, GtfsDataset.HappensInWindow, instant_eq_combine hhour]
  constructor
  · rintro ⟨_, hruns, d, hwindow⟩
    refine ⟨d, ?_, hwindow⟩
    rw [date_of_insideOneDay hday hwindow]
    exact hruns
  · rintro ⟨d, hruns, hwindow⟩
    refine ⟨hcalendar, ?_, d, hwindow⟩
    rw [← date_of_insideOneDay hday hwindow]
    exact hruns

section NightBus

/-- A row that begins with the values of a line, under a header that begins with the fields. -/
theorem says_of_append {file : CsvFile} {row fields values extra extra' : List String}
    (hheader : resolvedHeader file.header = fields ++ extra) (hrow : row = values ++ extra') :
    ∀ c ∈ fields.zip values, file.Says row c.1 c.2 := by
  intro c hc
  obtain ⟨i, hi⟩ := List.mem_iff_getElem?.1 hc
  obtain ⟨hfield, hvalue⟩ := List.getElem?_zip_eq_some.1 hi
  refine ⟨i, ?_, ?_⟩
  · rw [hheader, List.getElem?_append_left (List.getElem?_eq_some_iff.1 hfield).1, hfield]
  · rw [hrow, List.getElem?_append_left (List.getElem?_eq_some_iff.1 hvalue).1, hvalue]

/-- One trip of the service `W`, which runs on Mondays of 2024 and calls at the stop `S` at 24:25. -/
def nightBus : GtfsDataset where
  calendars := [⟨"W", fun day => day = .monday, ⟨2024, 1, 1, by decide, by decide, by decide⟩,
    ⟨2024, 12, 31, by decide, by decide, by decide⟩⟩]
  calendarDates := []
  routes := ["R1"]
  stops := ["S"]
  trips := [⟨"T", "R1", "W"⟩]
  stopTimes := [⟨"T", ⟨24, 25, 0, by decide, by decide, by decide⟩, "S", 1, by decide⟩]
  stopTimes_nodup := List.nodup_singleton _
  stop_ne_empty := by decide
  route_mem := by decide
  stop_mem := by decide

def nightBusFiles : GtfsFiles where
  calendar := ⟨calendarFields, [["W", "1", "0", "0", "0", "0", "0", "0", "20240101", "20241231"]],
    by decide⟩
  calendarDates := ⟨calendarDateFields, [], by decide⟩
  routes := ⟨["route_id", "agency_id", "route_short_name", "route_long_name", "route_desc",
    "route_type", "route_url", "route_color", "route_text_color"],
    [["R1", "A1", "15", "Clongriffin", "", "3", "", "", ""]], by decide⟩
  stops := ⟨["stop_id", "stop_code", "stop_name", "stop_desc", "stop_lat", "stop_lon", "zone_id",
    "stop_url", "location_type", "parent_station"],
    [["S", "1", "Main Street", "", "53.3", "-6.2", "", "", "", ""]], by decide⟩
  trips := ⟨["trip_id", "route_id", "service_id", "trip_headsign", "trip_short_name",
    "direction_id", "block_id", "shape_id"], [["T", "R1", "W", "", "", "0", "", ""]], by decide⟩
  stopTimes := ⟨["trip_id", "arrival_time", "stop_id", "stop_sequence", "departure_time",
    "stop_headsign", "pickup_type", "drop_off_type", "timepoint"],
    [["T", "24:25:00", "S", "1", "24:25:00", "", "", "", ""]], by decide⟩

theorem nightBus_filesHold : FilesHold nightBusFiles nightBus where
  calendars := ⟨by decide, .cons (says_of_append (List.append_nil _).symm
    (List.append_nil _).symm) .nil⟩
  calendarDates := ⟨by decide, .nil⟩
  routes := ⟨by decide, .cons (says_of_append rfl rfl) .nil⟩
  stops := ⟨by decide, .cons (says_of_append rfl rfl) .nil⟩
  trips := ⟨by decide, .cons (says_of_append rfl rfl) .nil⟩
  stopTimes := ⟨by decide, .cons (says_of_append rfl rfl) .nil⟩

def tuesdayNight : DateTime := (DateTime.combine ⟨739006⟩ Time.midnight).addMinutes 30

theorem nightBus_happens :
    nightBus.Call "S" (nightBus.HappensInWindow tuesdayNight) ("T", 1) := by
  refine ⟨_, List.mem_singleton_self _, _, List.mem_singleton_self _, rfl, rfl, rfl, ⟨739005⟩,
    Or.inl ⟨_, List.mem_singleton_self _, rfl, ⟨by decide, by decide⟩, by decide, ?_⟩,
    ⟨by decide, by decide⟩⟩
  exact fun e he => absurd he List.not_mem_nil

theorem nightBus_not_listed :
    ¬ nightBus.Call "S" (nightBus.ListedInWindow tuesdayNight) ("T", 1) := by
  rintro ⟨st, _, t, ht, _, _, _, _, hruns, _⟩
  obtain rfl := List.mem_singleton.1 ht
  rcases hruns with ⟨c, hc, _, _, hday, _⟩ | ⟨e, he, _⟩
  · obtain rfl := List.mem_singleton.1 hc
    exact absurd hday (by decide)
  · exact absurd he List.not_mem_nil

end NightBus

/-- The call at 24:25 of Monday's service is missing on Tuesday at half past midnight. -/
theorem stop_table_misses_call :
    ¬ ∀ files g dataset dateSerial serial db rtTrips rtStopTimes nowUtc now stopId, FilesHold files g →
      importFiles files dataset dateSerial serial = .ok db →
      ∀ key, StopTableShows db rtTrips rtStopTimes nowUtc now stopId key ↔
        g.Call stopId (g.HappensInWindow now) key := by
  intro h
  have himport : importFiles nightBusFiles "TFI" (fun i => i) (fun i => i) = .ok _ := rfl
  have htables := tablesOf_import nightBus_filesHold himport
  have hshows := (h _ _ _ _ _ _ [] [] tuesdayNight tuesdayNight "S" nightBus_filesHold himport
    ("T", 1)).2 nightBus_happens
  exact nightBus_not_listed ((htables.stopTableShows_iff _).1 hshows)

/-- The rows of the table are, once each, the calls at the stop of the trips whose service has a
calendar and runs today, and whose clock time comes up in the window. On a window inside one
day, in a dataset without times from 24:00 on whose services all have a calendar, they are the
calls that happen in the window. -/
theorem stop_table_rows {files : GtfsFiles} {g : GtfsDataset} {dataset : String}
    {dateSerial serial : ℕ → ℤ} {db : StaticDatabase} (hfiles : FilesHold files g)
    (himport : importFiles files dataset dateSerial serial = .ok db) (rtTrips : List RTTripModel)
    (rtStopTimes : List RTStopTimeModel) (nowUtc now : DateTime) (stopId : String) :
    (∀ key, StopTableShows db rtTrips rtStopTimes nowUtc now stopId key ↔
      g.Call stopId (g.ListedInWindow now) key) ∧
    (∀ table ∈ realtimeStopTable db rtTrips rtStopTimes nowUtc now stopId,
      (table.realtimeSchedules.map (fun r => r.staticSchedule.key)).Nodup) ∧
    (InsideOneDay now → (∀ st ∈ g.stopTimes, st.arrival.hour < 24) →
      (∀ t ∈ g.trips, g.HasCalendar t.serviceId) →
      ∀ key, StopTableShows db rtTrips rtStopTimes nowUtc now stopId key ↔
        g.Call stopId (g.HappensInWindow now) key) := by
  have htables := tablesOf_import hfiles himport
  refine ⟨htables.stopTableShows_iff, fun table h => stopTable_nodup htables.uniqueCalls h, ?_⟩
  intro hday hhour hcalendar key
  rw [htables.stopTableShows_iff]
  constructor
  · rintro ⟨st, hst, t, ht, htrip, hstop, hkey, hlisted⟩
    exact ⟨st, hst, t, ht, htrip, hstop, hkey,
      (listedInWindow_iff hday (hhour st hst) (hcalendar t ht)).1 hlisted⟩
  · rintro ⟨st, hst, t, ht, htrip, hstop, hkey, hhappens⟩
    exact ⟨st, hst, t, ht, htrip, hstop, hkey,
      (listedInWindow_iff hday (hhour st hst) (hcalendar t ht)).2 hhappens⟩

/-- On Tuesday at half past midnight the table has no row. -/
theorem stop_table_rows_night :
    ∃ db, importFiles nightBusFiles "TFI" (fun i => i) (fun i => i) = .ok db ∧
      ¬ StopTableShows db [] [] tuesdayNight tuesdayNight "S" ("T", 1) := by
  refine ⟨_, rfl, fun hshows => nightBus_not_listed ?_⟩
  exact ((stop_table_rows nightBus_filesHold rfl [] [] tuesdayNight tuesdayNight "S").1 _).1 hshows

end SimplyTransport

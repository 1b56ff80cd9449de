import SimplyTransport.ImportedTables
import SimplyTransport.RealtimeController

/-!
# The stop table and the service day

The importer drops the day of the hours from 24 on, and the table takes weekday and exceptions
from today. Its rows are the calls of today's services whose clock time comes up in the window,
on whichever day; on a window inside one day, without times from 24:00 on and services without
calendar, these are the calls that happen in the window.
-/

namespace SimplyTransport

def InWindow (now i : DateTime) : Prop := now.addMinutes (-10) ≤ i ∧ i ≤ now.addMinutes 60

def GtfsDataset.Call (g : GtfsDataset) (stopId : String) (P : TripLine → StopTimeLine → Prop)
    (key : String × ℤ) : Prop :=
  ∃ st ∈ g.stopTimes, ∃ t ∈ g.trips, t.tripId = st.tripId ∧ st.stopId = stopId ∧
    (st.tripId, (st.stopSequence : ℤ)) = key ∧ P t st

/-- The trip runs on some service date, and calls in the window. -/
def GtfsDataset.HappensInWindow (g : GtfsDataset) (now : DateTime) (t : TripLine)
    (st : StopTimeLine) : Prop :=
  ∃ d, g.RunsOn t.serviceId d ∧ InWindow now (st.arrival.instant d)

/-- The trip's service has a calendar and runs today, and the clock shows the time of the call
at some moment of the window. -/
def GtfsDataset.ListedInWindow (g : GtfsDataset) (now : DateTime) (t : TripLine)
    (st : StopTimeLine) : Prop :=
  g.HasCalendar t.serviceId ∧ g.RunsOn t.serviceId now.date ∧
    ∃ d, InWindow now (DateTime.combine d st.arrival.clock)

def InsideOneDay (now : DateTime) : Prop :=
  (now.addMinutes (-10)).date = now.date ∧ (now.addMinutes 60).date = now.date

section Window

theorem arrivalTimeConditions_iff (now : DateTime) (st : StopTimeModel) :
    arrivalTimeConditions (some (now.addMinutes (-10)).time) (some (now.addMinutes 60).time) st =
      true ↔ ∃ d, InWindow now (DateTime.combine d st.arrivalTime) :=
  arrivalTimeConditions_window_iff now (by decide) (by decide) st

theorem instant_eq_combine {t : GtfsTime} (h : t.hour < 24) (d : Date) :
    t.instant d = DateTime.combine d t.clock := by
  ext
  simp only [GtfsTime.instant, GtfsTime.clock, DateTime.combine, DateTime.addSeconds,
    DateTime.addMicros, Time.midnight, Nat.mod_eq_of_lt h]
  push_cast
  ring

theorem date_of_insideOneDay {now : DateTime} (h : InsideOneDay now) {d : Date} {t : Time}
    (hw : InWindow now (DateTime.combine d t)) : d = now.date := by
  have hstart := DateTime.date_mono hw.1
  have hend := DateTime.date_mono hw.2
  rw [DateTime.date_combine, h.1] at hstart
  rw [DateTime.date_combine, h.2] at hend
  exact le_antisymm hend hstart

end Window

section Tables

variable {g : GtfsDataset} {db : StaticDatabase}

theorem TablesOf.addedOn_iff (h : TablesOf g db) (c : CalendarModel) (d : Date) :
    c.AddedOn db d ↔ ∃ e ∈ g.calendarDates, e.serviceId = c.id ∧ e.date.date = d ∧
      e.exceptionType = .added := by
  constructor
  · rintro ⟨e, he, hid, hdate, htype⟩
    obtain ⟨line, hline, himported⟩ := exists_line_of_forall₂ h.calendarDates e he
    exact ⟨line, hline, himported.serviceId.symm.trans hid, himported.date.symm.trans hdate,
      himported.exceptionType.symm.trans htype⟩
  · rintro ⟨line, hline, hid, hdate, htype⟩
    obtain ⟨e, he, himported⟩ := exists_mem_of_forall₂ h.calendarDates line hline
    exact ⟨e, he, himported.serviceId.trans hid, himported.date.trans hdate,
      himported.exceptionType.trans htype⟩

theorem TablesOf.notRemoved_iff (h : TablesOf g db) (c : CalendarModel) (d : Date) :
    (∀ e ∈ db.calendarDates, e.serviceId = c.id → e.date = d → e.exceptionType ≠ .removed) ↔
      ∀ e ∈ g.calendarDates, e.serviceId = c.id → e.date.date = d →
        e.exceptionType ≠ .removed := by
  constructor
  · intro hnot line hline hid hdate htype
    obtain ⟨e, he, himported⟩ := exists_mem_of_forall₂ h.calendarDates line hline
    exact hnot e he (himported.serviceId.trans hid) (himported.date.trans hdate)
      (himported.exceptionType.trans htype)
  · intro hnot e he hid hdate htype
    obtain ⟨line, hline, himported⟩ := exists_line_of_forall₂ h.calendarDates e he
    exact hnot line hline (himported.serviceId.symm.trans hid) (himported.date.symm.trans hdate)
      (himported.exceptionType.symm.trans htype)

theorem CalendarLine.Imported.isActiveOnDate_iff {line : CalendarLine} {c : CalendarModel}
    (h : line.Imported c) (d : Date) :
    c.isActiveOnDate d = true ↔
      (line.startDate.date ≤ d ∧ d ≤ line.endDate.date) ∧ line.days (DayOfWeek.ofDate d) = true := by
  rw [CalendarModel.isActiveOnDate_iff, ← CalendarModel.flagOn_ofDate, h.flags, h.startDate,
    h.endDate]
  cases line.days (DayOfWeek.ofDate d) <;> simp

/-- The code's rule for a calendar of the table is the GTFS rule for its service. -/
theorem TablesOf.runsOn_iff (h : TablesOf g db) {c : CalendarModel} (hc : c ∈ db.calendars)
    (d : Date) : c.RegularOn db d ∨ c.AddedOn db d ↔ g.RunsOn c.id d := by
  refine or_congr ?_ (h.addedOn_iff c d)
  rw [CalendarModel.RegularOn, h.notRemoved_iff]
  constructor
  · rintro ⟨hactive, hremoved⟩
    obtain ⟨line, hline, himported⟩ := exists_line_of_forall₂ h.calendars c hc
    obtain ⟨hrange, hday⟩ := (himported.isActiveOnDate_iff d).1 hactive
    exact ⟨line, hline, himported.id.symm, hrange, hday, hremoved⟩
  · rintro ⟨line, hline, hid, hrange, hday, hremoved⟩
    obtain ⟨c', hc', himported⟩ := exists_mem_of_forall₂ h.calendars line hline
    have hsame : c' = c :=
      List.inj_on_of_nodup_map db.calendars_nodup hc' hc (himported.id.trans hid)
    rw [hsame] at himported
    exact ⟨(himported.isActiveOnDate_iff d).2 ⟨hrange, hday⟩, hremoved⟩

theorem TablesOf.uniqueCalls (h : TablesOf g db) : UniqueCalls db := by
  have hkeys : (g.stopTimes.map (fun st => (st.tripId, st.stopSequence))).map
      (fun k => (k.1, (k.2 : ℤ))) =
        db.stopTimes.map (fun st => (st.tripId, st.stopSequence)) := by
    rw [List.map_map]
    refine map_eq_of_forall₂ (fun line st himported => ?_) h.stopTimes
    rw [himported.tripId, himported.stopSequence]
    rfl
  rw [UniqueCalls, ← hkeys]
  refine g.stopTimes_nodup.map ?_
  rintro ⟨t, n⟩ ⟨t', n'⟩ heq
  simp only [Prod.mk.injEq, Nat.cast_inj] at heq
  rw [heq.1, heq.2]

/-- The calls that the tables join are those of the dataset whose service has a calendar. -/
theorem TablesOf.exists_joined_iff (h : TablesOf g db) (stopId : String)
    (P : String → Time → Prop) (key : String × ℤ) :
    (∃ s, db.Joined s ∧ s.key = key ∧ s.stop.id = stopId ∧
      P s.calendar.id s.stopTime.arrivalTime) ↔
      g.Call stopId (fun t st => g.HasCalendar t.serviceId ∧ P t.serviceId st.arrival.clock)
        key := by
  constructor
  · rintro ⟨s, hjoin, hkey, hstop, hP⟩
    obtain ⟨st, hst, hst'⟩ := exists_line_of_forall₂ h.stopTimes _ hjoin.stopTime
    obtain ⟨t, ht, ht'⟩ := exists_line_of_forall₂ h.trips _ hjoin.trip.1
    obtain ⟨c, hc, hc'⟩ := exists_line_of_forall₂ h.calendars _ hjoin.calendar.1
    have hservice : s.calendar.id = t.serviceId := hjoin.calendar.2.trans ht'.serviceId
    refine ⟨st, hst, t, ht, ?_, ?_, ?_, ⟨c, hc, hc'.id.symm.trans hservice⟩, ?_⟩
    · rw [← ht'.id, hjoin.trip.2, hst'.tripId]
    · rw [← hst'.stopId, ← hjoin.stop.2, hstop]
    · rw [← hst'.tripId, ← hst'.stopSequence, ← hjoin.key_eq, hkey]
    · rw [← hservice, ← hst'.arrivalTime]
      exact hP
  · rintro ⟨st, hst, t, ht, htrip, hstop, hkey, ⟨c, hc, hservice⟩, hP⟩
    obtain ⟨stopTime, hstopTime, hst'⟩ := exists_mem_of_forall₂ h.stopTimes st hst
    obtain ⟨trip, htrip', ht'⟩ := exists_mem_of_forall₂ h.trips t ht
    obtain ⟨calendar, hcalendar, hc'⟩ := exists_mem_of_forall₂ h.calendars c hc
    obtain ⟨stop, hstop', hid⟩ := exists_mem_of_forall₂ h.stops _ (g.stop_mem st hst)
    obtain ⟨route, hroute, hrid⟩ := exists_mem_of_forall₂ h.routes _ (g.route_mem t ht)
    refine ⟨⟨route, stopTime, calendar, stop, trip, false⟩, ⟨hstopTime, ⟨htrip', ?_⟩,
      ⟨hstop', ?_⟩, ⟨hroute, ?_⟩, ⟨hcalendar, ?_⟩, rfl⟩, ?_, hid.trans hstop, ?_⟩
    · exact ht'.id.trans (htrip.trans hst'.tripId.symm)
    · exact hid.trans hst'.stopId.symm
    · exact hrid.trans ht'.routeId.symm
    · exact hc'.id.trans (hservice.trans ht'.serviceId.symm)
    · rw [← hkey, StaticScheduleModel.key, hst'.stopSequence, ht'.id, htrip]
    · change P calendar.id stopTime.arrivalTime
      rw [hc'.id, hservice, hst'.arrivalTime]
      exact hP

end Tables

end SimplyTransport

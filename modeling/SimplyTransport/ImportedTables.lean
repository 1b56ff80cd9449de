import SimplyTransport.CsvColumns
import SimplyTransport.GtfsDataset

/-!
# The tables that an import leaves

When the files write a dataset, in columns of any order, each table that the importers leave
holds the lines of the dataset one for one: services, dates and references as written, the
arrival of a stop time as a clock shows it.
-/

namespace SimplyTransport

def CsvFile.Says (file : CsvFile) (row : List String) (name value : String) : Prop :=
  ∃ i : ℕ, (resolvedHeader file.header)[i]? = some name ∧ row[i]? = some value

/-- The rows of the file write the lines, one each, in columns of the names `fields`. -/
structure Writes {α : Type} (file : CsvFile) (fields : List String) (values : α → List String)
    (lines : List α) : Prop where
  header_nodup : (resolvedHeader file.header).Nodup
  rows : List.Forall₂ (fun row line => ∀ c ∈ fields.zip (values line), file.Says row c.1 c.2)
    file.rows lines

def flagText (b : Bool) : String := if b then "1" else "0"

def calendarFields : List String :=
  ["service_id", "monday", "tuesday", "wednesday", "thursday", "friday", "saturday", "sunday",
    "start_date", "end_date"]

def CalendarLine.values (line : CalendarLine) : List String :=
  [line.serviceId, flagText (line.days .monday), flagText (line.days .tuesday),
    flagText (line.days .wednesday), flagText (line.days .thursday), flagText (line.days .friday),
    flagText (line.days .saturday), flagText (line.days .sunday), line.startDate.text,
    line.endDate.text]

def calendarDateFields : List String := ["service_id", "date", "exception_type"]

def CalendarDateLine.values (line : CalendarDateLine) : List String :=
  [line.serviceId, line.date.text, if line.exceptionType = .added then "1" else "2"]

def tripFields : List String := ["trip_id", "route_id", "service_id"]

def TripLine.values (line : TripLine) : List String := [line.tripId, line.routeId, line.serviceId]

def stopTimeFields : List String := ["trip_id", "arrival_time", "stop_id", "stop_sequence"]

def StopTimeLine.values (line : StopTimeLine) : List String :=
  [line.tripId, line.arrival.text, line.stopId, toString line.stopSequence]

structure FilesHold (files : GtfsFiles) (g : GtfsDataset) : Prop where
  calendars : Writes files.calendar calendarFields CalendarLine.values g.calendars
  calendarDates :
    Writes files.calendarDates calendarDateFields CalendarDateLine.values g.calendarDates
  routes : Writes files.routes ["route_id"] (fun id => [id]) g.routes
  stops : Writes files.stops ["stop_id"] (fun id => [id]) g.stops
  trips : Writes files.trips tripFields TripLine.values g.trips
  stopTimes : Writes files.stopTimes stopTimeFields StopTimeLine.values g.stopTimes

structure CalendarLine.Imported (line : CalendarLine) (c : CalendarModel) : Prop where
  id : c.id = line.serviceId
  flags : ∀ day, c.flagOn day = if line.days day then 1 else 0
  startDate : c.startDate = line.startDate.date
  endDate : c.endDate = line.endDate.date

structure CalendarDateLine.Imported (line : CalendarDateLine) (e : CalendarDateModel) : Prop where
  serviceId : e.serviceId = line.serviceId
  date : e.date = line.date.date
  exceptionType : e.exceptionType = line.exceptionType

structure TripLine.Imported (line : TripLine) (t : TripModel) : Prop where
  id : t.id = line.tripId
  routeId : t.routeId = line.routeId
  serviceId : t.serviceId = line.serviceId

structure StopTimeLine.Imported (line : StopTimeLine) (st : StopTimeModel) : Prop where
  tripId : st.tripId = line.tripId
  arrivalTime : st.arrivalTime = line.arrival.clock
  stopId : st.stopId = line.stopId
  stopSequence : st.stopSequence = line.stopSequence

/-- The tables hold the dataset, line for line. -/
structure TablesOf (g : GtfsDataset) (db : StaticDatabase) : Prop where
  calendars : List.Forall₂ CalendarLine.Imported g.calendars db.calendars
  calendarDates : List.Forall₂ CalendarDateLine.Imported g.calendarDates db.calendarDates
  routes : List.Forall₂ (fun id r => r.id = id) g.routes db.routes
  stops : List.Forall₂ (fun id s => s.id = id) g.stops db.stops
  trips : List.Forall₂ TripLine.Imported g.trips db.trips
  stopTimes : List.Forall₂ StopTimeLine.Imported g.stopTimes db.stopTimes

def Reads (row : CsvRow) (name value : String) : Prop := ∀ v, row name = .ok v → v = value

section Fields

variable {row : CsvRow} {name value : String}

theorem copyRow_reads {file : CsvFile} {names : List String} {col : List (String × ℕ)}
    {r : List String} (hnodup : (resolvedHeader file.header).Nodup)
    (hcol : csvColumnIndexes file.header names = .ok col) (h : file.Says r name value) :
    Reads (copyRow col r) name value := by
  intro v hv
  rcases copyRow_cases hcol r name with ⟨_, heq⟩ | ⟨v', heq, _, hshows⟩ | ⟨_, heq, _⟩
  · rw [heq] at hv
    cases hv
  · obtain rfl := Except.ok.inj (heq.symm.trans hv)
    exact (once_of_nodup hnodup name).eq hshows h
  · rw [heq] at hv
    cases hv

theorem dictRow_reads {file : CsvFile} {r : List String}
    (hnodup : (resolvedHeader file.header).Nodup) (hname : lstripBom name = name)
    (h : file.Says r name value) : Reads (dictRow file.header r) name value := by
  intro v hv
  rcases dictRow_cases file.header r name with ⟨v', heq, hshows⟩ | ⟨heq, _⟩
  · obtain rfl := Except.ok.inj (heq.symm.trans hv)
    exact (once_of_nodup hnodup name).eq (hshows.resolved hname) h
  · rw [heq] at hv
    cases hv

theorem Reads.intField {n : ℤ} (h : Reads row name value)
    (hn : SimplyTransport.intField row name = .ok n) : pyInt value.toList = .ok n := by
  obtain ⟨v, hv, hn⟩ := bind_eq_ok.1 hn
  rwa [h v hv] at hn

theorem Reads.flag {n : ℤ} {b : Bool} (h : Reads row name (flagText b))
    (hn : SimplyTransport.intField row name = .ok n) : n = if b then 1 else 0 := by
  have hread := h.intField hn
  cases b <;> exact (Except.ok.inj hread).symm

theorem Reads.timeField {t : GtfsTime} {time : Time} (h : Reads row name t.text)
    (htime : SimplyTransport.timeField row name = .ok time) : time = t.clock := by
  obtain ⟨v, hv, htime⟩ := bind_eq_ok.1 htime
  rw [h v hv, convert29HoursTo24Hours_text] at htime
  exact (Except.ok.inj htime).symm

theorem Reads.dateField {d : GtfsDate} {date : Date} (h : Reads row name d.text)
    (hdate : SimplyTransport.dateField row name = .ok date) : date = d.date := by
  obtain ⟨v, hv, hdate⟩ := bind_eq_ok.1 hdate
  rw [h v hv, convertJoinedDateToDate_text] at hdate
  exact (Except.ok.inj hdate).symm

end Fields

section Lines

variable {dataset : String} {row : CsvRow}

theorem calendarModelOf_line {line : CalendarLine} {m : CalendarModel}
    (hrow : ∀ c ∈ calendarFields.zip line.values, Reads row c.1 c.2)
    (h : calendarModelOf dataset row = .ok m) : line.Imported m := by
  obtain ⟨id, hid, h⟩ := bind_eq_ok.1 h
  obtain ⟨monday, hmonday, h⟩ := bind_eq_ok.1 h
  obtain ⟨tuesday, htuesday, h⟩ := bind_eq_ok.1 h
  obtain ⟨wednesday, hwednesday, h⟩ := bind_eq_ok.1 h
  obtain ⟨thursday, hthursday, h⟩ := bind_eq_ok.1 h
  obtain ⟨friday, hfriday, h⟩ := bind_eq_ok.1 h
  obtain ⟨saturday, hsaturday, h⟩ := bind_eq_ok.1 h
  obtain ⟨sunday, hsunday, h⟩ := bind_eq_ok.1 h
  obtain ⟨startDate, hstart, h⟩ := bind_eq_ok.1 h
  obtain ⟨endDate, hend, h⟩ := bind_eq_ok.1 h
  obtain rfl := Except.ok.inj h
  have hcol : ∀ (i : ℕ) c, (calendarFields.zip line.values)[i]? = some c → Reads row c.1 c.2 :=
    fun i c hi => hrow c (List.mem_of_getElem? hi)
  refine ⟨hcol 0 _ rfl _ hid, fun day => ?_, (hcol 8 _ rfl).dateField hstart,
    (hcol 9 _ rfl).dateField hend⟩
  cases day with
  | monday => exact (hcol 1 _ rfl).flag hmonday
  | tuesday => exact (hcol 2 _ rfl).flag htuesday
  | wednesday => exact (hcol 3 _ rfl).flag hwednesday
  | thursday => exact (hcol 4 _ rfl).flag hthursday
  | friday => exact (hcol 5 _ rfl).flag hfriday
  | saturday => exact (hcol 6 _ rfl).flag hsaturday
  | sunday => exact (hcol 7 _ rfl).flag hsunday

theorem calendarDateModelOf_line {line : CalendarDateLine} {record : ℤ → CalendarDateModel}
    (hrow : ∀ c ∈ calendarDateFields.zip line.values, Reads row c.1 c.2)
    (h : calendarDateModelOf dataset row = .ok record) (id : ℤ) : line.Imported (record id) := by
  obtain ⟨text, htext, h⟩ := bind_eq_ok.1 h
  obtain ⟨exceptionType, htype, h⟩ := bind_eq_ok.1 h
  obtain ⟨serviceId, hid, h⟩ := bind_eq_ok.1 h
  obtain ⟨date, hdate, h⟩ := bind_eq_ok.1 h
  obtain rfl := Except.ok.inj h
  have hcol : ∀ (i : ℕ) c, (calendarDateFields.zip line.values)[i]? = some c → Reads row c.1 c.2 :=
    fun i c hi => hrow c (List.mem_of_getElem? hi)
  refine ⟨hcol 0 _ rfl _ hid, (hcol 1 _ rfl).dateField hdate, ?_⟩
  rw [hcol 2 _ rfl _ htext] at htype
  cases htyped : line.exceptionType with
  | added =>
      rw [htyped] at htype
      exact (Except.ok.inj htype).symm
  | removed =>
      rw [htyped] at htype
      exact (Except.ok.inj htype).symm

theorem routeModelOf_line {id : String} {r : RouteModel}
    (hrow : ∀ c ∈ ["route_id"].zip [id], Reads row c.1 c.2)
    (h : routeModelOf dataset row = .ok r) : r.id = id := by
  obtain ⟨id', hid, h⟩ := bind_eq_ok.1 h
  obtain ⟨_, _, h⟩ := bind_eq_ok.1 h
  obtain ⟨_, _, h⟩ := bind_eq_ok.1 h
  obtain ⟨_, _, h⟩ := bind_eq_ok.1 h
  obtain ⟨_, _, h⟩ := bind_eq_ok.1 h
  obtain ⟨_, _, h⟩ := bind_eq_ok.1 h
  split_ifs at h
  obtain ⟨_, _, h⟩ := bind_eq_ok.1 h
  obtain ⟨_, _, h⟩ := bind_eq_ok.1 h
  obtain ⟨_, _, h⟩ := bind_eq_ok.1 h
  obtain rfl := Except.ok.inj h
  exact hrow _ (List.mem_singleton_self _) _ hid

theorem stopModelOf_line {id : String} {s : StopModel}
    (hrow : ∀ c ∈ ["stop_id"].zip [id], Reads row c.1 c.2)
    (h : stopModelOf dataset row = .ok s) : s.id = id := by
  obtain ⟨id', hid, h⟩ := bind_eq_ok.1 h
  obtain ⟨_, _, h⟩ := bind_eq_ok.1 h
  obtain ⟨_, _, h⟩ := bind_eq_ok.1 h
  obtain ⟨_, _, h⟩ := bind_eq_ok.1 h
  obtain ⟨_, _, h⟩ := bind_eq_ok.1 h
  obtain ⟨_, _, h⟩ := bind_eq_ok.1 h
  obtain ⟨_, _, h⟩ := bind_eq_ok.1 h
  obtain ⟨_, _, h⟩ := bind_eq_ok.1 h
  obtain ⟨_, _, h⟩ := bind_eq_ok.1 h
  obtain ⟨_, _, h⟩ := bind_eq_ok.1 h
  obtain rfl := Except.ok.inj h
  exact hrow _ (List.mem_singleton_self _) _ hid

theorem tripRecord_line {line : TripLine} {t : TripModel}
    (hrow : ∀ c ∈ tripFields.zip line.values, Reads row c.1 c.2)
    (h : tripRecord dataset row = .ok t) : line.Imported t := by
  obtain ⟨id, hid, h⟩ := bind_eq_ok.1 h
  obtain ⟨routeId, hroute, h⟩ := bind_eq_ok.1 h
  obtain ⟨serviceId, hservice, h⟩ := bind_eq_ok.1 h
  obtain ⟨_, _, h⟩ := bind_eq_ok.1 h
  obtain ⟨_, _, h⟩ := bind_eq_ok.1 h
  obtain ⟨_, _, h⟩ := bind_eq_ok.1 h
  obtain ⟨_, _, h⟩ := bind_eq_ok.1 h
  obtain ⟨_, _, h⟩ := bind_eq_ok.1 h
  obtain rfl := Except.ok.inj h
  have hcol : ∀ (i : ℕ) c, (tripFields.zip line.values)[i]? = some c → Reads row c.1 c.2 :=
    fun i c hi => hrow c (List.mem_of_getElem? hi)
  exact ⟨hcol 0 _ rfl _ hid, hcol 1 _ rfl _ hroute, hcol 2 _ rfl _ hservice⟩

theorem stopTimeRecord_line {line : StopTimeLine} {record : ℤ → StopTimeModel}
    (hrow : ∀ c ∈ stopTimeFields.zip line.values, Reads row c.1 c.2)
    (h : stopTimeRecord dataset row = .ok record) (id : ℤ) : line.Imported (record id) := by
  obtain ⟨tripId, htrip, h⟩ := bind_eq_ok.1 h
  obtain ⟨arrivalTime, harrival, h⟩ := bind_eq_ok.1 h
  obtain ⟨_, _, h⟩ := bind_eq_ok.1 h
  obtain ⟨stopId, hstop, h⟩ := bind_eq_ok.1 h
  obtain ⟨stopSequence, hsequence, h⟩ := bind_eq_ok.1 h
  obtain ⟨_, _, h⟩ := bind_eq_ok.1 h
  obtain ⟨_, _, h⟩ := bind_eq_ok.1 h
  obtain ⟨_, _, h⟩ := bind_eq_ok.1 h
  obtain ⟨_, _, h⟩ := bind_eq_ok.1 h
  obtain rfl := Except.ok.inj h
  have hcol : ∀ (i : ℕ) c, (stopTimeFields.zip line.values)[i]? = some c → Reads row c.1 c.2 :=
    fun i c hi => hrow c (List.mem_of_getElem? hi)
  refine ⟨hcol 0 _ rfl _ htrip, (hcol 1 _ rfl).timeField harrival, hcol 2 _ rfl _ hstop, ?_⟩
  have hread := (hcol 3 _ rfl).intField hsequence
  rw [pyInt_toString line.stopSequence_lt] at hread
  exact (Except.ok.inj hread).symm

end Lines

section Import

variable {α β : Type} {file : CsvFile} {fields : List String} {values : α → List String}
  {lines : List α} {Imported : α → β → Prop}

/-- An ORM importer leaves a model of each line. -/
theorem ormImport_lines {buildModel : CsvRow → Except PyError β} {models : List β}
    (hw : Writes file fields values lines) (hplain : ∀ name ∈ fields, lstripBom name = name)
    (hbuild : ∀ row line m, (∀ c ∈ fields.zip (values line), Reads row c.1 c.2) →
      buildModel row = .ok m → Imported line m)
    (h : ormImport file buildModel = .ok models) : List.Forall₂ Imported lines models := by
  refine forall₂_of_forall₂ (fun row line m hreads hm => ?_) hw.rows (forall₂_of_mapM h)
  refine hbuild _ line m (fun c hc => ?_) hm
  exact dictRow_reads hw.header_nodup (hplain _ (List.of_mem_zip hc).1) (hreads c hc)

theorem copyImport_lines {recordFromRow : CsvRow → Except PyError β} {records : List β}
    {csvFields : List String} (hw : Writes file fields values lines)
    (hbuild : ∀ row line m, (∀ c ∈ fields.zip (values line), Reads row c.1 c.2) →
      recordFromRow row = .ok m → Imported line m)
    (h : copyImport file csvFields recordFromRow = .ok records) :
    List.Forall₂ Imported lines records := by
  obtain ⟨col, hcol, h⟩ := bind_eq_ok.1 h
  refine forall₂_of_forall₂ (fun row line m hreads hm => ?_) hw.rows (forall₂_of_mapM h)
  exact hbuild _ line m (fun c hc => copyRow_reads hw.header_nodup hcol (hreads c hc)) hm

theorem forall₂_zipIdx {γ : Type} {R : α → γ → Prop} {records : List (ℤ → γ)} (serial : ℕ → ℤ)
    (h : List.Forall₂ (fun line record => ∀ id, R line (record id)) lines records) (k : ℕ) :
    List.Forall₂ R lines ((records.zipIdx k).map (fun p => p.1 (serial p.2))) := by
  induction h generalizing k with
  | nil => exact .nil
  | cons hab _ ih => exact .cons (hab _) (ih (k + 1))

/-- Files that write a dataset leave tables that hold it. -/
theorem tablesOf_import {files : GtfsFiles} {g : GtfsDataset} {dataset : String}
    {dateSerial serial : ℕ → ℤ} {db : StaticDatabase} (hfiles : FilesHold files g)
    (h : importFiles files dataset dateSerial serial = .ok db) : TablesOf g db := by
  obtain ⟨hcalendars, ⟨dates, hdates, hcalendarDates⟩, hroutes, hstops, htrips, records, hrecords,
    hstopTimes⟩ := importFiles_ok h
  refine ⟨?_, ?_, ?_, ?_, ?_, ?_⟩
  · exact ormImport_lines hfiles.calendars (by decide)
      (fun _ _ _ => calendarModelOf_line) hcalendars
  · rw [hcalendarDates]
    exact forall₂_zipIdx dateSerial (ormImport_lines hfiles.calendarDates (by decide)
      (fun _ _ _ hrow hm id => calendarDateModelOf_line hrow hm id) hdates) 0
  · exact ormImport_lines hfiles.routes (by decide)
      (fun _ _ _ => routeModelOf_line) hroutes
  · exact ormImport_lines hfiles.stops (by decide)
      (fun _ _ _ => stopModelOf_line) hstops
  · exact copyImport_lines hfiles.trips (fun _ _ _ => tripRecord_line) htrips
  · rw [hstopTimes]
    exact forall₂_zipIdx serial (copyImport_lines hfiles.stopTimes
      (fun _ _ _ hrow hm id => stopTimeRecord_line hrow hm id) hrecords) 0

end Import

end SimplyTransport

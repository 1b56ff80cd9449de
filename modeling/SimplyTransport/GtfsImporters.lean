import SimplyTransport.StaticTables
import SimplyTransport.TimeDateConversions

/-!
# The static importers

A file is what the CSV reader makes of it: a header and rows of its length. The ORM importers
look a row up by the names of the header, the copying importers by the columns that they find
for their fields once; only these strip a byte order mark. Both stop at the first row that
cannot be read.
-/

namespace SimplyTransport

structure CsvFile where
  header : List String
  rows : List (List String)
  full : ∀ row ∈ rows, row.length = header.length

abbrev CsvRow := String → Except PyError String

def lstripBom (s : String) : String :=
  String.ofList (s.toList.dropWhile (fun c => c = '\ufeff'))

def resolvedHeader : List String → List String
  | [] => []
  | name :: names => lstripBom name :: names

def csvColumnIndexes (header names : List String) : Except PyError (List (String × ℕ)) :=
  let resolved := resolvedHeader header
  let missing := names.filter (fun name => name ∉ resolved)
  if missing ≠ [] then .error .valueError
  else .ok (names.map (fun name => (name, resolved.idxOf name)))

def copyRow (col : List (String × ℕ)) (row : List String) : CsvRow := fun name =>
  match col.lookup name with
  | none => .error .keyError
  | some i =>
    match row[i]? with
    | none => .error .indexError
    | some value => .ok value

/-- A row of `DictReader`: the last of two columns with one name counts. -/
def dictRow (header row : List String) : CsvRow := fun name =>
  match (header.zip row).reverse.lookup name with
  | none => .error .keyError
  | some value => .ok value

def optionalInt (value : String) : Except PyError (Option ℤ) :=
  if value = "" then .ok none else do return some (← pyInt value.toList)

def intField (row : CsvRow) (name : String) : Except PyError ℤ := do pyInt (← row name).toList

def optionalIntField (row : CsvRow) (name : String) : Except PyError (Option ℤ) := do
  optionalInt (← row name)

def timeField (row : CsvRow) (name : String) : Except PyError Time := do
  convert29HoursTo24Hours (← row name)

def dateField (row : CsvRow) (name : String) : Except PyError Date := do
  convertJoinedDateToDate (← row name)

def tripCsvFields : List String :=
  ["trip_id", "route_id", "service_id", "shape_id", "trip_headsign", "trip_short_name",
    "direction_id", "block_id"]

def stopTimeCsvFields : List String :=
  ["trip_id", "arrival_time", "departure_time", "stop_id", "stop_sequence", "stop_headsign",
    "pickup_type", "drop_off_type", "timepoint"]

def routeTypes : List ℤ := [0, 1, 2, 3, 4, 5, 6, 7, 11, 12]

section Records

variable (dataset : String) (row : CsvRow)

def tripRecord : Except PyError TripModel := do
  let id ← row "trip_id"
  let routeId ← row "route_id"
  let serviceId ← row "service_id"
  let shapeId ← row "shape_id"
  let headsign ← row "trip_headsign"
  let shortName ← row "trip_short_name"
  let direction ← intField row "direction_id"
  let blockId ← row "block_id"
  return ⟨id, routeId, serviceId, shapeId, headsign, shortName, direction, blockId, dataset⟩

/-- The record wants its serial number yet. -/
def stopTimeRecord : Except PyError (ℤ → StopTimeModel) := do
  let tripId ← row "trip_id"
  let arrivalTime ← timeField row "arrival_time"
  let departureTime ← timeField row "departure_time"
  let stopId ← row "stop_id"
  let stopSequence ← intField row "stop_sequence"
  let stopHeadsign ← row "stop_headsign"
  let pickupType ← optionalIntField row "pickup_type"
  let dropoffType ← optionalIntField row "drop_off_type"
  let timepoint ← optionalIntField row "timepoint"
  return fun id =>
    ⟨id, tripId, arrivalTime, departureTime, stopId, stopSequence, stopHeadsign, pickupType,
      dropoffType, timepoint, dataset⟩

def calendarModelOf : Except PyError CalendarModel := do
  let id ← row "service_id"
  let monday ← intField row "monday"
  let tuesday ← intField row "tuesday"
  let wednesday ← intField row "wednesday"
  let thursday ← intField row "thursday"
  let friday ← intField row "friday"
  let saturday ← intField row "saturday"
  let sunday ← intField row "sunday"
  let startDate ← dateField row "start_date"
  let endDate ← dateField row "end_date"
  return ⟨id, monday, tuesday, wednesday, thursday, friday, saturday, sunday, startDate, endDate,
    dataset⟩

def exceptionTypeOf (value : String) : Except PyError ExceptionType :=
  if value = "1" then .ok .added
  else if value = "2" then .ok .removed
  else .error .valueError

/-- The model has no serial number until it is added. -/
def calendarDateModelOf : Except PyError (ℤ → CalendarDateModel) := do
  let exceptionType ← exceptionTypeOf (← row "exception_type")
  let serviceId ← row "service_id"
  let date ← dateField row "date"
  return fun id => ⟨id, serviceId, date, exceptionType, dataset⟩

def routeModelOf : Except PyError RouteModel := do
  let id ← row "route_id"
  let agencyId ← row "agency_id"
  let shortName ← row "route_short_name"
  let longName ← row "route_long_name"
  let description ← row "route_desc"
  let routeType ← intField row "route_type"
  if routeType ∉ routeTypes then .error .valueError else
  let url ← row "route_url"
  let color ← row "route_color"
  let textColor ← row "route_text_color"
  return ⟨id, agencyId, shortName, longName, description, routeType, url, color, textColor,
    dataset⟩

/-- The coordinates are passed over. -/
def stopModelOf : Except PyError StopModel := do
  let id ← row "stop_id"
  let code ← row "stop_code"
  let name ← row "stop_name"
  let description ← row "stop_desc"
  let _lat ← row "stop_lat"
  let _lon ← row "stop_lon"
  let zoneId ← row "zone_id"
  let url ← row "stop_url"
  let locationType ← optionalIntField row "location_type"
  let parentStation ← row "parent_station"
  return ⟨id, code, name, description, zoneId, url, locationType,
    if parentStation = "" then none else some parentStation, dataset⟩

end Records

def ormImport {α : Type} (file : CsvFile) (buildModel : CsvRow → Except PyError α) :
    Except PyError (List α) :=
  file.rows.mapM (fun row => buildModel (dictRow file.header row))

def copyImport {α : Type} (file : CsvFile) (csvFields : List String)
    (recordFromRow : CsvRow → Except PyError α) : Except PyError (List α) := do
  let col ← csvColumnIndexes file.header csvFields
  file.rows.mapM (fun row => recordFromRow (copyRow col row))

structure GtfsFiles where
  calendar : CsvFile
  calendarDates : CsvFile
  routes : CsvFile
  stops : CsvFile
  trips : CsvFile
  stopTimes : CsvFile

/-- The tables after the files are imported into a database without other datasets. `dateSerial` and
`serial` are the serial numbers of the calendar dates and the stop times. -/
def importFiles (files : GtfsFiles) (dataset : String) (dateSerial serial : ℕ → ℤ) :
    Except PyError StaticDatabase := do
  let calendars ← ormImport files.calendar (calendarModelOf dataset)
  let calendarDates ← ormImport files.calendarDates (calendarDateModelOf dataset)
  let routes ← ormImport files.routes (routeModelOf dataset)
  let stops ← ormImport files.stops (stopModelOf dataset)
  let trips ← copyImport files.trips tripCsvFields (tripRecord dataset)
  let stopTimes ← copyImport files.stopTimes stopTimeCsvFields (stopTimeRecord dataset)
  if h : (calendars.map (fun c => c.id)).Nodup ∧ (routes.map (fun r => r.id)).Nodup ∧
      (stops.map (fun s => s.id)).Nodup ∧ (trips.map (fun t => t.id)).Nodup then
    return {
      routes := routes
      calendars := calendars
      calendarDates := calendarDates.zipIdx.map (fun p => p.1 (dateSerial p.2))
      stops := stops
      trips := trips
      stopTimes := stopTimes.zipIdx.map (fun p => p.1 (serial p.2))
      routes_nodup := h.2.1
      calendars_nodup := h.1
      stops_nodup := h.2.2.1
      trips_nodup := h.2.2.2 }
  else .error .integrityError

theorem importFiles_ok {files : GtfsFiles} {dataset : String} {dateSerial serial : ℕ → ℤ}
    {db : StaticDatabase} (h : importFiles files dataset dateSerial serial = .ok db) :
    ormImport files.calendar (calendarModelOf dataset) = .ok db.calendars ∧
    (∃ dates, ormImport files.calendarDates (calendarDateModelOf dataset) = .ok dates ∧
      db.calendarDates = dates.zipIdx.map (fun p => p.1 (dateSerial p.2))) ∧
    ormImport files.routes (routeModelOf dataset) = .ok db.routes ∧
    ormImport files.stops (stopModelOf dataset) = .ok db.stops ∧
    copyImport files.trips tripCsvFields (tripRecord dataset) = .ok db.trips ∧
    ∃ records, copyImport files.stopTimes stopTimeCsvFields (stopTimeRecord dataset) =
      .ok records ∧ db.stopTimes = records.zipIdx.map (fun p => p.1 (serial p.2)) := by
  obtain ⟨calendars, hcalendars, h⟩ := bind_eq_ok.1 h
  obtain ⟨calendarDates, hdates, h⟩ := bind_eq_ok.1 h
  obtain ⟨routes, hroutes, h⟩ := bind_eq_ok.1 h
  obtain ⟨stops, hstops, h⟩ := bind_eq_ok.1 h
  obtain ⟨trips, htrips, h⟩ := bind_eq_ok.1 h
  obtain ⟨records, hrecords, h⟩ := bind_eq_ok.1 h
  split_ifs at h
  obtain rfl := Except.ok.inj h
  exact ⟨hcalendars, ⟨calendarDates, hdates, rfl⟩, hroutes, hstops, htrips, records, hrecords, rfl⟩

end SimplyTransport

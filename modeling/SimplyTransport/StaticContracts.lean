import SimplyTransport.ApiEnums
import SimplyTransport.DatasetTables

/-!
# The responses of the static tables

The endpoints of the timetable return its rows as they are stored, with the values of enumerations
under their names. A row is rejected exactly where one of its numbers is of no member, and a response
determines the row that it was made of.
-/

namespace SimplyTransport

namespace ApiContracts

structure Route where
  id : String
  agencyId : String
  shortName : String
  longName : String
  description : String
  routeType : RouteType
  url : String
  color : String
  textColor : String
  dataset : String

structure Trip where
  id : String
  routeId : String
  serviceId : String
  shapeId : String
  headsign : String
  shortName : String
  direction : Direction
  blockId : String
  dataset : String

structure Stop (φ : Type) where
  id : String
  code : String
  name : String
  description : String
  lat : φ
  lon : φ
  zoneId : String
  url : String
  locationType : Option LocationType
  parentStation : Option String
  dataset : String

structure StopTime where
  id : ℤ
  tripId : String
  arrivalTime : Time
  departureTime : Time
  stopId : String
  stopSequence : ℤ
  stopHeadsign : String
  pickupType : Option PickupType
  dropoffType : Option DropoffType
  timepoint : Option Timepoint
  dataset : String

structure CalendarDate where
  id : ℤ
  serviceId : String
  date : Date
  exceptionType : ExceptionType
  dataset : String

structure StaticSchedule where
  route : Route
  stopTime : StopTime
  trip : Trip
  isAddedException : Bool

section Validation

variable {φ : Type}

def Route.modelValidate (row : RouteModel) : Except PyError Route := do
  let routeType ← enumField SimplyTransport.RouteType.enum RouteType.enum row.routeType
  return ⟨row.id, row.agencyId, row.shortName, row.longName, row.description, routeType, row.url,
    row.color, row.textColor, row.dataset⟩

def Trip.modelValidate (row : TripModel) : Except PyError Trip := do
  let direction ← directionField row.direction
  return ⟨row.id, row.routeId, row.serviceId, row.shapeId, row.headsign, row.shortName, direction,
    row.blockId, row.dataset⟩

def Stop.modelValidate (row : StopRow φ) : Except PyError (Stop φ) := do
  let locationType ← optionalEnumField SimplyTransport.LocationType.enum LocationType.enum
    row.locationType
  return ⟨row.id, row.code, row.name, row.description, row.lat, row.lon, row.zoneId, row.url,
    locationType, row.parentStation, row.dataset⟩

def StopTime.modelValidate (row : StopTimeModel) : Except PyError StopTime := do
  let pickupType ← optionalEnumField SimplyTransport.PickupType.enum PickupType.enum row.pickupType
  let dropoffType ← optionalEnumField SimplyTransport.DropoffType.enum DropoffType.enum
    row.dropoffType
  let timepoint ← optionalEnumField SimplyTransport.Timepoint.enum Timepoint.enum row.timepoint
  return ⟨row.id, row.tripId, row.arrivalTime, row.departureTime, row.stopId, row.stopSequence,
    row.stopHeadsign, pickupType, dropoffType, timepoint, row.dataset⟩

def CalendarDate.modelValidate (row : CalendarDateModel) : Except PyError CalendarDate := do
  let exceptionType ← enumField SimplyTransport.ExceptionType.enum ExceptionType.enum
    row.exceptionType.value
  return ⟨row.id, row.serviceId, row.date, exceptionType, row.dataset⟩

def StaticSchedule.modelValidate (schedule : StaticScheduleModel) :
    Except PyError StaticSchedule := do
  let route ← Route.modelValidate schedule.route
  let stopTime ← StopTime.modelValidate schedule.stopTime
  let trip ← Trip.modelValidate schedule.trip
  return ⟨route, stopTime, trip, schedule.isAddedException⟩

/-- The responses for rows of the tables. Those of agencies, calendars and shapes have the fields of
the row. -/
abbrev Contract (φ : Type) : StaticTable → Type
  | .agency => AgencyRow
  | .calendar => CalendarModel
  | .calendarDate => CalendarDate
  | .route => Route
  | .stop => Stop φ
  | .trip => Trip
  | .stopTime => StopTime
  | .shape => ShapeModel φ

def modelValidate : (t : StaticTable) → t.Row φ → Except PyError (Contract φ t)
  | .agency, row => .ok row
  | .calendar, row => .ok row
  | .calendarDate, row => CalendarDate.modelValidate row
  | .route, row => Route.modelValidate row
  | .stop, row => Stop.modelValidate row
  | .trip, row => Trip.modelValidate row
  | .stopTime, row => StopTime.modelValidate row
  | .shape, row => .ok row

def Enumerated : (t : StaticTable) → t.Row φ → Prop
  | .route, row => ∃ e, SimplyTransport.RouteType.enum.value e = row.routeType
  | .stop, row => ∀ n ∈ row.locationType, ∃ e, SimplyTransport.LocationType.enum.value e = n
  | .trip, row => ∃ e, SimplyTransport.Direction.enum.value e = row.direction
  | .stopTime, row => (∀ n ∈ row.pickupType, ∃ e, SimplyTransport.PickupType.enum.value e = n) ∧
      (∀ n ∈ row.dropoffType, ∃ e, SimplyTransport.DropoffType.enum.value e = n) ∧
      ∀ n ∈ row.timepoint, ∃ e, SimplyTransport.Timepoint.enum.value e = n
  | .agency, _ | .calendar, _ | .calendarDate, _ | .shape, _ => True

end Validation

section Accepted

variable {φ : Type}

theorem accepted_route {row : RouteModel} :
    Accepted (Route.modelValidate row) ↔ Enumerated (φ := φ) .route row := by
  change _ ↔ ∃ e, SimplyTransport.RouteType.enum.value e = row.routeType
  rw [← accepted_enumField routeType_names]
  constructor
  · rintro ⟨_, h⟩
    obtain ⟨x, hx, -⟩ := bind_eq_ok.1 h
    exact ⟨x, hx⟩
  · rintro ⟨x, hx⟩
    exact ⟨_, bind_eq_ok.2 ⟨x, hx, rfl⟩⟩

theorem accepted_trip {row : TripModel} :
    Accepted (Trip.modelValidate row) ↔ Enumerated (φ := φ) .trip row := by
  change _ ↔ ∃ e, SimplyTransport.Direction.enum.value e = row.direction
  rw [← accepted_enumField direction_names, ← directionField_eq]
  constructor
  · rintro ⟨_, h⟩
    obtain ⟨x, hx, -⟩ := bind_eq_ok.1 h
    exact ⟨x, hx⟩
  · rintro ⟨x, hx⟩
    exact ⟨_, bind_eq_ok.2 ⟨x, hx, rfl⟩⟩

theorem accepted_stop {row : StopRow φ} :
    Accepted (Stop.modelValidate row) ↔ Enumerated .stop row := by
  change _ ↔ ∀ n ∈ row.locationType, ∃ e, SimplyTransport.LocationType.enum.value e = n
  rw [← accepted_optionalEnumField locationType_names]
  constructor
  · rintro ⟨_, h⟩
    obtain ⟨x, hx, -⟩ := bind_eq_ok.1 h
    exact ⟨x, hx⟩
  · rintro ⟨x, hx⟩
    exact ⟨_, bind_eq_ok.2 ⟨x, hx, rfl⟩⟩

theorem accepted_stopTime {row : StopTimeModel} :
    Accepted (StopTime.modelValidate row) ↔ Enumerated (φ := φ) .stopTime row := by
  change _ ↔ (∀ n ∈ row.pickupType, ∃ e, SimplyTransport.PickupType.enum.value e = n) ∧
    (∀ n ∈ row.dropoffType, ∃ e, SimplyTransport.DropoffType.enum.value e = n) ∧
    ∀ n ∈ row.timepoint, ∃ e, SimplyTransport.Timepoint.enum.value e = n
  rw [← accepted_optionalEnumField pickupType_names,
    ← accepted_optionalEnumField dropoffType_names, ← accepted_optionalEnumField timepoint_names]
  constructor
  · rintro ⟨_, h⟩
    obtain ⟨pickup, hpickup, h⟩ := bind_eq_ok.1 h
    obtain ⟨dropoff, hdropoff, h⟩ := bind_eq_ok.1 h
    obtain ⟨timepoint, htimepoint, -⟩ := bind_eq_ok.1 h
    exact ⟨⟨pickup, hpickup⟩, ⟨dropoff, hdropoff⟩, ⟨timepoint, htimepoint⟩⟩
  · rintro ⟨⟨pickup, hpickup⟩, ⟨dropoff, hdropoff⟩, ⟨timepoint, htimepoint⟩⟩
    exact ⟨_, bind_eq_ok.2 ⟨pickup, hpickup, bind_eq_ok.2 ⟨dropoff, hdropoff,
      bind_eq_ok.2 ⟨timepoint, htimepoint, rfl⟩⟩⟩⟩

theorem accepted_calendarDate (row : CalendarDateModel) :
    Accepted (CalendarDate.modelValidate row) := by
  have hfield := (accepted_enumField exceptionType_names).2 ⟨row.exceptionType, rfl⟩
  obtain ⟨x, hx⟩ := hfield
  exact ⟨_, bind_eq_ok.2 ⟨x, hx, rfl⟩⟩

/-- A response is made of exactly the rows whose numbers are those of members. -/
theorem accepted_modelValidate (t : StaticTable) (row : t.Row φ) :
    Accepted (modelValidate t row) ↔ Enumerated t row := by
  cases t with
  | agency => exact iff_of_true ⟨row, rfl⟩ trivial
  | calendar => exact iff_of_true ⟨row, rfl⟩ trivial
  | calendarDate => exact iff_of_true (accepted_calendarDate row) trivial
  | route => exact accepted_route
  | stop => exact accepted_stop
  | trip => exact accepted_trip
  | stopTime => exact accepted_stopTime
  | shape => exact iff_of_true ⟨row, rfl⟩ trivial

theorem accepted_staticSchedule {schedule : StaticScheduleModel} :
    Accepted (StaticSchedule.modelValidate schedule) ↔
      Enumerated (φ := φ) .route schedule.route ∧ Enumerated (φ := φ) .stopTime schedule.stopTime ∧
        Enumerated (φ := φ) .trip schedule.trip := by
  rw [← accepted_route, ← accepted_stopTime, ← accepted_trip]
  constructor
  · rintro ⟨_, h⟩
    obtain ⟨route, hroute, h⟩ := bind_eq_ok.1 h
    obtain ⟨stopTime, hstopTime, h⟩ := bind_eq_ok.1 h
    obtain ⟨trip, htrip, -⟩ := bind_eq_ok.1 h
    exact ⟨⟨route, hroute⟩, ⟨stopTime, hstopTime⟩, ⟨trip, htrip⟩⟩
  · rintro ⟨⟨route, hroute⟩, ⟨stopTime, hstopTime⟩, ⟨trip, htrip⟩⟩
    exact ⟨_, bind_eq_ok.2 ⟨route, hroute, bind_eq_ok.2 ⟨stopTime, hstopTime,
      bind_eq_ok.2 ⟨trip, htrip, rfl⟩⟩⟩⟩

end Accepted

section Rows

variable {φ : Type}

theorem route_inj {row row' : RouteModel} {x : Route} (h : Route.modelValidate row = .ok x)
    (h' : Route.modelValidate row' = .ok x) : row = row' := by
  obtain ⟨type, htype, hx⟩ := bind_eq_ok.1 h
  obtain ⟨type', htype', hx'⟩ := bind_eq_ok.1 h'
  obtain rfl := Except.ok.inj hx
  injection Except.ok.inj hx' with hid hagency hshort hlong hdescription htypes hurl hcolor htext hset
  subst htypes
  have hnumber := enumField_inj routeType_names htype' htype
  cases row
  cases row'
  congr 1 <;> symm <;> assumption

theorem trip_inj {row row' : TripModel} {x : Trip} (h : Trip.modelValidate row = .ok x)
    (h' : Trip.modelValidate row' = .ok x) : row = row' := by
  obtain ⟨direction, hdirection, hx⟩ := bind_eq_ok.1 h
  obtain ⟨direction', hdirection', hx'⟩ := bind_eq_ok.1 h'
  obtain rfl := Except.ok.inj hx
  injection Except.ok.inj hx' with hid hroute hservice hshape hhead hshort hdirections hblock hset
  subst hdirections
  rw [directionField_eq] at hdirection hdirection'
  have hnumber := enumField_inj direction_names hdirection' hdirection
  cases row
  cases row'
  congr 1 <;> symm <;> assumption

theorem stop_inj {row row' : StopRow φ} {x : Stop φ} (h : Stop.modelValidate row = .ok x)
    (h' : Stop.modelValidate row' = .ok x) : row = row' := by
  obtain ⟨location, hlocation, hx⟩ := bind_eq_ok.1 h
  obtain ⟨location', hlocation', hx'⟩ := bind_eq_ok.1 h'
  obtain rfl := Except.ok.inj hx
  injection Except.ok.inj hx' with hid hcode hname hdescription hlat hlon hzone hurl hlocations
    hparent hset
  subst hlocations
  have hnumber := optionalEnumField_inj locationType_names hlocation' hlocation
  obtain ⟨model, lat, lon⟩ := row
  obtain ⟨model', lat', lon'⟩ := row'
  cases model
  cases model'
  congr 1
  congr 1 <;> symm <;> assumption
  · exact hlat.symm
  · exact hlon.symm

theorem stopTime_inj {row row' : StopTimeModel} {x : StopTime}
    (h : StopTime.modelValidate row = .ok x) (h' : StopTime.modelValidate row' = .ok x) :
    row = row' := by
  obtain ⟨pickup, hpickup, hx⟩ := bind_eq_ok.1 h
  obtain ⟨dropoff, hdropoff, hx⟩ := bind_eq_ok.1 hx
  obtain ⟨timepoint, htimepoint, hx⟩ := bind_eq_ok.1 hx
  obtain ⟨pickup', hpickup', hx'⟩ := bind_eq_ok.1 h'
  obtain ⟨dropoff', hdropoff', hx'⟩ := bind_eq_ok.1 hx'
  obtain ⟨timepoint', htimepoint', hx'⟩ := bind_eq_ok.1 hx'
  obtain rfl := Except.ok.inj hx
  injection Except.ok.inj hx' with hid htrip harrival hdeparture hstop hsequence hhead hpickups
    hdropoffs htimepoints hset
  subst hpickups hdropoffs htimepoints
  have hpickup := optionalEnumField_inj pickupType_names hpickup' hpickup
  have hdropoff := optionalEnumField_inj dropoffType_names hdropoff' hdropoff
  have htimepoint := optionalEnumField_inj timepoint_names htimepoint' htimepoint
  cases row
  cases row'
  congr 1 <;> symm <;> assumption

theorem calendarDate_inj {row row' : CalendarDateModel} {x : CalendarDate}
    (h : CalendarDate.modelValidate row = .ok x) (h' : CalendarDate.modelValidate row' = .ok x) :
    row = row' := by
  obtain ⟨type, htype, hx⟩ := bind_eq_ok.1 h
  obtain ⟨type', htype', hx'⟩ := bind_eq_ok.1 h'
  obtain rfl := Except.ok.inj hx
  injection Except.ok.inj hx' with hid hservice hdate htypes hset
  subst htypes
  have hvalue := enumField_inj exceptionType_names htype' htype
  have htype := List.inj_on_of_nodup_map SimplyTransport.ExceptionType.enum.values_nodup
    (SimplyTransport.ExceptionType.enum.complete _) (SimplyTransport.ExceptionType.enum.complete _)
    hvalue
  cases row
  cases row'
  congr 1 <;> symm <;> assumption

/-- A response determines the row. -/
theorem modelValidate_inj (t : StaticTable) {row row' : t.Row φ} {x : Contract φ t}
    (h : modelValidate t row = .ok x) (h' : modelValidate t row' = .ok x) : row = row' := by
  cases t with
  | agency => exact Except.ok.inj (h.trans h'.symm)
  | calendar => exact Except.ok.inj (h.trans h'.symm)
  | calendarDate => exact calendarDate_inj h h'
  | route => exact route_inj h h'
  | stop => exact stop_inj h h'
  | trip => exact trip_inj h h'
  | stopTime => exact stopTime_inj h h'
  | shape => exact Except.ok.inj (h.trans h'.symm)

end Rows

end ApiContracts

end SimplyTransport

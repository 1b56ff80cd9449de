import SimplyTransport.DateTime

/-!
# The static GTFS tables

The rows of the tables that the schedules are read from, without the coordinates of the stops.
`id` is the primary key of routes, calendars, stops and trips across all datasets; a stop time
has no key but its serial number.
-/

namespace SimplyTransport

inductive ExceptionType
  | added
  | removed
  deriving DecidableEq

structure AgencyModel where
  id : String
  name : String
  dataset : String
  deriving DecidableEq

structure RouteModel where
  id : String
  agencyId : String
  shortName : String
  longName : String
  description : String
  routeType : ℤ
  url : String
  color : String
  textColor : String
  dataset : String
  deriving DecidableEq

structure CalendarModel where
  id : String
  monday : ℤ
  tuesday : ℤ
  wednesday : ℤ
  thursday : ℤ
  friday : ℤ
  saturday : ℤ
  sunday : ℤ
  startDate : Date
  endDate : Date
  dataset : String
  deriving DecidableEq

structure CalendarDateModel where
  id : ℤ
  serviceId : String
  date : Date
  exceptionType : ExceptionType
  dataset : String
  deriving DecidableEq

structure StopModel where
  id : String
  code : String
  name : String
  description : String
  zoneId : String
  url : String
  locationType : Option ℤ
  parentStation : Option String
  dataset : String
  deriving DecidableEq

structure TripModel where
  id : String
  routeId : String
  serviceId : String
  shapeId : String
  headsign : String
  shortName : String
  direction : ℤ
  blockId : String
  dataset : String
  deriving DecidableEq

structure StopTimeModel where
  id : ℤ
  tripId : String
  arrivalTime : Time
  departureTime : Time
  stopId : String
  stopSequence : ℤ
  stopHeadsign : String
  pickupType : Option ℤ
  dropoffType : Option ℤ
  timepoint : Option ℤ
  dataset : String
  deriving DecidableEq

structure StaticScheduleModel where
  route : RouteModel
  stopTime : StopTimeModel
  calendar : CalendarModel
  stop : StopModel
  trip : TripModel
  isAddedException : Bool
  deriving DecidableEq

structure StaticDatabase where
  routes : List RouteModel
  calendars : List CalendarModel
  calendarDates : List CalendarDateModel
  stops : List StopModel
  trips : List TripModel
  stopTimes : List StopTimeModel
  routes_nodup : (routes.map (fun r => r.id)).Nodup
  calendars_nodup : (calendars.map (fun c => c.id)).Nodup
  stops_nodup : (stops.map (fun s => s.id)).Nodup
  trips_nodup : (trips.map (fun t => t.id)).Nodup

def CalendarModel.weekdayFlags (c : CalendarModel) : List ℤ :=
  [c.monday, c.tuesday, c.wednesday, c.thursday, c.friday, c.saturday, c.sunday]

def CalendarModel.isActiveOnDate (c : CalendarModel) (date : Date) : Bool :=
  if ¬ (c.startDate ≤ date ∧ date ≤ c.endDate) then false
  else c.weekdayFlags.getD date.weekday.toNat 0 = 1

def StaticScheduleModel.isActiveOnDate (s : StaticScheduleModel) (date : Date) : Bool :=
  s.calendar.isActiveOnDate date

theorem CalendarModel.isActiveOnDate_iff (c : CalendarModel) (date : Date) :
    c.isActiveOnDate date = true ↔ (c.startDate ≤ date ∧ date ≤ c.endDate) ∧
      c.weekdayFlags.getD date.weekday.toNat 0 = 1 := by
  by_cases h : c.startDate ≤ date ∧ date ≤ c.endDate
  · simp [isActiveOnDate, h]
  · simp [isActiveOnDate, h]

end SimplyTransport

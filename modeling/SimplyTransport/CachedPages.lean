import SimplyTransport.DelaysRepo
import SimplyTransport.StopSchedule

/-!
# The pages of a stop, a route and a trip

The contexts of the templates, or `none` where the page says that nothing was found. The features
of a stop are only handed on.
-/

namespace SimplyTransport

inductive Direction
  | outbound
  | inbound
  deriving DecidableEq

def Direction.value : Direction → ℤ
  | .outbound => 0
  | .inbound => 1

/-- What a request reads at an instant: the tables, and the clock of the database rows and on the
wall. -/
structure Instant (φ : Type) where
  db : StaticDatabase
  agencies : List AgencyModel
  stopFeatures : List (String × φ)
  rtTrips : List RTTripModel
  rtStopTimes : List RTStopTimeModel
  delays : List TSStopTimeRow
  nowUtc : DateTime
  now : DateTime

structure StopPage (φ : Type) where
  stop : StopModel
  stopFeature : Option φ
  routes : List RouteModel
  dayString : String
  dayInt : ℤ

structure RoutePage where
  route : RouteModel
  agency : Option AgencyModel
  stops : List (StopModel × ℤ)
  direction : Direction

structure TripPage where
  rtSchedules : List RealtimeScheduleModel
  directionString : String
  primeSchedule : StaticScheduleModel

def getRoutesByStopId (db : StaticDatabase) (stopId : String) : List RouteModel :=
  db.routes.filter (fun route => db.trips.any (fun trip => trip.routeId = route.id ∧
    db.stopTimes.any (fun st => st.tripId = trip.id ∧ st.stopId = stopId)))

/-- The stops on a route, each with the sequence numbers that it has there. -/
def getByRouteIdWithSequence (db : StaticDatabase) (routeId : String) (direction : Direction) :
    List (StopModel × ℤ) :=
  let rows := db.stopTimes.flatMap (fun st =>
    (db.stops.filter (fun stop => stop.id = st.stopId)).flatMap (fun stop =>
      (db.trips.filter (fun trip => trip.id = st.tripId ∧ trip.direction = direction.value ∧
        trip.routeId = routeId ∧ routeId ∈ db.routes.map (fun r => r.id))).map (fun _ =>
          (stop, st.stopSequence))))
  rows.dedup.mergeSort (fun a b => a.2 ≤ b.2)

def getByTripId (db : StaticDatabase) (tripId : String) : List StaticScheduleModel :=
  executeStaticSchedules db (fun s => s.trip.id = tripId)

section Pages

variable {φ : Type} (x : Instant φ)

def realtimeStop (stopId : String) : Option (StopPage φ) :=
  (x.db.stops.find? (fun stop => stop.id = stopId)).map (fun stop =>
    { stop := stop
      stopFeature := x.stopFeatures.lookup stop.id
      routes := (getRoutesByStopId x.db stop.id).mergeSort (fun r r' => r.shortName ≤ r'.shortName)
      dayString := (DayOfWeek.ofDate x.now.date).capitalizedName
      dayInt := x.now.date.weekday })

def realtimeRoute (routeId : String) (direction : Direction) : Option RoutePage :=
  (x.db.routes.find? (fun route => route.id = routeId)).map (fun route =>
    { route := route
      agency := x.agencies.find? (fun agency => agency.id = route.agencyId)
      stops := getByRouteIdWithSequence x.db route.id direction
      direction := direction })

/-- There are as many realtime schedules as schedules, so the first one is missing only where no
schedule is found. -/
def realtimeTrip (tripId : String) : Option TripPage :=
  let schedules := applyCustom2300Sorting (fun s => s.stopTime.arrivalTime)
    (getByTripId x.db tripId)
  let realtimeSchedules := applyCustom2300Sorting (fun r => r.realArrivalTime)
    (getRealtimeSchedulesForStaticSchedules x.rtTrips x.rtStopTimes x.nowUtc x.now schedules)
  realtimeSchedules.head?.map (fun r =>
    { rtSchedules := realtimeSchedules
      directionString := 
        if r.staticSchedule.trip.direction = (0 : ℤ) then "Southbound" else "Northbound"
      primeSchedule := r.staticSchedule })

end Pages

end SimplyTransport

import SimplyTransport.StaticTables

/-!
# The realtime tables

A snapshot record has the columns that an import copies; the row adds its serial number.
Relationships are stored as strings and compared with the values of the enumeration.
-/

namespace SimplyTransport

inductive ScheduleRelationship
  | scheduled
  | skipped
  | noData
  | unscheduled
  | added
  | canceled
  | replacement
  | duplicated
  | new
  | deleted
  deriving DecidableEq

def ScheduleRelationship.value : ScheduleRelationship → String
  | .scheduled => "SCHEDULED"
  | .skipped => "SKIPPED"
  | .noData => "NO_DATA"
  | .unscheduled => "UNSCHEDULED"
  | .added => "ADDED"
  | .canceled => "CANCELED"
  | .replacement => "REPLACEMENT"
  | .duplicated => "DUPLICATED"
  | .new => "NEW"
  | .deleted => "DELETED"

/-- The relationships that remove a trip from normal service. -/
def removedTripRelationships : List String :=
  [ScheduleRelationship.canceled.value, ScheduleRelationship.deleted.value]

structure RtTripRecord where
  tripId : String
  routeId : String
  startTime : Time
  startDate : Date
  scheduleRelationship : String
  direction : ℤ
  entityId : String
  dataset : String
  createdAt : DateTime
  deriving DecidableEq

structure RtStopTimeRecord where
  stopId : String
  tripId : String
  stopSequence : ℤ
  scheduleRelationship : String
  arrivalDelay : Option ℤ
  departureDelay : Option ℤ
  entityId : String
  dataset : String
  createdAt : DateTime
  deriving DecidableEq

structure RTTripModel extends RtTripRecord where
  id : ℤ
  deriving DecidableEq

structure RTStopTimeModel extends RtStopTimeRecord where
  id : ℤ
  deriving DecidableEq

structure RTVehicleModel where
  id : ℤ
  vehicleId : ℤ
  tripId : String
  timeOfUpdate : DateTime
  dataset : String
  createdAt : DateTime
  deriving DecidableEq

def RtTripRecord.key (r : RtTripRecord) : String × String × String :=
  (r.tripId, r.routeId, r.dataset)

def RtStopTimeRecord.key (r : RtStopTimeRecord) : String × String × ℤ × String :=
  (r.stopId, r.tripId, r.stopSequence, r.dataset)

def RtTripRecord.isRemoved (r : RtTripRecord) : Bool :=
  r.scheduleRelationship ∈ removedTripRelationships

def UniqueTrips (rows : List RTTripModel) : Prop := (rows.map (fun r => r.key)).Nodup

def UniqueStopTimes (rows : List RTStopTimeModel) : Prop := (rows.map (fun r => r.key)).Nodup

instance (rows : List RTTripModel) : Decidable (UniqueTrips rows) :=
  inferInstanceAs (Decidable (List.Nodup _))

instance (rows : List RTStopTimeModel) : Decidable (UniqueStopTimes rows) :=
  inferInstanceAs (Decidable (List.Nodup _))

end SimplyTransport

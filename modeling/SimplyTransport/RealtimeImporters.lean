import SimplyTransport.IdRanges
import SimplyTransport.OrderedDict
import SimplyTransport.RealtimeTables
import SimplyTransport.TimeDateConversions

/-!
# The realtime importer

A payload is a list of entities. Fields that are absent and fields that are null are the same
here, and so are an absent object and an empty one. The builder turns each trip update of a
known trip into a trip record and its stop updates into stop records, and keeps the last record
of each key.
-/

namespace SimplyTransport

/-- A leaf value of a payload. A number out of the range of a float is read as an infinity. -/
inductive JsonScalar
  | str (s : String)
  | int (n : ℤ)
  | float (q : ℚ)
  | infinity (negative : Bool)
  | nan

def JsonScalar.truthy : JsonScalar → Bool
  | .str s => s ≠ ""
  | .int n => n ≠ 0
  | .float q => q ≠ 0
  | .infinity _ => true
  | .nan => true

def JsonScalar.toInt : JsonScalar → Except PyError ℤ
  | .str s => pyInt s.toList
  | .int n => .ok n
  | .float q => .ok (truncate q)
  | .infinity _ => .error .overflowError
  | .nan => .error .valueError

structure TripDescriptor where
  tripId : Option String
  routeId : Option String
  startTime : Option JsonScalar
  startDate : Option JsonScalar
  scheduleRelationship : Option String
  directionId : Option JsonScalar

structure TripProperties where
  tripId : Option String
  startDate : Option JsonScalar

/-- The delays are those of the arrival and departure events. -/
structure StopTimeUpdate where
  stopId : Option String
  stopSequence : Option JsonScalar
  scheduleRelationship : Option String
  arrivalDelay : Option ℤ
  departureDelay : Option ℤ

structure TripUpdate where
  trip : TripDescriptor
  tripProperties : TripProperties
  stopTimeUpdate : List StopTimeUpdate

structure FeedEntity where
  id : Option String
  tripUpdate : Option TripUpdate

def truthy (o : Option String) : Option String := o.filter (fun s => s ≠ "")

def tripDescriptorRelationship (trip : TripDescriptor) : String :=
  (truthy trip.scheduleRelationship).getD ScheduleRelationship.scheduled.value

/-- The trip id in the database: that of the properties for a duplicated trip, where it has one. -/
def effectiveTripIdForTripUpdate (u : TripUpdate) : Option String :=
  if tripDescriptorRelationship u.trip = ScheduleRelationship.duplicated.value ∧
      (truthy u.tripProperties.tripId).isSome then
    truthy u.tripProperties.tripId
  else truthy u.trip.tripId

def skipStopTimeImportForTripRelationship (rel : String) : Bool :=
  rel ∈ [ScheduleRelationship.canceled.value, ScheduleRelationship.deleted.value]

def parseRtStartTime (timeStr : Option JsonScalar) : Except PyError Time :=
  match timeStr.filter JsonScalar.truthy with
  | none => .ok Time.midnight
  | some (.str s) => convert29HoursTo24Hours s
  | some _ => .error .attributeError

def parseRtStartDate (dateStr : Option JsonScalar) (fallback : Date) : Except PyError Date :=
  match dateStr.filter JsonScalar.truthy with
  | none => .ok fallback
  | some (.str s) => convertJoinedDateToDate s
  | some _ => .error .typeError

def collectTripUpdateFeedIds (data : List FeedEntity) : List String × List String :=
  let updates := data.filterMap (fun item => item.tripUpdate)
  (updates.filterMap effectiveTripIdForTripUpdate,
    (updates.filter (fun u =>
      ! skipStopTimeImportForTripRelationship (tripDescriptorRelationship u.trip))).flatMap
        (fun u => u.stopTimeUpdate.filterMap (fun st => truthy st.stopId)))

/-- Route and direction of the trips, and the stops, that the dataset has of the ids. -/
def loadRealtimeLookups (trips : List TripModel) (stops : List StopModel) (dataset : String)
    (tripIds stopIds : List String) : OrderedDict String (String × ℤ) × List String :=
  (OrderedDict.collect (fun t => t.id) (fun t => some (t.routeId, t.direction))
      (trips.filter (fun t => t.dataset = dataset ∧ t.id ∈ tripIds)),
    (stops.filter (fun s => s.dataset = dataset ∧ s.id ∈ stopIds)).map (fun s => s.id))

section Build

variable (dataset : String) (tripDir : OrderedDict String (String × ℤ)) (stopsInDb : List String)
  (createdAt : DateTime) (today : Date)

/-- The trip, route and static direction under which a trip update is recorded. -/
def contribution (u : TripUpdate) : Option (String × String × ℤ) := do
  let tripId ← effectiveTripIdForTripUpdate u
  let (staticRouteId, staticDirection) ← tripDir.get? tripId
  let routeId ← (truthy u.trip.routeId).or (truthy (some staticRouteId))
  return (tripId, routeId, staticDirection)

def StopTimeUpdate.knownStop (st : StopTimeUpdate) : Option String :=
  (truthy st.stopId).filter (fun sid => sid ∈ stopsInDb)

/-- The record of a stop update; one without a known stop and a sequence is passed over, and so
is one whose sequence is refused with one of the two errors that are caught. -/
def stopTimeRecordOf (tripId entityId : String) (st : StopTimeUpdate) :
    Except PyError (Option RtStopTimeRecord) :=
  match st.knownStop stopsInDb, st.stopSequence with
  | some sid, some rawSeq =>
    match rawSeq.toInt with
    | .error .typeError => .ok none
    | .error .valueError => .ok none
    | .error e => .error e
    | .ok stopSeq =>
      .ok (some {
        stopId := sid
        tripId := tripId
        stopSequence := stopSeq
        scheduleRelationship :=
          (truthy st.scheduleRelationship).getD ScheduleRelationship.scheduled.value
        arrivalDelay := st.arrivalDelay
        departureDelay := st.departureDelay
        entityId := entityId
        dataset := dataset
        createdAt := createdAt })
  | _, _ => .ok none

/-- The stop records of a trip update; a trip that does not run has none. -/
def stopTimeRecords (tripId entityId : String) (u : TripUpdate) :
    Except PyError (List RtStopTimeRecord) :=
  if skipStopTimeImportForTripRelationship (tripDescriptorRelationship u.trip) then .ok [] else do
    let records ← u.stopTimeUpdate.mapM
      (stopTimeRecordOf dataset stopsInDb createdAt tripId entityId)
    return records.reduceOption

def entityRecords (item : FeedEntity) :
    Except PyError (Option (RtTripRecord × List RtStopTimeRecord)) :=
  match item.tripUpdate with
  | none => .ok none
  | some u =>
    match contribution tripDir u with
    | none => .ok none
    | some (tripId, routeId, staticDirection) => do
      let rel := tripDescriptorRelationship u.trip
      let direction ← (u.trip.directionId.map JsonScalar.toInt).getD (.ok staticDirection)
      let startTime ← parseRtStartTime u.trip.startTime
      let startDate ← parseRtStartDate
        ((u.trip.startDate.filter JsonScalar.truthy).or u.tripProperties.startDate) today
      let entityId := (truthy item.id).getD ""
      let stops ← stopTimeRecords dataset stopsInDb createdAt tripId entityId u
      return some ({
        tripId := tripId
        routeId := routeId
        startTime := startTime
        startDate := startDate
        scheduleRelationship := rel
        direction := direction
        entityId := entityId
        dataset := dataset
        createdAt := createdAt }, stops)

def dedupRecordsByKey {α κ : Type} [DecidableEq κ] (key : α → κ) (records : List α) : List α :=
  (OrderedDict.lastBy key records).values

/-- The trip and stop records of a list of entities, before the last of each key is chosen. -/
def feedRecords (data : List FeedEntity) :
    Except PyError (List RtTripRecord × List RtStopTimeRecord) := do
  let parts ← data.mapM (entityRecords dataset tripDir stopsInDb createdAt today)
  return (parts.filterMap (fun p => p.map Prod.fst),
    parts.flatMap (fun p => (p.map Prod.snd).getD []))

def buildRtTripAndStopTimeRecords (data : List FeedEntity) :
    Except PyError (List RtTripRecord × List RtStopTimeRecord) := do
  let (tripRecords, stopRecords) ← feedRecords dataset tripDir stopsInDb createdAt today data
  return (dedupRecordsByKey RtTripRecord.key tripRecords,
    dedupRecordsByKey RtStopTimeRecord.key stopRecords)

end Build

def importRecords (trips : List TripModel) (stops : List StopModel) (dataset : String)
    (createdAt : DateTime) (today : Date) (data : List FeedEntity) :
    Except PyError (List RtTripRecord × List RtStopTimeRecord) :=
  let ids := collectTripUpdateFeedIds data
  let lookups := loadRealtimeLookups trips stops dataset ids.1 ids.2
  buildRtTripAndStopTimeRecords dataset lookups.1 lookups.2 createdAt today data

/-- The rows of `dataset` are replaced by `records`, with consecutive ids from `firstId`. -/
def snapshotCopyTable {α β : Type} (datasetOf : β → String) (withId : ℤ → α → β) (rows : List β)
    (records : List α) (dataset : String) (firstId : ℤ) : List β :=
  rows.filter (fun r => datasetOf r ≠ dataset) ++
    (IdRanges.recordsWithIds records firstId).map (fun p => withId p.1 p.2)

def rtTripWithId (id : ℤ) (r : RtTripRecord) : RTTripModel := ⟨r, id⟩

def rtStopTimeWithId (id : ℤ) (r : RtStopTimeRecord) : RTStopTimeModel := ⟨r, id⟩

def snapshotRtTrip (rows : List RTTripModel) (records : List RtTripRecord) (dataset : String)
    (firstId : ℤ) : List RTTripModel :=
  snapshotCopyTable (fun r => r.dataset) rtTripWithId rows records dataset firstId

def snapshotRtStopTime (rows : List RTStopTimeModel) (records : List RtStopTimeRecord)
    (dataset : String) (firstId : ℤ) : List RTStopTimeModel :=
  snapshotCopyTable (fun r => r.dataset) rtStopTimeWithId rows records dataset firstId

end SimplyTransport

import SimplyTransport.RealtimeImporters

/-!
# The vehicle importer

`build_rt_vehicle_records` turns each vehicle of a known trip with an id, a timestamp and a
position into a record, and keeps the last record of each vehicle. A vehicle object that is null
raises, one that is absent does not.
-/

namespace SimplyTransport

/-- `datetime.fromtimestamp(seconds, tz=UTC)` without its zone. The seconds have 64 bits and the
year that `gmtime` makes of them 32, less 1900. -/
def DateTime.fromTimestamp (seconds : ℤ) : Except PyError DateTime :=
  if -62135596800 ≤ seconds ∧ seconds ≤ 253402300799 then
    .ok ⟨719163 * dayMicros + seconds * 1000000⟩
  else if seconds < -2 ^ 63 ∨ 2 ^ 63 ≤ seconds then .error .overflowError
  else if seconds < -67768040609740800 ∨ 67768036191676799 < seconds then .error .osError
  else .error .valueError

theorem DateTime.fromTimestamp_ok {seconds : ℤ} {d : DateTime}
    (h : DateTime.fromTimestamp seconds = .ok d) :
    d = ⟨719163 * dayMicros + seconds * 1000000⟩ := by
  unfold fromTimestamp at h
  split_ifs at h
  exact (Except.ok.inj h).symm

inductive JsonField (α : Type)
  | absent
  | null
  | value (a : α)

/-- The part of an entity under `vehicle`: the trip's id, the vehicle's descriptor with its id,
the timestamp and the position. -/
structure VehicleUpdate where
  tripId : Option String
  vehicle : JsonField (Option JsonScalar)
  timestamp : Option JsonScalar
  latitude : Option JsonScalar
  longitude : Option JsonScalar

structure VehicleEntity where
  vehicle : Option VehicleUpdate

def VehicleUpdate.vehicleId (u : VehicleUpdate) : Except PyError (Option JsonScalar) :=
  match u.vehicle with
  | .absent => .ok none
  | .null => .error .attributeError
  | .value id => .ok id

def collectVehicleTripIds (data : List VehicleEntity) : List String :=
  data.filterMap (fun item => item.vehicle.bind (fun u => truthy u.tripId))

structure RtVehicleRecord where
  vehicleId : ℤ
  tripId : String
  timeOfUpdate : DateTime
  lat : JsonScalar
  lon : JsonScalar
  dataset : String
  createdAt : DateTime

def RtVehicleRecord.key (r : RtVehicleRecord) : ℤ × String := (r.vehicleId, r.dataset)

/-- A row with the position, which the queries over vehicles do not read. -/
structure RTVehicleRow extends RTVehicleModel where
  lat : JsonScalar
  lon : JsonScalar

def rtVehicleWithId (id : ℤ) (r : RtVehicleRecord) : RTVehicleRow :=
  ⟨⟨id, r.vehicleId, r.tripId, r.timeOfUpdate, r.dataset, r.createdAt⟩, r.lat, r.lon⟩

def RTVehicleRow.toRecord (r : RTVehicleRow) : RtVehicleRecord :=
  ⟨r.vehicleId, r.tripId, r.timeOfUpdate, r.lat, r.lon, r.dataset, r.createdAt⟩

section Build

variable (dataset : String) (tripDir : OrderedDict String (String × ℤ)) (createdAt : DateTime)

def rtVehicleRecord (tripId : String) (vid ts lat lon : JsonScalar) :
    Except PyError RtVehicleRecord := do
  let vehicleId ← vid.toInt
  let timeOfUpdate ← ts.toInt >>= DateTime.fromTimestamp
  return {
    vehicleId := vehicleId
    tripId := tripId
    timeOfUpdate := timeOfUpdate
    lat := lat
    lon := lon
    dataset := dataset
    createdAt := createdAt }

def vehicleRecordOf (item : VehicleEntity) : Except PyError (Option RtVehicleRecord) :=
  match item.vehicle with
  | none => .ok none
  | some u =>
    match (truthy u.tripId).filter (fun t => (tripDir.get? t).isSome) with
    | none => .ok none
    | some tripId => do
      match ← u.vehicleId, u.timestamp, u.latitude, u.longitude with
      | some vid, some ts, some lat, some lon =>
        return some (← rtVehicleRecord dataset createdAt tripId vid ts lat lon)
      | _, _, _, _ => return none

def buildRtVehicleRecords (data : List VehicleEntity) : Except PyError (List RtVehicleRecord) := do
  let records ← data.mapM (vehicleRecordOf dataset tripDir createdAt)
  return dedupRecordsByKey RtVehicleRecord.key records.reduceOption

end Build

theorem rtVehicleRecord_createdAt (dataset : String) (createdAt createdAt' : DateTime)
    (tripId : String) (vid ts lat lon : JsonScalar) :
    rtVehicleRecord dataset createdAt' tripId vid ts lat lon =
      (rtVehicleRecord dataset createdAt tripId vid ts lat lon).map
        (fun r => { r with createdAt := createdAt' }) := by
  unfold rtVehicleRecord
  cases vid.toInt with
  | error e => rfl
  | ok vehicleId => cases ts.toInt >>= DateTime.fromTimestamp <;> rfl

/-- Nothing of a record but its instant of creation depends on that instant. -/
theorem vehicleRecordOf_createdAt (dataset : String) (tripDir : OrderedDict String (String × ℤ))
    (createdAt createdAt' : DateTime) (item : VehicleEntity) :
    vehicleRecordOf dataset tripDir createdAt' item =
      (vehicleRecordOf dataset tripDir createdAt item).map
        (fun p => p.map (fun r => { r with createdAt := createdAt' })) := by
  unfold vehicleRecordOf
  cases item.vehicle with
  | none => rfl
  | some u =>
      simp only
      cases (truthy u.tripId).filter (fun t => (tripDir.get? t).isSome) with
      | none => rfl
      | some tripId =>
          simp only
          cases u.vehicleId with
          | error e => rfl
          | ok vid =>
              cases vid with
              | none => rfl
              | some vid =>
                  cases u.timestamp <;> cases u.latitude <;> cases u.longitude <;> try rfl
                  next ts lat lon =>
                    have hrecord := rtVehicleRecord_createdAt dataset createdAt createdAt' tripId
                      vid ts lat lon
                    simp only [bind, Except.bind, hrecord]
                    cases rtVehicleRecord dataset createdAt tripId vid ts lat lon <;> rfl

theorem vehicleRecordOf_dataset {dataset : String} {tripDir : OrderedDict String (String × ℤ)}
    {createdAt : DateTime} {item : VehicleEntity} {r : RtVehicleRecord}
    (h : vehicleRecordOf dataset tripDir createdAt item = .ok (some r)) : r.dataset = dataset := by
  unfold vehicleRecordOf at h
  split at h
  · cases h
  · split at h
    · cases h
    · obtain ⟨vid, _, h⟩ := bind_eq_ok.1 h
      split at h
      · obtain ⟨record, hrecord, h⟩ := bind_eq_ok.1 h
        obtain ⟨vehicleId, _, hrecord⟩ := bind_eq_ok.1 hrecord
        obtain ⟨timeOfUpdate, _, hrecord⟩ := bind_eq_ok.1 hrecord
        rw [← Option.some.inj (Except.ok.inj h), ← Except.ok.inj hrecord]
      · cases h

end SimplyTransport

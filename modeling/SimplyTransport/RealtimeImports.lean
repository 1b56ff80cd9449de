import SimplyTransport.DatasetImports
import SimplyTransport.RestrictedLookups
import SimplyTransport.SnapshotSemantics

/-!
# The database under imports

The imports change a database one after the other: a static import empties the realtime tables
before it clears and fills its own, and an import of trip updates or of vehicles looks trips and
stops up and replaces the rows of its dataset in a transaction for each of its tables. Any of them
may raise, and what is committed until then stays.
-/

namespace SimplyTransport.RealtimeImports
open Transaction SnapshotCopy

structure Database (φ : Type) where
  static : StaticDb φ
  rtTrip : SnapshotCopy.State RTTripModel
  rtStopTime : SnapshotCopy.State RTStopTimeModel
  rtVehicle : SnapshotCopy.State RTVehicleRow

abbrev Fault := String → Statement → Option PyError

section Imports

variable {φ : Type} (fault : Fault) (dataset : String) (createdAt : DateTime)

def importTripUpdates (today : Date) (data : List FeedEntity) :
    Prog PyError (Database φ) Unit := do
  let db ← read (fun db => db.static)
  let records ← ofExcept (importRecords (db.rows .trip) ((db.rows .stop).map (fun s => s.toStopModel))
    dataset createdAt today data)
  zoom (fun db => db.rtTrip) (fun db t => { db with rtTrip := t })
    (SnapshotCopy.snapshotCopyTable rtTrip (fault "rt_trip") records.1 dataset)
  zoom (fun db => db.rtStopTime) (fun db t => { db with rtStopTime := t })
    (SnapshotCopy.snapshotCopyTable rtStopTime (fault "rt_stop_time") records.2 dataset)

def importVehicles (data : List VehicleEntity) : Prog PyError (Database φ) Unit := do
  let db ← read (fun db => db.static)
  let tripDir := loadRealtimeImportSharedContext (db.rows .trip) dataset (collectVehicleTripIds data)
  let records ← ofExcept (buildRtVehicleRecords dataset tripDir createdAt data)
  zoom (fun db => db.rtVehicle) (fun db t => { db with rtVehicle := t })
    (SnapshotCopy.snapshotCopyTable rtVehicle (fault "rt_vehicle") records dataset)

end Imports

section Runs

variable {φ : Type} (pyFloat : String → Except PyError φ)

def Database.clearRealtimeTables (db : Database φ) : Database φ :=
  { db with rtTrip := ⟨[], 0⟩, rtStopTime := ⟨[], 0⟩, rtVehicle := ⟨[], 0⟩ }

inductive Step : Database φ → Database φ → Prop
  | static {db : Database φ} {static : StaticDb φ} :
      ImportRun pyFloat db.static static →
      Step db { db.clearRealtimeTables with static := static }
  | tripUpdates (db : Database φ) (fault : Fault) (dataset : String) (createdAt : DateTime)
      (today : Date) (data : List FeedEntity) :
      Step db ((importTripUpdates fault dataset createdAt today data).run db).2
  | vehicles (db : Database φ) (fault : Fault) (dataset : String) (createdAt : DateTime)
      (data : List VehicleEntity) :
      Step db ((importVehicles fault dataset createdAt data).run db).2

theorem noKeys_nodup (t : StaticTable) :
    (([] : List (t.Row φ)).filterMap t.key).Nodup := List.nodup_nil

def emptyDatabase : Database φ where
  static := ⟨fun _ => [], [], noKeys_nodup, fun _ hf => absurd hf List.not_mem_nil⟩
  rtTrip := ⟨[], 0⟩
  rtStopTime := ⟨[], 0⟩
  rtVehicle := ⟨[], 0⟩

def Reachable (db : Database φ) : Prop := Relation.ReflTransGen (Step pyFloat) emptyDatabase db

def VehiclesUnique (db : Database φ) : Prop :=
  (db.rtVehicle.rows.map (fun r => r.toRecord.key)).Nodup

end Runs

section Invariant

variable {φ : Type} {pyFloat : String → Except PyError φ} {db db' : Database φ}

theorem buildRtVehicleRecords_keys {dataset : String} {tripDir : OrderedDict String (String × ℤ)}
    {createdAt : DateTime} {data : List VehicleEntity} {records : List RtVehicleRecord}
    (h : buildRtVehicleRecords dataset tripDir createdAt data = .ok records) :
    (records.map RtVehicleRecord.key).Nodup ∧ ∀ r ∈ records, r.dataset = dataset := by
  obtain ⟨out, hout, h⟩ := bind_eq_ok.1 h
  obtain ⟨_, hof, _⟩ := mapM_vehicleRecordOf hout
  rw [← Except.ok.inj h]
  exact ⟨OrderedDict.nodup_lastBy_values _ _,
    fun r hr => hof r (OrderedDict.mem_of_mem_lastBy_values hr)⟩

theorem importTripUpdates_keeps (db : Database φ) (fault : Fault) (dataset : String)
    (createdAt : DateTime) (today : Date) (data : List FeedEntity) :
    Ends (importTripUpdates fault dataset createdAt today data) db
      (fun _ db' => db'.rtVehicle = db.rtVehicle) (fun db' => db'.rtVehicle = db.rtVehicle) := by
  have htable : ∀ {α β : Type} {t : Table α β} {fault : Statement → Option PyError}
      {records : List α} {s : SnapshotCopy.State β},
      Ends (SnapshotCopy.snapshotCopyTable t fault records dataset) s (fun _ _ => True)
        (fun _ => True) := by
    intros
    unfold Ends
    split <;> trivial
  refine ends_bind (ends_read (ends_bind (ends_ofExcept (fun records _ => ?_) rfl)))
  refine ends_bind (ends_zoom (htable.mono (fun _ _ _ => ?_) (fun _ _ => rfl)))
  exact ends_zoom (htable.mono (fun _ _ _ => rfl) (fun _ _ => rfl))

theorem importVehicles_unique (h : VehiclesUnique db) (fault : Fault) (dataset : String)
    (createdAt : DateTime) (data : List VehicleEntity) :
    Ends (importVehicles fault dataset createdAt data) db (fun _ => VehiclesUnique)
      VehiclesUnique := by
  refine ends_bind (ends_read (ends_bind (ends_ofExcept (fun records hrecords => ?_) h)))
  obtain ⟨hkeys, hof⟩ := buildRtVehicleRecords_keys hrecords
  exact ends_zoom (snapshotCopyTable_keys (fun a b hab => (Prod.mk.inj hab).2) hkeys hof h)

theorem step_vehiclesUnique (h : VehiclesUnique db) (hstep : Step pyFloat db db') :
    VehiclesUnique db' := by
  cases hstep with
  | static _ => exact List.nodup_nil
  | tripUpdates fault dataset createdAt today data =>
      have hends := importTripUpdates_keeps db fault dataset createdAt today data
      rw [VehiclesUnique, hends.run]
      exact h
  | vehicles fault dataset createdAt data =>
      exact (importVehicles_unique h fault dataset createdAt data).run

/-- However the imports went, no dataset has a vehicle twice. -/
theorem reachable_vehiclesUnique (h : Reachable pyFloat db) : VehiclesUnique db := by
  induction h with
  | refl => exact List.nodup_nil
  | tail _ hstep ih => exact step_vehiclesUnique ih hstep

end Invariant

end SimplyTransport.RealtimeImports

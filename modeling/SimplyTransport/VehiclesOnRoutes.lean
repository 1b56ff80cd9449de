import SimplyTransport.CsvColumns
import SimplyTransport.Joins
import SimplyTransport.RealtimeImports
import SimplyTransport.RealtimeVehicles

/-!
# The newest vehicles, once each

In every database that imports leave, `get_vehicles_on_routes` returns newest rows only. The joins
with the static tables match a row once, by a primary key; the join with `rt_trip` matches every
row of the trip, and there may be one for each route that a feed names with it. So a vehicle is
returned as often as its trip has rows that do not mark it removed, not for the latest of them.
-/

namespace SimplyTransport.RealtimeImports

section Query

variable {φ : Type} (db : Database φ)

def Database.vehicles : List RTVehicleModel := db.rtVehicle.rows.map (fun r => r.toRTVehicleModel)

def Database.agencies : List AgencyModel := (db.static.rows .agency).map (fun a => a.toAgencyModel)

variable (routeIds : List String) (direction : ℤ)

def Database.vehiclesOnRoutes (excludeRemovedTrips : Bool) : List RTVehicleModel :=
  getVehiclesOnRoutes db.vehicles (db.static.rows .trip) (db.static.rows .route) db.agencies
    db.rtTrip.rows routeIds direction excludeRemovedTrips

def OnRoutes (v : RTVehicleModel) (t : TripModel) : Prop :=
  v ∈ db.vehicles ∧ t ∈ db.static.rows .trip ∧ t.id = v.tripId ∧ t.routeId ∈ routeIds ∧
    t.direction = direction

def Newest (v : RTVehicleModel) : Prop :=
  ∀ w u, OnRoutes db routeIds direction w u → w.vehicleId = v.vehicleId →
    w.timeOfUpdate ≤ v.timeOfUpdate

def HasAgency (t : TripModel) : Prop :=
  ∃ r ∈ db.static.rows .route, r.id = t.routeId ∧ ∃ a ∈ db.agencies, a.id = r.agencyId

def liveRows (t : TripModel) : List RTTripModel :=
  db.rtTrip.rows.filter (fun r => (r.tripId = t.id ∧ r.dataset = t.dataset) ∧ ! r.isRemoved)

/-- Each vehicle that is newest on the routes has a trip with at most one such row. -/
def OneLiveRow : Prop :=
  ∀ v t, OnRoutes db routeIds direction v t → Newest db routeIds direction v → HasAgency db t →
    (liveRows db t).length ≤ 1

def vehicleKey (v : RTVehicleModel) : ℤ × String := (v.vehicleId, v.dataset)

/-- Each vehicle of a dataset comes once, with its newest row on the routes. -/
structure NewestOnce (excludeRemovedTrips : Bool) : Prop where
  once : ((db.vehiclesOnRoutes routeIds direction excludeRemovedTrips).map vehicleKey).Nodup
  newest : ∀ v ∈ db.vehiclesOnRoutes routeIds direction excludeRemovedTrips,
    (∃ t, OnRoutes db routeIds direction v t) ∧ Newest db routeIds direction v

def joined : List (RTVehicleModel × TripModel) :=
  (vehiclesOnTrips db.vehicles (db.static.rows .trip) routeIds direction).flatMap (fun p =>
    ((db.static.rows .route).filter (fun r => r.id = p.2.routeId)).flatMap (fun r =>
      (db.agencies.filter (fun a => a.id = r.agencyId)).map (fun _ => p)))

def newestJoined : List (RTVehicleModel × TripModel) :=
  (joined db routeIds direction).filter (fun p => (p.1.timeOfUpdate : WithBot DateTime) =
    maxTimeOfUpdate db.vehicles (db.static.rows .trip) routeIds direction p.1.vehicleId)

def copies (excludeRemovedTrips : Bool) (p : RTVehicleModel × TripModel) : List RTVehicleModel :=
  if excludeRemovedTrips then
    ((outerJoinRtTrip db.rtTrip.rows p.2).filter isNotRemoved).map (fun _ => p.1)
  else [p.1]

end Query

section Rows

variable {φ : Type} {db : Database φ} {routeIds : List String} {direction : ℤ}
  {excludeRemovedTrips : Bool}

theorem vehiclesOnRoutes_perm (db : Database φ) (routeIds : List String) (direction : ℤ)
    (excludeRemovedTrips : Bool) :
    (db.vehiclesOnRoutes routeIds direction excludeRemovedTrips).Perm
      ((newestJoined db routeIds direction).flatMap (copies db excludeRemovedTrips)) :=
  List.mergeSort_perm _ _

theorem mem_joined {p : RTVehicleModel × TripModel} :
    p ∈ joined db routeIds direction ↔
      OnRoutes db routeIds direction p.1 p.2 ∧ HasAgency db p.2 := by
  rw [joined, List.mem_flatMap]
  simp only [List.mem_flatMap, List.mem_map, List.mem_filter, decide_eq_true_eq]
  constructor
  · rintro ⟨q, hq, r, ⟨hr, hrid⟩, a, ⟨ha, haid⟩, rfl⟩
    exact ⟨mem_vehiclesOnTrips.1 hq, r, hr, hrid, a, ha, haid⟩
  · rintro ⟨hp, r, hr, hrid, a, ha, haid⟩
    exact ⟨p, mem_vehiclesOnTrips.2 hp, r, ⟨hr, hrid⟩, a, ⟨ha, haid⟩, rfl⟩

theorem eq_maxTimeOfUpdate_iff {v : RTVehicleModel} {t : TripModel}
    (h : OnRoutes db routeIds direction v t) :
    (v.timeOfUpdate : WithBot DateTime) =
        maxTimeOfUpdate db.vehicles (db.static.rows .trip) routeIds direction v.vehicleId ↔
      Newest db routeIds direction v := by
  rw [maxTimeOfUpdate, eq_comm, List.maximum_eq_coe_iff]
  constructor
  · rintro ⟨_, hmax⟩ w u hw hid
    exact hmax _ (List.mem_map.2 ⟨(w, u),
      List.mem_filter.2 ⟨mem_vehiclesOnTrips.2 hw, decide_eq_true hid⟩, rfl⟩)
  · intro hnewest
    refine ⟨List.mem_map.2 ⟨(v, t),
      List.mem_filter.2 ⟨mem_vehiclesOnTrips.2 h, decide_eq_true rfl⟩, rfl⟩, ?_⟩
    intro time htime
    obtain ⟨⟨w, u⟩, hw, rfl⟩ := List.mem_map.1 htime
    obtain ⟨hw, hid⟩ := List.mem_filter.1 hw
    exact hnewest w u (mem_vehiclesOnTrips.1 hw) (of_decide_eq_true hid)

theorem mem_newestJoined {p : RTVehicleModel × TripModel} :
    p ∈ newestJoined db routeIds direction ↔ OnRoutes db routeIds direction p.1 p.2 ∧
      HasAgency db p.2 ∧ Newest db routeIds direction p.1 := by
  rw [newestJoined, List.mem_filter, mem_joined, decide_eq_true_eq, and_assoc]
  refine and_congr_right (fun hp => and_congr_right (fun _ => ?_))
  exact eq_maxTimeOfUpdate_iff hp

theorem mem_copies {p : RTVehicleModel × TripModel} {v : RTVehicleModel}
    (h : v ∈ copies db excludeRemovedTrips p) : v = p.1 := by
  unfold copies at h
  split_ifs at h
  · obtain ⟨_, _, rfl⟩ := List.mem_map.1 h
    rfl
  · exact List.mem_singleton.1 h

/-- The row of nulls is one; else the rows that do not mark the trip count. -/
theorem length_copies (p : RTVehicleModel × TripModel) :
    (copies db excludeRemovedTrips p).length ≤ 1 ↔
      (excludeRemovedTrips = true → (liveRows db p.2).length ≤ 1) := by
  unfold copies
  cases excludeRemovedTrips with
  | false => exact iff_of_true (Nat.le_refl 1) nofun
  | true =>
      have hlive : ((db.rtTrip.rows.filter (fun r => r.tripId = p.2.id ∧ r.dataset = p.2.dataset)).map
          some).filter isNotRemoved = (liveRows db p.2).map some := by
        rw [List.filter_map, List.filter_filter, liveRows]
        congr 1
        apply List.filter_congr
        intro r _
        simp [isNotRemoved, Bool.and_comm]
      rw [if_pos rfl, List.length_map, outerJoinRtTrip]
      split_ifs with hrows
      · have hnone : liveRows db p.2 = [] := by
          have hmap := hlive
          rw [List.isEmpty_iff.1 hrows] at hmap
          exact List.map_eq_nil_iff.1 hmap.symm
        exact iff_of_true (Nat.le_refl 1) (fun _ => by rw [hnone]; exact Nat.zero_le 1)
      · rw [hlive, List.length_map]
        exact ⟨fun h _ => h, fun h => h rfl⟩

theorem key_nodup (t : StaticTable) (idOf : t.Row φ → String)
    (hkey : ∀ r, t.key r = some (idOf r)) : ((db.static.rows t).map idOf).Nodup := by
  have hnodup := db.static.keys_nodup t
  have hsome : t.key = some ∘ idOf := funext hkey
  rwa [hsome, ← List.filterMap_map, List.filterMap_some] at hnodup

/-- Where no dataset has a vehicle twice, neither has what is joined. -/
theorem newestJoined_nodup (h : VehiclesUnique db) :
    ((newestJoined db routeIds direction).map (fun p => vehicleKey p.1)).Nodup := by
  have hvehicles : (db.vehicles.map vehicleKey).Nodup := by
    rw [Database.vehicles, List.map_map]
    exact h
  have htrips : ((vehiclesOnTrips db.vehicles (db.static.rows .trip) routeIds direction).map
      (fun p => vehicleKey p.1)).Nodup := by
    refine (Joins.nodup_map_flatMap_iff (fun v _ p hp => ?_) hvehicles).2 (fun v _ => ?_)
    · obtain ⟨_, _, rfl⟩ := List.mem_map.1 hp
      rfl
    · rw [List.length_map]
      refine le_trans (List.Sublist.length_le (List.monotone_filter_right _ (fun t ht => ?_)))
        (Joins.length_filter_le_one (key_nodup .trip (fun t => t.id) (fun _ => rfl)) v.tripId)
      rw [decide_eq_true_eq] at ht ⊢
      exact ht.1
  have hjoined : ((joined db routeIds direction).map (fun p => vehicleKey p.1)).Nodup := by
    refine (Joins.nodup_map_flatMap_iff (fun p _ q hq => ?_) htrips).2 (fun p _ => ?_)
    · obtain ⟨_, _, hq⟩ := List.mem_flatMap.1 hq
      obtain ⟨_, _, rfl⟩ := List.mem_map.1 hq
      rfl
    · refine Joins.length_flatMap_le_one (Joins.length_filter_le_one
        (key_nodup .route (fun r => r.id) (fun _ => rfl)) _) (fun r _ => ?_)
      rw [List.length_map]
      refine Joins.length_filter_le_one ?_ _
      rw [Database.agencies, List.map_map]
      exact key_nodup .agency (fun a => a.id) (fun _ => rfl)
  exact hjoined.sublist (List.filter_sublist.map _)

end Rows

section Sample

def noFloat (_ : String) : Except PyError ℚ := .error .valueError

def sampleFile (t : StaticTable) (row : List String) (h : row.length = t.csvFields.length) :
    CsvFile :=
  ⟨t.csvFields, [row], List.forall_mem_singleton.2 h⟩

def agenciesFile : CsvFile := sampleFile .agency ["7", "Dublin Bus", "", "Europe/Dublin"] rfl

def routesFile : CsvFile := sampleFile .route ["R1", "7", "1", "", "", "3", "", "", ""] rfl

def tripsFile : CsvFile := sampleFile .trip ["T1", "R1", "S1", "", "", "", "0", ""] rfl

def sampleFiles : StaticTable → Option CsvFile
  | .agency => some agenciesFile
  | .route => some routesFile
  | .trip => some tripsFile
  | _ => none

def sampleAgency : AgencyRow := ⟨⟨"7", "Dublin Bus", "TFI"⟩, "", "Europe/Dublin"⟩

def sampleRoute : RouteModel := ⟨"R1", "7", "1", "", "", 3, "", "", "", "TFI"⟩

def sampleTrip : TripModel := ⟨"T1", "R1", "S1", "", "", "", 0, "", "TFI"⟩

theorem fill_one {t : StaticTable} {ts : List StaticTable} {db cleared filled db' : StaticDb ℚ}
    {file : CsvFile} {record : ℤ → t.Row ℚ} (hfile : sampleFiles t = some file)
    (hclear : db.clearTable t "TFI" = some cleared)
    (hdata : ImportData file (importer noFloat "TFI" t) [record] true)
    (hinsert : cleared.insert t [record 0] = some filled)
    (h : ImportTables noFloat "TFI" sampleFiles ts filled db' true) :
    ImportTables noFloat "TFI" sampleFiles (t :: ts) db db' true :=
  .fill hfile hclear hdata (List.length_singleton (a := 0)) hinsert h

def sampleRows : (t : StaticTable) → List (t.Row ℚ)
  | .agency => [sampleAgency]
  | .route => [sampleRoute]
  | .trip => [sampleTrip]
  | .calendar | .calendarDate | .stop | .stopTime | .shape => []

theorem sampleRows_nodup (t : StaticTable) : ((sampleRows t).filterMap t.key).Nodup := by
  cases t <;> decide

def sampleStatic : StaticDb ℚ :=
  ⟨sampleRows, [], sampleRows_nodup, fun _ hf => absurd hf List.not_mem_nil⟩

theorem sampleStatic_import : ImportRun noFloat (emptyDatabase : Database ℚ).static sampleStatic := by
  have hagencies : ImportData agenciesFile (importer noFloat "TFI" .agency)
      [fun _ => sampleAgency] true := importData_one rfl rfl
  have hroutes : ImportData routesFile (importer noFloat "TFI" .route)
      [fun _ => sampleRoute] true := importData_one rfl rfl
  have htrips : ImportData tripsFile (importer noFloat "TFI" .trip)
      [fun _ => sampleTrip] true := .copyReturns rfl
  have hrun : ∃ static : StaticDb ℚ,
      ImportTables noFloat "TFI" sampleFiles tablesToImport emptyDatabase.static static true ∧
        static.features = [] ∧ ∀ t, static.rows t = sampleRows t := by
    refine ⟨_, fill_one rfl rfl hagencies rfl (.skip rfl (.skip rfl (fill_one rfl rfl hroutes rfl
      (.skip rfl (fill_one rfl rfl htrips rfl (.skip rfl (.skip rfl (.nil _)))))))), rfl, ?_⟩
    intro t
    cases t <;> rfl
  obtain ⟨⟨rows, features, _, _⟩, htables, rfl, hrows⟩ := hrun
  obtain rfl : rows = sampleRows := funext hrows
  exact ⟨"TFI", sampleFiles, true, htables⟩

def twoUpdates : List FeedEntity :=
  ["R1", "R2"].map (fun routeId => ⟨some routeId, some {
    trip := ⟨some "T1", some routeId, none, none, none, none⟩
    tripProperties := ⟨none, none⟩
    stopTimeUpdate := [] }⟩)

def afterStatic : Database ℚ :=
  { (emptyDatabase : Database ℚ).clearRealtimeTables with static := sampleStatic }

def afterTripUpdates : Database ℚ :=
  ((importTripUpdates (fun _ _ => none) "TFI" ⟨0⟩ ⟨739000⟩ twoUpdates).run afterStatic).2

def afterVehicles : Database ℚ :=
  ((importVehicles (fun _ _ => none) "TFI" ⟨0⟩ [SnapshotCopy.oneVehicle]).run afterTripUpdates).2

theorem afterVehicles_reachable : Reachable noFloat afterVehicles := by
  have hstatic : Reachable noFloat afterStatic :=
    Relation.ReflTransGen.single (.static sampleStatic_import)
  have htrips : Reachable noFloat afterTripUpdates := hstatic.tail (.tripUpdates _ _ _ _ _ _)
  exact htrips.tail (.vehicles _ _ _ _ _)

def sampleVehicle : RTVehicleModel := ⟨1, 42, "T1", ⟨719163 * dayMicros⟩, "TFI", ⟨0⟩⟩

theorem afterVehicles_rows : afterVehicles.vehicles = [sampleVehicle] ∧
    (liveRows afterVehicles sampleTrip).length = 2 := ⟨rfl, rfl⟩

end Sample

section Claim

variable {φ : Type} {db : Database φ}

/-- A vehicle comes as often as its trip has rows that do not mark it removed. -/
theorem once_iff (h : VehiclesUnique db) (routeIds : List String) (direction : ℤ)
    (excludeRemovedTrips : Bool) :
    ((db.vehiclesOnRoutes routeIds direction excludeRemovedTrips).map vehicleKey).Nodup ↔
      (excludeRemovedTrips = true → OneLiveRow db routeIds direction) := by
  have hperm := vehiclesOnRoutes_perm db routeIds direction excludeRemovedTrips
  rw [(hperm.map vehicleKey).nodup_iff, Joins.nodup_map_flatMap_iff (fun p _ v hv => by
    rw [mem_copies hv]) (newestJoined_nodup h)]
  simp only [length_copies]
  constructor
  · intro hlive hexclude v t hon hnewest hagency
    exact hlive (v, t) (mem_newestJoined.2 ⟨hon, hagency, hnewest⟩) hexclude
  · intro hlive p hp hexclude
    obtain ⟨hon, hagency, hnewest⟩ := mem_newestJoined.1 hp
    exact hlive hexclude p.1 p.2 hon hnewest hagency

theorem newest_of_mem {routeIds : List String} {direction : ℤ} {excludeRemovedTrips : Bool}
    {v : RTVehicleModel} (hv : v ∈ db.vehiclesOnRoutes routeIds direction excludeRemovedTrips) :
    (∃ t, OnRoutes db routeIds direction v t) ∧ Newest db routeIds direction v := by
  obtain ⟨p, hp, hv⟩ := List.mem_flatMap.1 ((vehiclesOnRoutes_perm _ _ _ _).mem_iff.1 hv)
  obtain rfl := mem_copies hv
  obtain ⟨hon, _, hnewest⟩ := mem_newestJoined.1 hp
  exact ⟨⟨p.2, hon⟩, hnewest⟩

theorem sample_not_oneLiveRow : ¬ OneLiveRow afterVehicles ["R1"] 0 := by
  obtain ⟨hvehicles, hlive⟩ := afterVehicles_rows
  intro hone
  have hmem : sampleVehicle ∈ afterVehicles.vehicles := by
    rw [hvehicles]
    exact List.mem_cons_self
  have hle := hone sampleVehicle sampleTrip ⟨hmem, List.mem_cons_self, rfl, List.mem_cons_self, rfl⟩
    (fun w u hw _ => ?_)
    ⟨sampleRoute, List.mem_cons_self, rfl, _, List.mem_cons_self, rfl⟩
  · rw [hlive] at hle
    omega
  · have hw := hw.1
    rw [hvehicles, List.mem_singleton] at hw
    rw [hw]

/-- A feed that names a trip with two routes makes its vehicle come twice. -/
theorem vehicle_of_two_updates_comes_twice :
    ¬ ∀ (pyFloat : String → Except PyError ℚ) (db : Database ℚ), Reachable pyFloat db →
      ∀ routeIds direction excludeRemovedTrips,
        NewestOnce db routeIds direction excludeRemovedTrips := by
  intro hall
  have honce := (hall noFloat afterVehicles afterVehicles_reachable ["R1"] 0 true).once
  exact sample_not_oneLiveRow
    ((once_iff (reachable_vehiclesUnique afterVehicles_reachable) _ _ _).1 honce rfl)

/-- In a database that imports leave, each vehicle of a dataset comes once, with its newest row on
the routes, exactly where removed trips are not excluded or each newest vehicle's trip has at most
one row that does not mark it removed. -/
theorem vehicles_on_routes_once_iff (pyFloat : String → Except PyError φ) (db : Database φ)
    (h : Reachable pyFloat db) (routeIds : List String) (direction : ℤ)
    (excludeRemovedTrips : Bool) :
    NewestOnce db routeIds direction excludeRemovedTrips ↔
      (excludeRemovedTrips = true → OneLiveRow db routeIds direction) := by
  rw [← once_iff (reachable_vehiclesUnique h)]
  exact ⟨fun hnewest => hnewest.once, fun honce => ⟨honce, fun _ => newest_of_mem⟩⟩

theorem vehicles_on_routes_once_iff_sample :
    NewestOnce afterVehicles ["R1"] 0 true ↔
      (true = true → OneLiveRow afterVehicles ["R1"] 0) :=
  vehicles_on_routes_once_iff noFloat afterVehicles afterVehicles_reachable ["R1"] 0 true

end Claim

end SimplyTransport.RealtimeImports

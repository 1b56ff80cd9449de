import SimplyTransport.RealtimeTables
import Mathlib.Data.List.MinMax

/-!
# The newest vehicles on routes

`get_vehicles_on_routes` joins the vehicles with their trips, routes and agencies, keeps the
newest update of each vehicle, and drops the trips that `rt_trip` marks as removed. A join is a
list comprehension over the tables; a row appears once for each way in which it joins.
-/

namespace SimplyTransport

section Query

variable (vehicles : List RTVehicleModel) (trips : List TripModel) (routes : List RouteModel)
  (agencies : List AgencyModel) (rtTrips : List RTTripModel) (routeIds : List String)
  (direction : ℤ)

def vehiclesOnTrips : List (RTVehicleModel × TripModel) :=
  vehicles.flatMap (fun v =>
    (trips.filter (fun t =>
      t.id = v.tripId ∧ t.routeId ∈ routeIds ∧ t.direction = direction)).map (fun t => (v, t)))

/-- The subquery: the greatest `time_of_update` of a vehicle on the routes. -/
def maxTimeOfUpdate (vehicleId : ℤ) : WithBot DateTime :=
  (((vehiclesOnTrips vehicles trips routeIds direction).filter
    (fun p => p.1.vehicleId = vehicleId)).map (fun p => p.1.timeOfUpdate)).maximum

/-- The outer join with `rt_trip`: its rows, or one row of nulls. -/
def outerJoinRtTrip (t : TripModel) : List (Option RTTripModel) :=
  let rows := rtTrips.filter (fun r => r.tripId = t.id ∧ r.dataset = t.dataset)
  if rows.isEmpty then [none] else rows.map some

def isNotRemoved (row : Option RTTripModel) : Bool :=
  row.all (fun r => ! r.isRemoved)

def getVehiclesOnRoutes (excludeRemovedTrips : Bool) : List RTVehicleModel :=
  let joined := (vehiclesOnTrips vehicles trips routeIds direction).flatMap (fun p =>
    (routes.filter (fun r => r.id = p.2.routeId)).flatMap (fun r =>
      (agencies.filter (fun a => a.id = r.agencyId)).map (fun _ => p)))
  let newest := joined.filter (fun p => (p.1.timeOfUpdate : WithBot DateTime) =
    maxTimeOfUpdate vehicles trips routeIds direction p.1.vehicleId)
  let rows := newest.flatMap (fun p =>
    if excludeRemovedTrips then
      ((outerJoinRtTrip rtTrips p.2).filter isNotRemoved).map (fun _ => p.1)
    else [p.1])
  rows.mergeSort (fun v w => w.vehicleId ≤ v.vehicleId)

end Query

variable {vehicles : List RTVehicleModel} {trips : List TripModel} {routes : List RouteModel}
  {agencies : List AgencyModel} {rtTrips : List RTTripModel} {routeIds : List String}
  {direction : ℤ}

theorem mem_vehiclesOnTrips {v : RTVehicleModel} {t : TripModel} :
    (v, t) ∈ vehiclesOnTrips vehicles trips routeIds direction ↔
      v ∈ vehicles ∧ t ∈ trips ∧ t.id = v.tripId ∧ t.routeId ∈ routeIds ∧
        t.direction = direction := by
  simp only [vehiclesOnTrips, List.mem_flatMap, List.mem_map, List.mem_filter, decide_eq_true_eq,
    Prod.mk.injEq]
  constructor
  · rintro ⟨v', hv, t', ht, rfl, rfl⟩
    exact ⟨hv, ht⟩
  · rintro ⟨hv, ht⟩
    exact ⟨v, hv, t, ht, rfl, rfl⟩

/-- A trip survives the exclusion when no row marks it, or some row does not mark it removed. -/
theorem exists_isNotRemoved_iff (t : TripModel) :
    (∃ row ∈ outerJoinRtTrip rtTrips t, isNotRemoved row = true) ↔
      (∀ r ∈ rtTrips, r.tripId = t.id → r.dataset ≠ t.dataset) ∨
        ∃ r ∈ rtTrips, r.tripId = t.id ∧ r.dataset = t.dataset ∧ r.isRemoved = false := by
  unfold outerJoinRtTrip
  by_cases hrows : rtTrips.filter (fun r => r.tripId = t.id ∧ r.dataset = t.dataset) = []
  · rw [hrows]
    simp only [List.filter_eq_nil_iff, decide_eq_true_eq, not_and] at hrows
    exact iff_of_true ⟨none, List.mem_singleton.2 rfl, rfl⟩ (Or.inl hrows)
  · have hnot : ¬ ∀ r ∈ rtTrips, r.tripId = t.id → r.dataset ≠ t.dataset := by
      intro h
      apply hrows
      simpa only [List.filter_eq_nil_iff, decide_eq_true_eq, not_and] using h
    rw [or_iff_right hnot]
    simp only [List.isEmpty_iff, hrows, if_false, List.mem_map, List.mem_filter,
      decide_eq_true_eq]
    constructor
    · rintro ⟨_, ⟨r, ⟨hr, hid, hd⟩, rfl⟩, hremoved⟩
      exact ⟨r, hr, hid, hd, by simpa [isNotRemoved] using hremoved⟩
    · rintro ⟨r, hr, hid, hd, hremoved⟩
      exact ⟨some r, ⟨r, ⟨hr, hid, hd⟩, rfl⟩, by simp [isNotRemoved, hremoved]⟩

theorem mem_getVehiclesOnRoutes {v : RTVehicleModel} :
    v ∈ getVehiclesOnRoutes vehicles trips routes agencies rtTrips routeIds direction true ↔
      ∃ t, (v, t) ∈ vehiclesOnTrips vehicles trips routeIds direction ∧
        (∃ r ∈ routes, r.id = t.routeId ∧ ∃ a ∈ agencies, a.id = r.agencyId) ∧
        (v.timeOfUpdate : WithBot DateTime) =
          maxTimeOfUpdate vehicles trips routeIds direction v.vehicleId ∧
        ∃ row ∈ outerJoinRtTrip rtTrips t, isNotRemoved row = true := by
  simp only [getVehiclesOnRoutes, List.mem_mergeSort, List.mem_flatMap, List.mem_filter,
    List.mem_map, if_true, decide_eq_true_eq]
  constructor
  · rintro ⟨p, ⟨⟨q, hq, r, ⟨hr, hrid⟩, a, ⟨ha, haid⟩, rfl⟩, hmax⟩, row, ⟨hrow, hrem⟩, rfl⟩
    exact ⟨q.2, hq, ⟨r, hr, hrid, a, ha, haid⟩, hmax, row, hrow, hrem⟩
  · rintro ⟨t, hvt, ⟨r, hr, hrid, a, ha, haid⟩, hmax, row, hrow, hrem⟩
    exact ⟨(v, t), ⟨⟨(v, t), hvt, r, ⟨hr, hrid⟩, a, ⟨ha, haid⟩, rfl⟩, hmax⟩, row, ⟨hrow, hrem⟩, rfl⟩

/-- Some row marks the trip, and all the rows that do mark it removed. -/
def AllRemoved (rtTrips : List RTTripModel) (t : TripModel) : Prop :=
  (∃ r ∈ rtTrips, r.tripId = t.id ∧ r.dataset = t.dataset) ∧
    ∀ r ∈ rtTrips, r.tripId = t.id → r.dataset = t.dataset → r.isRemoved = true

theorem AllRemoved.perm {rtTrips' : List RTTripModel} {t : TripModel} (h : AllRemoved rtTrips t)
    (hp : rtTrips'.Perm rtTrips) : AllRemoved rtTrips' t := by
  obtain ⟨⟨r, hr, hrow⟩, hall⟩ := h
  exact ⟨⟨r, hp.mem_iff.2 hr, hrow⟩, fun r' hr' => hall r' (hp.mem_iff.1 hr')⟩

theorem allRemoved_iff (t : TripModel) :
    AllRemoved rtTrips t ↔ ¬ ∃ row ∈ outerJoinRtTrip rtTrips t, isNotRemoved row = true := by
  rw [exists_isNotRemoved_iff, AllRemoved]
  simp only [not_or, not_forall, not_exists, not_and, ne_eq, not_not, Bool.not_eq_false,
    exists_prop]

/-- A trip is hidden from every query exactly where all its rows mark it removed. -/
theorem no_vehicle_iff {t : TripModel} (ht : t ∈ trips)
    (hunique : ∀ t' ∈ trips, t'.id = t.id → t' = t) :
    (∀ vehicles routes agencies routeIds direction,
      ∀ v ∈ getVehiclesOnRoutes vehicles trips routes agencies rtTrips routeIds direction true,
        v.tripId ≠ t.id) ↔ AllRemoved rtTrips t := by
  rw [allRemoved_iff]
  constructor
  · -- One vehicle of the trip, on its route, is shown where some joined row lets it pass.
    rintro h hrow
    let v : RTVehicleModel := ⟨0, 0, t.id, ⟨0⟩, t.dataset, ⟨0⟩⟩
    let route : RouteModel := ⟨t.routeId, "", "", "", "", 0, "", "", "", t.dataset⟩
    refine h [v] [route] [⟨"", "", t.dataset⟩] [t.routeId] t.direction v ?_ rfl
    have hvt : (v, t) ∈ vehiclesOnTrips [v] trips [t.routeId] t.direction :=
      mem_vehiclesOnTrips.2 ⟨List.mem_singleton.2 rfl, ht, rfl, List.mem_singleton.2 rfl, rfl⟩
    refine mem_getVehiclesOnRoutes.2 ⟨t, hvt, ?_, ?_, hrow⟩
    · exact ⟨route, List.mem_singleton.2 rfl, rfl, _, List.mem_singleton.2 rfl, rfl⟩
    · rw [maxTimeOfUpdate, eq_comm, List.maximum_eq_coe_iff]
      constructor
      · exact List.mem_map.2 ⟨(v, t), List.mem_filter.2 ⟨hvt, decide_eq_true rfl⟩, rfl⟩
      · intro time htime
        obtain ⟨⟨w, t'⟩, hw, rfl⟩ := List.mem_map.1 htime
        obtain ⟨hw, _⟩ := mem_vehiclesOnTrips.1 (List.mem_of_mem_filter hw)
        rw [List.mem_singleton.1 hw]
  · intro hrow vehicles routes agencies routeIds direction v hv hid
    obtain ⟨t', hvt, _, _, hjoined⟩ := mem_getVehiclesOnRoutes.1 hv
    obtain ⟨_, ht', hid', _⟩ := mem_vehiclesOnTrips.1 hvt
    rw [hunique t' ht' (hid'.trans hid)] at hjoined
    exact hrow hjoined

end SimplyTransport

import SimplyTransport.AgencyMap
import SimplyTransport.StopMap
import SimplyTransport.VehiclesOnRoutes

/-!
# The map of a route beside the map of a stop

The page of a route and the pages of its stops show maps of one database, from queries for one
route and for all routes of the stop. Both choose a trip of the route by `DISTINCT ON`. The stop's
map shows the stops of the route's map and its vehicles, but those that were seen later on another
of the stop's routes, and the same line where the same trip is chosen.
-/

namespace SimplyTransport

open RealtimeImports

variable {φ : Type}

structure RouteMapPayload (φ : Type) where
  center : φ × φ
  zoom : ℕ
  routeId : String
  direction : ApiContracts.Direction
  route : RouteLayer φ
  vehicles : List (VehiclePoint φ)
  stops : List (StopMapStop φ)

inductive RouteMapError
  | notFound
  | python (e : PyError)

def buildRouteMapPayload (route : Option RouteModel) (trip : Option TripModel)
    (shapes : TripModel → List (ShapeGeometryRow φ)) (vehiclesOnRoute : List (LoadedVehicle φ))
    (routeStops : List (LocatedStop φ)) (routeId : String) (direction : ℤ) :
    Except RouteMapError (RouteMapPayload φ) :=
  match route with
  | none => .error .notFound
  | some route =>
    match trip with
    | none => .error .notFound
    | some trip =>
      match shapes trip with
      | [] => .error .notFound
      | first :: rest =>
        match ApiContracts.directionField direction with
        | .error e => .error (.python e)
        | .ok directionName => .ok {
            center := (first.lon, first.lat)
            zoom := 12
            routeId := route.id
            direction := directionName
            route := routeLayer route (first :: rest) Colors.blue.toHex
            vehicles := vehiclesOnRoute.map (fun v =>
              vehiclePointFromRt v routeId Colors.blue.toHex)
            stops := routeStops.filterMap (fun s => stopToMapStop s false) }

section Queries

def StopRow.located (s : StopRow φ) : LocatedStop φ := ⟨s.id, some s.code, s.name, some s.lat, some s.lon⟩

variable (db : Database φ)

def stopsAt (stopId : String) (trip : TripModel) : Bool :=
  (db.static.rows .stopTime).any (fun st => st.tripId = trip.id ∧ st.stopId = stopId)

def routesByStopId (stopId : String) : List RouteModel :=
  (db.static.rows .route).filter (fun route =>
    (db.static.rows .trip).any (fun trip => trip.routeId = route.id ∧ stopsAt db stopId trip))

def DirectionOfStop (stopId : String) (direction : ℤ) : Prop :=
  (∃ trip ∈ db.static.rows .trip, stopsAt db stopId trip ∧ trip.direction = direction) ∨
    (∀ trip ∈ db.static.rows .trip, stopsAt db stopId trip = false) ∧ direction = 0

def isOnRoutes (routeIds : List String) (direction : ℤ) (stop : StopRow φ) : Bool :=
  (db.static.rows .trip).any (fun trip => trip.direction = direction ∧ trip.routeId ∈ routeIds ∧
    stopsAt db stop.id trip)

def StopsByRouteIds (routeIds : List String) (direction : ℤ) (result : List (LocatedStop φ)) :
    Prop :=
  result.Perm (((db.static.rows .stop).filter (isOnRoutes db routeIds direction)).map
    StopRow.located)

/-- A row of a vehicle with what is loaded with it, at the position of the row. -/
structure Loads (position : RTVehicleModel → φ × φ) (v : LoadedVehicle φ) : Prop where
  position : (v.lat, v.lon) = position v.toRTVehicleModel
  trip : v.trip ∈ db.static.rows .trip ∧ v.trip.id = v.tripId
  route : v.route ∈ db.static.rows .route ∧ v.route.id = v.trip.routeId
  agency : v.agency = db.agencies.find? (fun agency => agency.id = v.route.agencyId)

structure VehiclesOnRoutes (position : RTVehicleModel → φ × φ) (routeIds : List String)
    (direction : ℤ) (result : List (LoadedVehicle φ)) : Prop where
  perm : (result.map LoadedVehicle.toRTVehicleModel).Perm
    (db.vehiclesOnRoutes routeIds direction true)
  loads : ∀ v ∈ result, Loads db position v

def FirstTrip (routeId : String) (direction : ℤ) (result : Option TripModel) : Prop :=
  match result with
  | some trip => trip ∈ db.static.rows .trip ∧ trip.routeId = routeId ∧ trip.direction = direction
  | none => ∀ trip ∈ db.static.rows .trip, trip.routeId = routeId → trip.direction ≠ direction

/-- What `get_sequence_sorted_shapes_by_shape_id` can return; no points have an empty id. -/
def SortedShape (shapeId : String) (result : List (ShapeGeometryRow φ)) : Prop :=
  if shapeId = "" then result = [] else SortedShapes (db.static.rows .shape) [shapeId] result

structure StopMapQuery (position : RTVehicleModel → φ × φ) (stopId : String) extends
    StopMapResults φ where
  stop_eq : ∃ row ∈ db.static.rows .stop, row.id = stopId ∧ stop = row.located
  direction_of : DirectionOfStop db stopId direction
  routes_perm : routes.Perm (routesByStopId db stopId)
  firstTrips : FirstTrips (db.static.rows .trip) (routes.map (fun r => r.id)) direction trips
  vehicles_on : VehiclesOnRoutes db position (routes.map (fun r => r.id)) direction vehicles
  sortedShapes : SortedShapes (db.static.rows .shape) (trips.map (fun t => t.shapeId)) shapes
  stops_on : StopsByRouteIds db (routes.map (fun r => r.id)) direction otherStops

structure RouteMapQuery (position : RTVehicleModel → φ × φ) (routeId : String) (direction : ℤ) where
  trip : Option TripModel
  shapes : TripModel → List (ShapeGeometryRow φ)
  vehicles : List (LoadedVehicle φ)
  stops : List (LocatedStop φ)
  firstTrip : FirstTrip db routeId direction trip
  sortedShape : ∀ trip, SortedShape db trip.shapeId (shapes trip)
  vehicles_on : VehiclesOnRoutes db position [routeId] direction vehicles
  stops_on : StopsByRouteIds db [routeId] direction stops

variable {db} {position : RTVehicleModel → φ × φ}

def RouteMapQuery.payload {routeId : String} {direction : ℤ}
    (q : RouteMapQuery db position routeId direction) :
    Except RouteMapError (RouteMapPayload φ) :=
  buildRouteMapPayload ((db.static.rows .route).find? (fun route => route.id = routeId)) q.trip
    q.shapes q.vehicles q.stops routeId direction

end Queries

section Statement

def VehiclePoint.plain (point : VehiclePoint φ) : VehiclePoint φ := { point with color := "" }

def RouteLayer.plain (layer : RouteLayer φ) : RouteLayer φ := { layer with color := "" }

variable {db : Database φ} {position : RTVehicleModel → φ × φ} {stopId routeId : String}

def SeenLater (db : Database φ) (routeIds : List String) (direction : ℤ) (point : VehiclePoint φ) :
    Prop :=
  ∃ w t, OnRoutes db routeIds direction w t ∧ w.vehicleId = point.vehicleId ∧
    point.timeOfUpdate < w.timeOfUpdate

def SequencesDistinct (db : Database φ) (trip : TripModel) : Prop :=
  (((db.static.rows .shape).filter (fun s => s.shapeId = trip.shapeId)).map
    (fun s => s.sequence)).Nodup

def StopMapQuery.routeIds (q : StopMapQuery db position stopId) : List String :=
  q.routes.map (fun route => route.id)

/-- What the map of a route has in common with that of a stop on it. -/
structure MapsAgree (q : StopMapQuery db position stopId) (onStop : StopMapPayload φ)
    (trip : TripModel) (onRoute : RouteMapPayload φ) : Prop where
  stops : ∀ s ∈ onRoute.stops, { s with isFocus := decide (s.stopId = stopId) } ∈ onStop.stops
  vehicles : ∀ x, (∃ v ∈ onStop.vehicles, v.routeId = onRoute.routeId ∧ v.plain = x) ↔
    (∃ v ∈ onRoute.vehicles, v.plain = x) ∧ ¬ SeenLater db q.routeIds q.direction x
  line : trip ∈ q.trips → SequencesDistinct db trip →
    ∃ layer ∈ onStop.routes, layer.plain = onRoute.route.plain

/-- A layer of the stop's map that the map of the route does not have. -/
def DrawnOtherwise (q : StopMapQuery db position stopId) (onStop : StopMapPayload φ)
    (routeId : String) (chosen : Option TripModel) : Prop :=
  ∀ layer ∈ onStop.routes, layer.routeId = routeId →
    ∃ trip ∈ q.trips, trip.routeId = routeId ∧ (chosen ≠ some trip ∨ trip.shapeId = "")

end Statement

section Vehicles

variable {db : Database φ} {position : RTVehicleModel → φ × φ} {routeIds : List String}
  {direction : ℤ}

theorem trip_eq_of_id {t u : TripModel} (ht : t ∈ db.static.rows .trip)
    (hu : u ∈ db.static.rows .trip) (hid : t.id = u.id) : t = u :=
  List.inj_on_of_nodup_map (@key_nodup _ db .trip (fun t => t.id) (fun _ => rfl)) ht hu hid

theorem route_eq_of_id {r r' : RouteModel} (hr : r ∈ db.static.rows .route)
    (hr' : r' ∈ db.static.rows .route) (hid : r.id = r'.id) : r = r' :=
  List.inj_on_of_nodup_map (@key_nodup _ db .route (fun r => r.id) (fun _ => rfl)) hr hr' hid

/-- What is loaded with a row of a vehicle is determined by the row. -/
theorem Loads.ext {v w : LoadedVehicle φ} (hv : Loads db position v) (hw : Loads db position w)
    (h : v.toRTVehicleModel = w.toRTVehicleModel) : v = w := by
  have hposition : (v.lat, v.lon) = (w.lat, w.lon) := by rw [hv.position, hw.position, h]
  obtain ⟨hlat, hlon⟩ := Prod.mk.inj hposition
  have htrip : v.trip = w.trip :=
    trip_eq_of_id hv.trip.1 hw.trip.1 (by rw [hv.trip.2, hw.trip.2, h])
  have hroute : v.route = w.route :=
    route_eq_of_id hv.route.1 hw.route.1 (by rw [hv.route.2, hw.route.2, htrip])
  have hagency : v.agency = w.agency := by rw [hv.agency, hw.agency, hroute]
  cases v
  cases w
  simp_all

theorem mem_vehiclesOnRoutes {v : RTVehicleModel} :
    v ∈ db.vehiclesOnRoutes routeIds direction true ↔
      ∃ t, OnRoutes db routeIds direction v t ∧ HasAgency db t ∧
        RealtimeImports.Newest db routeIds direction v ∧ v ∈ copies db true (v, t) := by
  rw [(vehiclesOnRoutes_perm db routeIds direction true).mem_iff, List.mem_flatMap]
  constructor
  · rintro ⟨⟨w, t⟩, hjoined, hv⟩
    obtain rfl : v = w := mem_copies hv
    obtain ⟨hon, hagency, hnewest⟩ := mem_newestJoined.1 hjoined
    exact ⟨t, hon, hagency, hnewest, hv⟩
  · rintro ⟨t, hon, hagency, hnewest, hv⟩
    exact ⟨(v, t), mem_newestJoined.2 ⟨hon, hagency, hnewest⟩, hv⟩

theorem mem_loaded {result : List (LoadedVehicle φ)}
    (h : VehiclesOnRoutes db position routeIds direction result) {v : LoadedVehicle φ} :
    v ∈ result ↔ Loads db position v ∧ OnRoutes db routeIds direction v.toRTVehicleModel v.trip ∧
      HasAgency db v.trip ∧ RealtimeImports.Newest db routeIds direction v.toRTVehicleModel ∧
        v.toRTVehicleModel ∈ copies db true (v.toRTVehicleModel, v.trip) := by
  constructor
  · intro hv
    have hloads := h.loads v hv
    have hrow := h.perm.mem_iff.1 (List.mem_map_of_mem hv)
    obtain ⟨t, hon, hagency, hnewest, hcopies⟩ := mem_vehiclesOnRoutes.1 hrow
    obtain rfl : t = v.trip :=
      trip_eq_of_id hon.2.1 hloads.trip.1 (hon.2.2.1.trans hloads.trip.2.symm)
    exact ⟨hloads, hon, hagency, hnewest, hcopies⟩
  · rintro ⟨hloads, hon, hagency, hnewest, hcopies⟩
    have hrow := h.perm.mem_iff.2 (mem_vehiclesOnRoutes.2 ⟨v.trip, hon, hagency, hnewest, hcopies⟩)
    obtain ⟨w, hw, heq⟩ := List.mem_map.1 hrow
    rw [← (h.loads w hw).ext hloads heq]
    exact hw

theorem newest_iff_not_seenLater {v : RTVehicleModel} {point : VehiclePoint φ}
    (hid : point.vehicleId = v.vehicleId) (htime : point.timeOfUpdate = v.timeOfUpdate) :
    RealtimeImports.Newest db routeIds direction v ↔ ¬ SeenLater db routeIds direction point := by
  unfold RealtimeImports.Newest SeenLater
  push Not
  rw [hid, htime]

theorem onRoutes_of_single {routeId : String} {v : RTVehicleModel} {t : TripModel}
    (h : OnRoutes db [routeId] direction v t) (hroute : routeId ∈ routeIds) :
    OnRoutes db routeIds direction v t := by
  obtain ⟨hv, ht, hid, hmem, hdirection⟩ := h
  exact ⟨hv, ht, hid, (List.mem_singleton.1 hmem) ▸ hroute, hdirection⟩

/-- The vehicles of one route, and those of all routes that are on it. -/
theorem mem_loaded_single {all single : List (LoadedVehicle φ)} {routeId : String}
    (hall : VehiclesOnRoutes db position routeIds direction all)
    (hsingle : VehiclesOnRoutes db position [routeId] direction single) (hroute : routeId ∈ routeIds)
    {v : LoadedVehicle φ} :
    (v ∈ all ∧ v.trip.routeId = routeId) ↔
      v ∈ single ∧ RealtimeImports.Newest db routeIds direction v.toRTVehicleModel := by
  rw [mem_loaded hall, mem_loaded hsingle]
  constructor
  · rintro ⟨⟨hloads, ⟨hv, ht, hid, -, hdirection⟩, hagency, hnewest, hcopies⟩, hrouteId⟩
    refine ⟨⟨hloads, ⟨hv, ht, hid, List.mem_singleton.2 hrouteId, hdirection⟩, hagency, ?_, hcopies⟩,
      hnewest⟩
    exact fun w u hw hsame => hnewest w u (onRoutes_of_single hw hroute) hsame
  · rintro ⟨⟨hloads, hon, hagency, -, hcopies⟩, hnewest⟩
    exact ⟨⟨hloads, onRoutes_of_single hon hroute, hagency, hnewest, hcopies⟩,
      List.mem_singleton.1 hon.2.2.2.1⟩

end Vehicles

section Payloads

variable {db : Database φ} {position : RTVehicleModel → φ × φ} {stopId routeId : String}

theorem buildStopMapPayload_some {r : StopMapResults φ} {payload : StopMapPayload φ}
    (h : buildStopMapPayload r = .ok (some payload)) :
    (∃ focus, stopToMapStop r.stop true = some focus ∧
      payload.stops = (r.otherStops.foldl addStop ⟨[r.stop.id], [focus]⟩).stops) ∧
    payload.routes = (drawRoutes r.trips r.shapes r.routes).routeLayers ∧
    payload.vehicles = vehiclesPayload r.vehicles
      (drawRoutes r.trips r.shapes r.routes).routeColorById ∧
    ∃ name, ApiContracts.directionField r.direction = .ok name := by
  unfold buildStopMapPayload at h
  cases hlat : r.stop.lat with
  | none =>
      rw [hlat] at h
      cases h
  | some lat =>
      cases hlon : r.stop.lon with
      | none =>
          rw [hlat, hlon] at h
          cases h
      | some lon =>
          rw [hlat, hlon] at h
          cases hname : ApiContracts.directionField r.direction with
          | error e =>
              rw [hname] at h
              cases h
          | ok name =>
              rw [hname] at h
              obtain rfl := Option.some.inj (Except.ok.inj h)
              refine ⟨⟨_, ?_, rfl⟩, rfl, rfl, name, rfl⟩
              rw [stopToMapStop, hlat, hlon]

def StopRow.mapStop (s : StopRow φ) (isFocus : Bool) : StopMapStop φ :=
  ⟨s.id, some s.code, s.name, s.lat, s.lon, isFocus⟩

theorem stopToMapStop_located (s : StopRow φ) (isFocus : Bool) :
    stopToMapStop s.located isFocus = some (s.mapStop isFocus) := rfl

theorem mem_stopsOn {routeIds : List String} {direction : ℤ} {result : List (LocatedStop φ)}
    (h : StopsByRouteIds db routeIds direction result) {s : LocatedStop φ} :
    s ∈ result ↔ ∃ row ∈ db.static.rows .stop, isOnRoutes db routeIds direction row = true ∧
      row.located = s := by
  rw [h.mem_iff, List.mem_map]
  simp only [List.mem_filter, and_assoc]

theorem stop_eq_of_id {s s' : StopRow φ} (hs : s ∈ db.static.rows .stop)
    (hs' : s' ∈ db.static.rows .stop) (hid : s.id = s'.id) : s = s' :=
  List.inj_on_of_nodup_map (@key_nodup _ db .stop (fun s => s.id) (fun _ => rfl)) hs hs' hid

theorem isOnRoutes_of_single {routeIds : List String} {direction : ℤ} {row : StopRow φ}
    (h : isOnRoutes db [routeId] direction row = true) (hroute : routeId ∈ routeIds) :
    isOnRoutes db routeIds direction row = true := by
  unfold isOnRoutes at *
  obtain ⟨trip, htrip, hcond⟩ := List.any_eq_true.1 h
  rw [decide_eq_true_eq, List.mem_singleton] at hcond
  refine List.any_eq_true.2 ⟨trip, htrip, decide_eq_true ⟨hcond.1, ?_, hcond.2.2⟩⟩
  rw [hcond.2.1]
  exact hroute

/-- The stop's map shows every stop on one of its routes. -/
theorem mapStop_mem {q : StopMapQuery db position stopId} {payload : StopMapPayload φ}
    (h : buildStopMapPayload q.toStopMapResults = .ok (some payload)) {row : StopRow φ}
    (hrow : row ∈ db.static.rows .stop) (hon : isOnRoutes db q.routeIds q.direction row = true) :
    row.mapStop (decide (row.id = stopId)) ∈ payload.stops := by
  obtain ⟨⟨focus, hfocus, hstops⟩, -⟩ := buildStopMapPayload_some h
  obtain ⟨stop, hstop, hstopId, hlocated⟩ := q.stop_eq
  obtain ⟨focus', rest, hall, hfocus', hrest⟩ := (stopsWellFormed q.toStopMapResults hfocus).focus
  rw [← hstops] at hall
  rw [hall]
  by_cases hid : row.id = stopId
  · obtain rfl := stop_eq_of_id hrow hstop (hid.trans hstopId.symm)
    rw [hlocated, stopToMapStop_located] at hfocus'
    rw [decide_eq_true hid, Option.some.inj hfocus']
    exact List.mem_cons_self
  · rw [decide_eq_false hid]
    refine List.mem_cons_of_mem _ ((hrest _).2 ⟨row.located, (mem_stopsOn q.stops_on).2
      ⟨row, hrow, hon, rfl⟩, ?_, rfl⟩)
    rw [hlocated]
    exact fun heq => hid (heq.trans hstopId)

theorem plain_vehicle_mem {q : StopMapQuery db position stopId} {payload : StopMapPayload φ}
    (h : buildStopMapPayload q.toStopMapResults = .ok (some payload)) (x : VehiclePoint φ) :
    (∃ v ∈ payload.vehicles, v.routeId = routeId ∧ v.plain = x) ↔
      ∃ v ∈ q.vehicles, v.trip.routeId = routeId ∧ vehiclePointFromRt v routeId "" = x := by
  obtain ⟨-, -, hvehicles, -⟩ := buildStopMapPayload_some h
  rw [hvehicles]
  simp only [(vehiclesPayload_perm q.vehicles _).mem_iff, List.mem_map]
  constructor
  · rintro ⟨_, ⟨v, hv, rfl⟩, rfl, rfl⟩
    exact ⟨v, hv, rfl, rfl⟩
  · rintro ⟨v, hv, rfl, rfl⟩
    exact ⟨_, ⟨v, hv, rfl⟩, rfl, rfl⟩

/-- Points in increasing sequence are determined where no sequence comes twice. -/
theorem shapes_eq {trip : TripModel} (hdistinct : SequencesDistinct db trip)
    {points points' : List (ShapeGeometryRow φ)}
    (h : points.Perm (((db.static.rows .shape).filter (fun s => s.shapeId = trip.shapeId)).map
      ShapeModel.geometry))
    (h' : points'.Perm (((db.static.rows .shape).filter (fun s => s.shapeId = trip.shapeId)).map
      ShapeModel.geometry))
    (hsorted : points.Pairwise (fun a b => a.sequence ≤ b.sequence))
    (hsorted' : points'.Pairwise (fun a b => a.sequence ≤ b.sequence)) : points = points' := by
  have hnodup : (points.map (fun s => s.sequence)).Nodup := by
    rw [(h.map _).nodup_iff, List.map_map]
    exact hdistinct
  refine List.Perm.eq_of_pairwise (fun a b ha hb hab hba => ?_) hsorted hsorted' (h.trans h'.symm)
  exact List.inj_on_of_nodup_map hnodup ha ((h.trans h'.symm).mem_iff.2 hb) (le_antisymm hab hba)

end Payloads

section Agreement

variable {db : Database φ} {position : RTVehicleModel → φ × φ} {stopId routeId : String}

theorem SortedShapes.filter_perm {shapeIds : List String} {result : List (ShapeGeometryRow φ)}
    (h : SortedShapes (db.static.rows .shape) shapeIds result) {shapeId : String}
    (hmem : shapeId ∈ shapeIds) : (result.filter (fun s => s.shapeId = shapeId)).Perm
      (((db.static.rows .shape).filter (fun s => s.shapeId = shapeId)).map ShapeModel.geometry) := by
  refine (h.perm.filter _).trans (List.Perm.of_eq ?_)
  rw [List.filter_map, List.filter_filter]
  congr 1
  refine List.filter_congr (fun s _ => ?_)
  by_cases hs : s.shapeId = shapeId
  · simp [ShapeModel.geometry, hs, hmem]
  · simp [ShapeModel.geometry, hs]

theorem SortedShapes.filter_sorted {rows : List (ShapeModel φ)} {shapeIds : List String}
    {result : List (ShapeGeometryRow φ)} (h : SortedShapes rows shapeIds result) (shapeId : String) :
    (result.filter (fun s => s.shapeId = shapeId)).Pairwise (fun a b => a.sequence ≤ b.sequence) := by
  refine (h.sorted.filter _).imp_of_mem (fun ha hb hle => hle ?_)
  exact (of_decide_eq_true (List.mem_filter.1 ha).2).trans
    (of_decide_eq_true (List.mem_filter.1 hb).2).symm

/-- The points of one shape are all that is found for it. -/
theorem filter_single {shapeId : String} {result : List (ShapeGeometryRow φ)}
    (h : SortedShapes (db.static.rows .shape) [shapeId] result) :
    result.filter (fun s => s.shapeId = shapeId) = result := by
  refine List.filter_eq_self.2 (fun s hs => decide_eq_true ?_)
  obtain ⟨row, hrow, rfl⟩ := List.mem_map.1 (h.perm.mem_iff.1 hs)
  exact List.mem_singleton.1 (of_decide_eq_true (List.mem_filter.1 hrow).2)

theorem find_route (q : StopMapQuery db position stopId) (hroute : routeId ∈ q.routeIds) :
    ∃ route ∈ q.routes, route.id = routeId ∧
      (db.static.rows .route).find? (fun route => route.id = routeId) = some route := by
  obtain ⟨route, hmem, hid⟩ := List.mem_map.1 hroute
  have hrow : route ∈ db.static.rows .route :=
    List.mem_of_mem_filter (q.routes_perm.mem_iff.1 hmem)
  cases hfind : (db.static.rows .route).find? (fun route => route.id = routeId) with
  | none => exact absurd (decide_eq_true hid) (List.find?_eq_none.1 hfind route hrow)
  | some found =>
      have hfound := List.find?_some hfind
      rw [decide_eq_true_eq] at hfound
      rw [route_eq_of_id (List.mem_of_find?_eq_some hfind) hrow (hfound.trans hid.symm)]
      exact ⟨route, hmem, hid, rfl⟩

/-- A layer of the stop's map shows a trip that was chosen for its route. -/
theorem trip_of_layer {q : StopMapQuery db position stopId} {payload : StopMapPayload φ}
    (h : buildStopMapPayload q.toStopMapResults = .ok (some payload)) {layer : RouteLayer φ}
    (hlayer : layer ∈ payload.routes) :
    ∃ route ∈ q.routes, ∃ trip ∈ q.trips, trip.routeId = layer.routeId ∧
      q.shapes.filter (fun s => s.shapeId = trip.shapeId) ≠ [] ∧
        layer.plain = (routeLayer route (q.shapes.filter (fun s => s.shapeId = trip.shapeId))
          layer.color).plain := by
  obtain ⟨-, hroutes, -⟩ := buildStopMapPayload_some h
  rw [hroutes] at hlayer
  obtain ⟨route, hroute, points, hpoints, color, rfl⟩ := mem_routeLayers hlayer
  obtain ⟨trip, htrip, htripRoute, rfl, hne⟩ :=
    (routePoints_eq_some_iff_shows q.toStopMapResults).1 hpoints
  exact ⟨route, hroute, trip, htrip, htripRoute, hne, rfl⟩

theorem exists_layer {q : StopMapQuery db position stopId} {payload : StopMapPayload φ}
    (h : buildStopMapPayload q.toStopMapResults = .ok (some payload)) {route : RouteModel}
    (hroute : route ∈ q.routes) {trip : TripModel} (htrip : trip ∈ q.trips)
    (htripRoute : trip.routeId = route.id)
    (hne : q.shapes.filter (fun s => s.shapeId = trip.shapeId) ≠ []) :
    ∃ layer ∈ payload.routes, layer.plain =
      (routeLayer route (q.shapes.filter (fun s => s.shapeId = trip.shapeId)) "").plain := by
  obtain ⟨-, hroutes, -⟩ := buildStopMapPayload_some h
  have hpoints := (routePoints_eq_some q.trips_nodup).2 ⟨trip, htrip, htripRoute, rfl, hne⟩
  have hdrawn : (route, q.shapes.filter (fun s => s.shapeId = trip.shapeId)) ∈
      drawnRoutes q.trips q.shapes q.routes :=
    List.mem_filterMap.2 ⟨route, hroute, by rw [hpoints]; rfl⟩
  obtain ⟨n, hn, heq⟩ := List.mem_iff_getElem.1 hdrawn
  rw [hroutes, (drawRoutes_eq q.routes).2.1]
  refine ⟨_, List.mem_map_of_mem (List.mem_iff_getElem.2 ⟨n, by simpa using hn, rfl⟩), ?_⟩
  rw [List.getElem_zipIdx, heq]
  rfl

/-- For whatever the database returns for a stop, and for one of its routes in its direction. -/
theorem route_map_agrees (q : StopMapQuery db position stopId) (onStop : StopMapPayload φ)
    (h : buildStopMapPayload q.toStopMapResults = .ok (some onStop)) (hroute : routeId ∈ q.routeIds)
    (r : RouteMapQuery db position routeId q.direction) :
    match r.payload with
    | .ok onRoute => ∃ trip, r.trip = some trip ∧ MapsAgree q onStop trip onRoute
    | .error e => e = .notFound ∧ DrawnOtherwise q onStop routeId r.trip := by
  obtain ⟨route, hrouteMem, hrouteId, hfind⟩ := find_route q hroute
  obtain ⟨-, -, -, name, hname⟩ := buildStopMapPayload_some h
  unfold RouteMapQuery.payload buildRouteMapPayload
  rw [hfind]
  cases htrip : r.trip with
  | none =>
      refine ⟨rfl, fun layer hlayer hid => ?_⟩
      obtain ⟨-, -, trip, hmem, htripRoute, -⟩ := trip_of_layer h hlayer
      exact ⟨trip, hmem, htripRoute.trans hid, Or.inl (Option.some_ne_none trip).symm⟩
  | some trip =>
      have hsorted := r.sortedShape trip
      unfold SortedShape at hsorted
      cases hshapes : r.shapes trip with
      | nil =>
          simp only [hshapes]
          refine ⟨trivial, fun layer hlayer hid => ?_⟩
          obtain ⟨-, -, trip', hmem, htripRoute, hne, -⟩ := trip_of_layer h hlayer
          refine ⟨trip', hmem, htripRoute.trans hid, ?_⟩
          by_contra hnot
          push Not at hnot
          obtain ⟨hsame, hshapeId⟩ := hnot
          obtain rfl := Option.some.inj hsame
          rw [if_neg hshapeId, hshapes] at hsorted
          have hnil := (filter_single hsorted).symm ▸
            hsorted.filter_perm (List.mem_singleton.2 rfl)
          have hperm := q.sortedShapes.filter_perm (List.mem_map_of_mem (f := fun t => t.shapeId) hmem)
          exact hne (hperm.trans hnil.symm).eq_nil
      | cons first rest =>
          simp only [hshapes, hname]
          refine ⟨trip, rfl, ?_, ?_, ?_⟩
          · intro s hs
            obtain ⟨located, hlocated, hsome⟩ := List.mem_filterMap.1 hs
            obtain ⟨row, hrow, hon, rfl⟩ := (mem_stopsOn r.stops_on).1 hlocated
            obtain rfl := Option.some.inj hsome
            exact mapStop_mem h hrow (isOnRoutes_of_single hon hroute)
          · intro x
            rw [hrouteId, plain_vehicle_mem h]
            simp only [List.mem_map]
            constructor
            · rintro ⟨v, hv, hvRoute, rfl⟩
              obtain ⟨hsingle, hnewest⟩ :=
                (mem_loaded_single q.vehicles_on r.vehicles_on hroute).1 ⟨hv, hvRoute⟩
              exact ⟨⟨_, ⟨v, hsingle, rfl⟩, rfl⟩, (newest_iff_not_seenLater rfl rfl).1 hnewest⟩
            · rintro ⟨⟨_, ⟨v, hv, rfl⟩, rfl⟩, hnot⟩
              have hnewest := (newest_iff_not_seenLater (v := v.toRTVehicleModel) rfl rfl).2 hnot
              obtain ⟨hall, hvRoute⟩ :=
                (mem_loaded_single q.vehicles_on r.vehicles_on hroute).2 ⟨hv, hnewest⟩
              exact ⟨v, hall, hvRoute, rfl⟩
          · intro hmem hdistinct
            have hfirst := r.firstTrip
            rw [htrip] at hfirst
            split_ifs at hsorted with hempty
            · rw [hshapes] at hsorted
              cases hsorted
            · have hperm := hsorted.filter_perm (List.mem_singleton.2 rfl)
              have hpairwise := hsorted.filter_sorted trip.shapeId
              rw [filter_single hsorted] at hperm hpairwise
              have hall := q.sortedShapes.filter_perm
                (List.mem_map_of_mem (f := fun t => t.shapeId) hmem)
              have heq := shapes_eq hdistinct hall hperm (q.sortedShapes.filter_sorted _) hpairwise
              have hne : q.shapes.filter (fun s => s.shapeId = trip.shapeId) ≠ [] := by
                rw [heq, hshapes]
                exact List.cons_ne_nil _ _
              obtain ⟨layer, hlayer, hplain⟩ := exists_layer h hrouteMem hmem
                (hfirst.2.1.trans hrouteId.symm) hne
              refine ⟨layer, hlayer, hplain.trans ?_⟩
              rw [heq, hshapes]
              rfl

section Sample

def mapRoute : RouteModel := ⟨"R1", "7", "1", "", "", 3, "", "", "", "TFI"⟩

def otherRoute : RouteModel := ⟨"R2", "7", "15", "", "", 3, "", "", "", "TFI"⟩

def mapTrip : TripModel := ⟨"T1", "R1", "S1", "SH1", "", "", 0, "", "TFI"⟩

def laterTrip : TripModel := ⟨"T2", "R1", "S1", "SH1", "", "", 0, "", "TFI"⟩

def otherTrip : TripModel := ⟨"T3", "R2", "S1", "SH2", "", "", 0, "", "TFI"⟩

def mapStopRow : StopRow ℤ := ⟨⟨"8220DB1", "1", "", "", "", "", none, none, "TFI"⟩, 53, -6⟩

def nextStopRow : StopRow ℤ := ⟨⟨"8220DB2", "2", "", "", "", "", none, none, "TFI"⟩, 54, -6⟩

def mapShape : ShapeModel ℤ := ⟨2, "SH1", 53, -6, 1, none, "TFI"⟩

def nextShape : ShapeModel ℤ := ⟨1, "SH1", 54, -6, 2, none, "TFI"⟩

def otherShape : ShapeModel ℤ := ⟨3, "SH2", 53, -6, 1, none, "TFI"⟩

def mapVehicle : RTVehicleModel := ⟨1, 42, "T1", ⟨719163 * dayMicros⟩, "TFI", ⟨0⟩⟩

def formerVehicle : RTVehicleModel := ⟨2, 43, "T2", ⟨719163 * dayMicros⟩, "TFI", ⟨0⟩⟩

def otherVehicle : RTVehicleModel := ⟨3, 43, "T3", ⟨719163 * dayMicros + 1⟩, "TFI", ⟨0⟩⟩

def mapCall (id : ℤ) (tripId stopId : String) (sequence : ℤ) : StopTimeModel :=
  ⟨id, tripId, Time.midnight, Time.midnight, stopId, sequence, "", none, none, none, "TFI"⟩

def mapRows : (t : StaticTable) → List (t.Row ℤ)
  | .agency => [⟨⟨"7", "Dublin Bus", "TFI"⟩, "", "Europe/Dublin"⟩]
  | .route => [mapRoute, otherRoute]
  | .trip => [mapTrip, laterTrip, otherTrip]
  | .stop => [mapStopRow, nextStopRow]
  | .stopTime => [mapCall 1 "T1" "8220DB1" 1, mapCall 2 "T1" "8220DB2" 2, mapCall 3 "T3" "8220DB1" 1]
  | .shape => [nextShape, mapShape, otherShape]
  | .calendar | .calendarDate => []

theorem mapRows_nodup (t : StaticTable) : ((mapRows t).filterMap t.key).Nodup := by
  cases t <;> decide

def mapDb : Database ℤ :=
  ⟨⟨mapRows, [], mapRows_nodup, fun _ hf => absurd hf List.not_mem_nil⟩, ⟨[], 0⟩, ⟨[], 0⟩,
    ⟨[⟨mapVehicle, .int 53, .int (-6)⟩, ⟨formerVehicle, .int 53, .int (-6)⟩,
      ⟨otherVehicle, .int 53, .int (-6)⟩], 3⟩⟩

def mapPosition (_ : RTVehicleModel) : ℤ × ℤ := (53, -6)

def mapLoaded (v : RTVehicleModel) (trip : TripModel) (route : RouteModel) : LoadedVehicle ℤ :=
  ⟨v, 53, -6, trip, route, some ⟨"7", "Dublin Bus", "TFI"⟩⟩

def loadedOnMap : LoadedVehicle ℤ := mapLoaded mapVehicle mapTrip mapRoute

def loadedFormer : LoadedVehicle ℤ := mapLoaded formerVehicle laterTrip mapRoute

def loadedOnOther : LoadedVehicle ℤ := mapLoaded otherVehicle otherTrip otherRoute

theorem loads_loaded (v : LoadedVehicle ℤ)
    (hv : v = loadedOnMap ∨ v = loadedFormer ∨ v = loadedOnOther) : Loads mapDb mapPosition v := by
  rcases hv with rfl | rfl | rfl
  all_goals exact ⟨rfl, ⟨by decide, rfl⟩, ⟨by decide, rfl⟩, rfl⟩

theorem mapVehicles_on :
    VehiclesOnRoutes mapDb mapPosition ["R1"] 0 [loadedOnMap, loadedFormer] where
  perm := (List.Perm.of_eq (by decide)).trans (vehiclesOnRoutes_perm mapDb ["R1"] 0 true).symm
  loads v hv := loads_loaded v (by simp only [List.mem_cons, List.not_mem_nil, or_false] at hv; tauto)

/-- Of the vehicle that was seen on both routes, only where it was seen last. -/
theorem allVehicles_on :
    VehiclesOnRoutes mapDb mapPosition ["R1", "R2"] 0 [loadedOnMap, loadedOnOther] where
  perm := (List.Perm.of_eq (by decide)).trans (vehiclesOnRoutes_perm mapDb ["R1", "R2"] 0 true).symm
  loads v hv := loads_loaded v (by simp only [List.mem_cons, List.not_mem_nil, or_false] at hv; tauto)

theorem mapShapes_sorted : SortedShapes (mapDb.static.rows .shape) ["SH1"]
    [mapShape.geometry, nextShape.geometry] :=
  ⟨List.Perm.swap _ _ _, by decide⟩

theorem mapStops_eq : ∀ s ∈ [nextStopRow.located, mapStopRow.located],
    ∀ t ∈ [nextStopRow.located, mapStopRow.located], s.id = t.id → s = t := by
  intro s hs t ht hid
  rcases List.mem_pair.1 hs with rfl | rfl <;> rcases List.mem_pair.1 ht with rfl | rfl
  · rfl
  · exact absurd hid (by decide)
  · exact absurd hid (by decide)
  · rfl

def mapStopQuery : StopMapQuery mapDb mapPosition "8220DB1" where
  stop := mapStopRow.located
  direction := 0
  routes := [mapRoute, otherRoute]
  trips := [otherTrip, mapTrip]
  vehicles := [loadedOnMap, loadedOnOther]
  shapes := [mapShape.geometry, otherShape.geometry, nextShape.geometry]
  otherStops := [nextStopRow.located, mapStopRow.located]
  routes_nodup := by decide
  trips_nodup := by decide
  otherStops_eq := mapStops_eq
  stop_eq := ⟨mapStopRow, List.mem_cons_self, rfl, rfl⟩
  direction_of := Or.inl ⟨mapTrip, by decide, by decide, rfl⟩
  routes_perm := by decide
  firstTrips := ⟨by decide, by decide, by decide⟩
  vehicles_on := allVehicles_on
  sortedShapes := ⟨@List.perm_append_comm _ [mapShape.geometry, otherShape.geometry]
    [nextShape.geometry], by decide⟩
  stops_on := List.Perm.swap _ _ _

theorem mapSortedShape (trip : TripModel) :
    SortedShape mapDb trip.shapeId
      (if trip.shapeId = "SH1" then [mapShape.geometry, nextShape.geometry]
        else if trip.shapeId = "SH2" then [otherShape.geometry] else []) := by
  unfold SortedShape
  by_cases hshape : trip.shapeId = "SH1"
  · rw [hshape, if_neg (by decide), if_pos rfl]
    exact mapShapes_sorted
  by_cases hother : trip.shapeId = "SH2"
  · rw [hother, if_neg (by decide), if_neg (by decide), if_pos rfl]
    exact ⟨List.Perm.refl _, List.pairwise_singleton _ _⟩
  · rw [if_neg hshape, if_neg hother]
    split_ifs
    · rfl
    · refine ⟨List.Perm.of_eq ?_, List.Pairwise.nil⟩
      symm
      rw [List.map_eq_nil_iff, List.filter_eq_nil_iff]
      intro s hs
      rw [decide_eq_true_eq, List.mem_singleton]
      have hids : s.shapeId = "SH1" ∨ s.shapeId = "SH2" := by
        revert s
        decide
      rcases hids with hid | hid
      · exact fun heq => hshape (heq.symm.trans hid)
      · exact fun heq => hother (heq.symm.trans hid)

def mapRouteQuery : RouteMapQuery mapDb mapPosition "R1" mapStopQuery.direction where
  trip := some mapTrip
  shapes := fun trip => if trip.shapeId = "SH1" then [mapShape.geometry, nextShape.geometry]
    else if trip.shapeId = "SH2" then [otherShape.geometry] else []
  vehicles := [loadedOnMap, loadedFormer]
  stops := [mapStopRow.located, nextStopRow.located]
  firstTrip := ⟨by decide, rfl, rfl⟩
  sortedShape := mapSortedShape
  vehicles_on := mapVehicles_on
  stops_on := List.Perm.refl _

def mapOnStop : StopMapPayload ℤ where
  center := (-6, 53)
  zoom := 14
  focusStopId := "8220DB1"
  direction := .outbound
  routes := [routeLayer mapRoute [mapShape.geometry, nextShape.geometry] Colors.red.toHex,
    routeLayer otherRoute [otherShape.geometry] Colors.green.toHex]
  vehicles := [vehiclePointFromRt loadedOnMap "R1" Colors.red.toHex,
    vehiclePointFromRt loadedOnOther "R2" Colors.green.toHex]
  stops := [mapStopRow.mapStop true, nextStopRow.mapStop false]

/-- A stop of two routes, and the map of one that a vehicle of the other was seen on before. -/
theorem route_map_agrees_sample :
    match mapRouteQuery.payload with
    | .ok onRoute => ∃ trip, mapRouteQuery.trip = some trip ∧
        MapsAgree mapStopQuery mapOnStop trip onRoute
    | .error e => e = .notFound ∧ DrawnOtherwise mapStopQuery mapOnStop "R1" mapRouteQuery.trip :=
  route_map_agrees mapStopQuery mapOnStop rfl (by decide) mapRouteQuery

end Sample

end Agreement

end SimplyTransport

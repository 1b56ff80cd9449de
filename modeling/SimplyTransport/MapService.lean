import SimplyTransport.OrderedDict
import SimplyTransport.RealtimeScheduleContracts

/-!
# The map service

The payloads of the maps of a stop and of an agency's routes, from what the repositories return.
A route is drawn where it has a trip whose shape has points, in the next colour of a cycle. Floats
are an arbitrary type, and a point of a line is its longitude and its latitude.
-/

namespace SimplyTransport

inductive Colors
  | red
  | green
  | orange
  | blue
  | pink
  | purple
  | cadetblue
  | lightblue
  | yellow
  | teal
  | cyan
  | brown
  | lime
  | magenta
  | navy
  | indigo
  | coral
  | gold
  | olive
  | crimson
  | turquoise
  | violet
  deriving DecidableEq

namespace Colors

def toHex : Colors → String
  | red => "#d32f2f"
  | green => "#2e7d32"
  | orange => "#ef6c00"
  | blue => "#1565c0"
  | pink => "#c2185b"
  | purple => "#6a1b9a"
  | cadetblue => "#006064"
  | lightblue => "#0277bd"
  | yellow => "#f9a825"
  | teal => "#00796b"
  | cyan => "#00838f"
  | brown => "#5d4037"
  | lime => "#558b2f"
  | magenta => "#c218b8"
  | navy => "#1a237e"
  | indigo => "#311b92"
  | coral => "#e64a19"
  | gold => "#f57f17"
  | olive => "#827717"
  | crimson => "#b71c1c"
  | turquoise => "#00695c"
  | violet => "#8e24aa"

def list : List Colors :=
  [red, green, orange, blue, pink, purple, cadetblue, lightblue, yellow, teal, cyan, brown, lime,
    magenta, navy, indigo, coral, gold, olive, crimson, turquoise, violet]

def cycle (n : ℕ) : Colors := list.getD (n % list.length) red

end Colors

def fallbackColor : String := "#888888"

theorem Colors.toHex_ne_fallbackColor (c : Colors) : c.toHex ≠ fallbackColor := by
  cases c <;> decide

structure LocatedStop (φ : Type) where
  id : String
  code : Option String
  name : String
  lat : Option φ
  lon : Option φ

structure ShapeGeometryRow (φ : Type) where
  id : ℤ
  shapeId : String
  lat : φ
  lon : φ
  sequence : ℤ

structure LoadedVehicle (φ : Type) extends RTVehicleModel where
  lat : φ
  lon : φ
  trip : TripModel
  route : RouteModel
  agency : Option AgencyModel

structure RouteLayer (φ : Type) where
  routeId : String
  shortName : String
  longName : String
  color : String
  coordinates : List (φ × φ)

structure VehiclePoint (φ : Type) where
  routeId : String
  lat : φ
  lon : φ
  vehicleId : ℤ
  tripId : String
  color : String
  routeShortName : String
  agencyName : String
  timeOfUpdate : DateTime

structure StopMapStop (φ : Type) where
  stopId : String
  code : Option String
  name : String
  lat : φ
  lon : φ
  isFocus : Bool

structure StopMapPayload (φ : Type) where
  center : φ × φ
  zoom : ℕ
  focusStopId : String
  direction : ApiContracts.Direction
  routes : List (RouteLayer φ)
  vehicles : List (VehiclePoint φ)
  stops : List (StopMapStop φ)

structure AgencyRoutesMapPayload (φ : Type) where
  center : φ × φ
  zoom : ℕ
  agencyId : String
  routes : List (RouteLayer φ)

section Service

variable {φ : Type}

def vehiclePointFromRt (v : LoadedVehicle φ) (routeId colorHex : String) : VehiclePoint φ where
  routeId := routeId
  lat := v.lat
  lon := v.lon
  vehicleId := v.vehicleId
  tripId := v.tripId
  color := colorHex
  routeShortName := v.route.shortName
  agencyName := (v.agency.map (fun agency => agency.name)).getD ""
  timeOfUpdate := v.timeOfUpdate

def stopToMapStop (stop : LocatedStop φ) (isFocus : Bool) : Option (StopMapStop φ) :=
  match stop.lat, stop.lon with
  | some lat, some lon => some ⟨stop.id, stop.code, stop.name, lat, lon, isFocus⟩
  | _, _ => none

def lonLat (points : List (ShapeGeometryRow φ)) : List (φ × φ) :=
  points.map (fun s => (s.lon, s.lat))

def tripByRouteId (trips : List TripModel) : OrderedDict String TripModel :=
  OrderedDict.lastBy (fun t => t.routeId) trips

def shapesDict (shapes : List (ShapeGeometryRow φ)) :
    OrderedDict String (List (ShapeGeometryRow φ)) :=
  OrderedDict.groupBy (fun s => s.shapeId) shapes

section Drawing

variable (trips : List TripModel) (shapes : List (ShapeGeometryRow φ))

/-- The points of a route, which is left out where it has no trip or its shape has no points. -/
def routePoints (route : RouteModel) : Option (List (ShapeGeometryRow φ)) :=
  match (tripByRouteId trips).get? route.id with
  | none => none
  | some trip =>
    let tripShapes := (shapesDict shapes).getD trip.shapeId []
    if tripShapes.isEmpty then none else some tripShapes

def routeLayer (route : RouteModel) (points : List (ShapeGeometryRow φ)) (colorHex : String) :
    RouteLayer φ :=
  ⟨route.id, route.shortName, route.longName, colorHex, lonLat points⟩

/-- The loop over the routes: how many colours are taken, the layers, and the colours by route. -/
structure Drawing (φ : Type) where
  taken : ℕ
  routeLayers : List (RouteLayer φ)
  routeColorById : OrderedDict String String

def Drawing.start : Drawing φ := ⟨0, [], OrderedDict.empty⟩

def drawRoute (d : Drawing φ) (route : RouteModel) : Drawing φ :=
  match routePoints trips shapes route with
  | none => d
  | some points =>
    let colorHex := (Colors.cycle d.taken).toHex
    ⟨d.taken + 1, d.routeLayers ++ [routeLayer route points colorHex],
      d.routeColorById.set route.id colorHex⟩

def drawRoutes (routes : List RouteModel) : Drawing φ :=
  routes.foldl (drawRoute trips shapes) Drawing.start

end Drawing

def vehiclesPayload (vehicles : List (LoadedVehicle φ))
    (routeColorById : OrderedDict String String) : List (VehiclePoint φ) :=
  (OrderedDict.groupBy (fun v : LoadedVehicle φ => v.trip.routeId) vehicles).entries.flatMap
    (fun e => e.2.map (fun v =>
      vehiclePointFromRt v e.1 (routeColorById.getD e.1 fallbackColor)))

structure StopsOut (φ : Type) where
  seen : List String
  stops : List (StopMapStop φ)

def addStop (out : StopsOut φ) (s : LocatedStop φ) : StopsOut φ :=
  if s.id ∈ out.seen then out
  else
    match stopToMapStop s false with
    | none => ⟨s.id :: out.seen, out.stops⟩
    | some p => ⟨s.id :: out.seen, out.stops ++ [p]⟩

/-- What the repositories return for a stop. Rows of one id are one row, and `DISTINCT ON` leaves
one trip of a route. -/
structure StopMapResults (φ : Type) where
  stop : LocatedStop φ
  direction : ℤ
  routes : List RouteModel
  trips : List TripModel
  vehicles : List (LoadedVehicle φ)
  shapes : List (ShapeGeometryRow φ)
  otherStops : List (LocatedStop φ)
  routes_nodup : (routes.map (fun r => r.id)).Nodup
  trips_nodup : (trips.map (fun t => t.routeId)).Nodup
  otherStops_eq : ∀ s ∈ otherStops, ∀ t ∈ otherStops, s.id = t.id → s = t

def buildStopMapPayload (r : StopMapResults φ) : Except PyError (Option (StopMapPayload φ)) :=
  match r.stop.lat, r.stop.lon with
  | some lat, some lon => do
    let drawing := drawRoutes r.trips r.shapes r.routes
    let focus : StopMapStop φ := ⟨r.stop.id, r.stop.code, r.stop.name, lat, lon, true⟩
    let direction ← ApiContracts.directionField r.direction
    return some {
      center := (lon, lat)
      zoom := 14
      focusStopId := r.stop.id
      direction := direction
      routes := drawing.routeLayers
      vehicles := vehiclesPayload r.vehicles drawing.routeColorById
      stops := (r.otherStops.foldl addStop ⟨[r.stop.id], [focus]⟩).stops }
  | _, _ => .ok none

/-- The middle of the first line that has points. -/
def centerFromRouteLayers (defaultMapCenter : φ × φ) : List (RouteLayer φ) → φ × φ
  | [] => defaultMapCenter
  | layer :: layers =>
    match layer.coordinates[layer.coordinates.length / 2]? with
    | some mid => mid
    | none => centerFromRouteLayers defaultMapCenter layers

def buildAgencyRoutesMapPayload (defaultMapCenter : φ × φ) (agencyId : String)
    (routes : List RouteModel) (trips : List TripModel) (shapes : List (ShapeGeometryRow φ)) :
    Except PyError (AgencyRoutesMapPayload φ) :=
  if routes.isEmpty then .error .valueError
  else
    let routeLayers := (drawRoutes trips shapes routes).routeLayers
    if routeLayers.isEmpty then .error .valueError
    else .ok ⟨centerFromRouteLayers defaultMapCenter routeLayers, 7, agencyId, routeLayers⟩

end Service

section Routes

variable {φ : Type} {trips : List TripModel} {shapes : List (ShapeGeometryRow φ)}

def drawnRoutes (trips : List TripModel) (shapes : List (ShapeGeometryRow φ))
    (routes : List RouteModel) : List (RouteModel × List (ShapeGeometryRow φ)) :=
  routes.filterMap (fun route => (routePoints trips shapes route).map (fun points =>
    (route, points)))

theorem get?_tripByRouteId (h : (trips.map (fun t => t.routeId)).Nodup) {routeId : String}
    {trip : TripModel} :
    (tripByRouteId trips).get? routeId = some trip ↔ trip ∈ trips ∧ trip.routeId = routeId := by
  rw [tripByRouteId, OrderedDict.get?_lastBy]
  constructor
  · intro hlast
    obtain ⟨htrip, hroute⟩ := List.mem_filter.1 (List.mem_of_getLast? hlast)
    exact ⟨htrip, of_decide_eq_true hroute⟩
  · rintro ⟨htrip, rfl⟩
    have hmem : trip ∈ trips.filter (fun t => t.routeId = trip.routeId) :=
      List.mem_filter.2 ⟨htrip, decide_eq_true rfl⟩
    obtain ⟨last, hlast⟩ := Option.ne_none_iff_exists'.1
      (mt List.getLast?_eq_none_iff.1 (List.ne_nil_of_mem hmem))
    obtain ⟨hlastmem, hroute⟩ := List.mem_filter.1 (List.mem_of_getLast? hlast)
    rw [hlast, List.inj_on_of_nodup_map h hlastmem htrip (of_decide_eq_true hroute)]

/-- A route is drawn with the points of the shape of its trip. -/
theorem routePoints_eq_some (h : (trips.map (fun t => t.routeId)).Nodup) {route : RouteModel}
    {points : List (ShapeGeometryRow φ)} :
    routePoints trips shapes route = some points ↔
      ∃ trip ∈ trips, trip.routeId = route.id ∧
        points = shapes.filter (fun s => s.shapeId = trip.shapeId) ∧ points ≠ [] := by
  unfold routePoints
  cases hget : (tripByRouteId trips).get? route.id with
  | none =>
      refine ⟨nofun, fun ⟨trip, htrip, hroute, _⟩ => ?_⟩
      rw [(get?_tripByRouteId h).2 ⟨htrip, hroute⟩] at hget
      cases hget
  | some trip =>
      obtain ⟨htrip, hroute⟩ := (get?_tripByRouteId h).1 hget
      simp only [shapesDict, OrderedDict.getD_groupBy, List.isEmpty_iff]
      constructor
      · intro hpoints
        split_ifs at hpoints with hempty
        obtain rfl := Option.some.inj hpoints
        exact ⟨trip, htrip, hroute, rfl, hempty⟩
      · rintro ⟨trip', htrip', hroute', rfl, hne⟩
        obtain rfl := List.inj_on_of_nodup_map h htrip htrip' (hroute.trans hroute'.symm)
        rw [if_neg hne]

theorem drawnRoutes_concat (routes : List RouteModel) (route : RouteModel) :
    drawnRoutes trips shapes (routes ++ [route]) =
      drawnRoutes trips shapes routes ++
        ((routePoints trips shapes route).map (fun points => (route, points))).toList := by
  rw [drawnRoutes, List.filterMap_append]
  cases hpoints : routePoints trips shapes route with
  | none => rw [List.filterMap_cons_none (by rw [hpoints]; rfl)]; rfl
  | some points => rw [List.filterMap_cons_some (by rw [hpoints]; rfl)]; rfl

/-- The loop draws the routes in order, each in the next colour of the cycle. -/
theorem drawRoutes_eq (routes : List RouteModel) :
    (drawRoutes trips shapes routes).taken = (drawnRoutes trips shapes routes).length ∧
      (drawRoutes trips shapes routes).routeLayers =
        (drawnRoutes trips shapes routes).zipIdx.map (fun drawn =>
          routeLayer drawn.1.1 drawn.1.2 (Colors.cycle drawn.2).toHex) ∧
      (drawRoutes trips shapes routes).routeColorById =
        OrderedDict.collect (fun layer => layer.routeId) (fun layer => some layer.color)
          (drawRoutes trips shapes routes).routeLayers := by
  induction routes using List.reverseRecOn with
  | nil => exact ⟨rfl, rfl, rfl⟩
  | append_singleton routes route ih =>
      obtain ⟨htaken, hlayers, hcolors⟩ := ih
      rw [drawRoutes, List.foldl_concat, ← drawRoutes, drawnRoutes_concat, drawRoute]
      cases hpoints : routePoints trips shapes route with
      | none =>
          simp only [Option.map_none, Option.toList_none, List.append_nil]
          exact ⟨htaken, hlayers, hcolors⟩
      | some points =>
          simp only [Option.map_some, Option.toList_some, List.length_append, List.length_singleton,
            List.zipIdx_append, List.map_append, List.zipIdx_singleton, List.map_singleton,
            Nat.zero_add]
          refine ⟨by rw [htaken], by rw [hlayers, htaken], ?_⟩
          have hconcat := OrderedDict.collect_concat (fun layer : RouteLayer φ => layer.routeId)
            (fun layer => some layer.color) (drawRoutes trips shapes routes).routeLayers
            (a := routeLayer route points
              (Colors.cycle (drawRoutes trips shapes routes).taken).toHex) rfl
          rw [hconcat, ← hcolors]
          rfl

theorem map_routeId_routeLayers (routes : List RouteModel) :
    (drawRoutes trips shapes routes).routeLayers.map (fun layer => layer.routeId) =
      (drawnRoutes trips shapes routes).map (fun drawn => drawn.1.id) := by
  rw [(drawRoutes_eq routes).2.1, List.map_map]
  have hroute : (fun layer : RouteLayer φ => layer.routeId) ∘ (fun drawn :
      (RouteModel × List (ShapeGeometryRow φ)) × ℕ =>
        routeLayer drawn.1.1 drawn.1.2 (Colors.cycle drawn.2).toHex) =
      (fun drawn => drawn.1.id) ∘ Prod.fst := rfl
  rw [hroute, ← List.map_map, List.zipIdx_map_fst]

theorem map_fst_drawnRoutes (routes : List RouteModel) :
    (drawnRoutes trips shapes routes).map Prod.fst =
      routes.filter (fun route => (routePoints trips shapes route).isSome) := by
  rw [drawnRoutes, List.map_filterMap]
  induction routes with
  | nil => rfl
  | cons route routes ih =>
      rw [List.filterMap_cons, List.filter_cons, ih]
      cases routePoints trips shapes route <;> rfl

/-- A layer is that of a route with its points. -/
theorem mem_routeLayers {routes : List RouteModel} {layer : RouteLayer φ}
    (h : layer ∈ (drawRoutes trips shapes routes).routeLayers) :
    ∃ route ∈ routes, ∃ points, routePoints trips shapes route = some points ∧
      ∃ color : Colors, layer = routeLayer route points color.toHex := by
  rw [(drawRoutes_eq routes).2.1] at h
  obtain ⟨⟨⟨route, points⟩, n⟩, hdrawn, rfl⟩ := List.mem_map.1 h
  obtain ⟨route', hroute', hpoints⟩ := List.mem_filterMap.1 (List.fst_mem_of_mem_zipIdx hdrawn)
  obtain ⟨points', hpoints', heq⟩ := Option.map_eq_some_iff.1 hpoints
  cases heq
  exact ⟨route, hroute', points, hpoints', Colors.cycle n, rfl⟩

end Routes

end SimplyTransport

import SimplyTransport.DatasetImports
import SimplyTransport.MapService
import SimplyTransport.StableSort

/-!
# The map of an agency's routes

`DISTINCT ON` leaves the choice of a route's trip to the database, among the trips of one
direction. The map shows every route that can be drawn, whatever the choice, exactly where every
such route has trips in that direction and none of them is without points.
-/

namespace SimplyTransport

variable {φ : Type}

def ShapeModel.geometry (s : ShapeModel φ) : ShapeGeometryRow φ :=
  ⟨s.id, s.shapeId, s.lat, s.lon, s.sequence⟩

def getWithAgencies (db : StaticDb φ) (agencyId : String) : List RouteModel :=
  if agencyId = "All" then db.rows .route
  else (db.rows .route).filter (fun route => route.agencyId = agencyId)

def defaultDirection : ℤ := 1

/-- What `get_first_trips_by_route_ids` can return: one trip of each route that has one in the
direction. -/
structure FirstTrips (trips : List TripModel) (routeIds : List String) (direction : ℤ)
    (result : List TripModel) : Prop where
  mem : ∀ t ∈ result, t ∈ trips ∧ t.routeId ∈ routeIds ∧ t.direction = direction
  nodup : (result.map (fun t => t.routeId)).Nodup
  all : ∀ t ∈ trips, t.routeId ∈ routeIds → t.direction = direction →
    ∃ t' ∈ result, t'.routeId = t.routeId

structure SortedShapes (rows : List (ShapeModel φ)) (shapeIds : List String)
    (result : List (ShapeGeometryRow φ)) : Prop where
  perm : result.Perm ((rows.filter (fun s => s.shapeId ∈ shapeIds)).map ShapeModel.geometry)
  sorted : result.Pairwise (fun a b => a.shapeId = b.shapeId → a.sequence ≤ b.sequence)

/-- What the repositories return for an agency, in whatever order and with whatever choice. -/
structure AgencyMapResults (db : StaticDb φ) (agencyId : String) where
  routes : List RouteModel
  trips : List TripModel
  shapes : List (ShapeGeometryRow φ)
  routes_perm : routes.Perm (getWithAgencies db agencyId)
  firstTrips : FirstTrips (db.rows .trip) (routes.map (fun route => route.id)) defaultDirection trips
  sortedShapes : SortedShapes (db.rows .shape) (trips.map (fun t => t.shapeId)) shapes

def AgencyMapResults.payload {db : StaticDb φ} {agencyId : String}
    (r : AgencyMapResults db agencyId) (defaultMapCenter : φ × φ) :
    Except PyError (AgencyRoutesMapPayload φ) :=
  buildAgencyRoutesMapPayload defaultMapCenter agencyId r.routes r.trips r.shapes

section Statement

variable (db : StaticDb φ) (agencyId : String)

def HasPoints (trip : TripModel) : Prop := ∃ s ∈ db.rows .shape, s.shapeId = trip.shapeId

def Drawable (route : RouteModel) : Prop :=
  ∃ trip ∈ db.rows .trip, trip.routeId = route.id ∧ HasPoints db trip

/-- The line has the points of the trip's shape, in increasing sequence. -/
def LineOf (trip : TripModel) (coordinates : List (φ × φ)) : Prop :=
  ∃ points : List (ShapeGeometryRow φ), points ≠ [] ∧
    points.Perm (((db.rows .shape).filter (fun s => s.shapeId = trip.shapeId)).map
      ShapeModel.geometry) ∧
    points.Pairwise (fun a b => a.sequence ≤ b.sequence) ∧ coordinates = lonLat points

/-- One layer for each route of the agency that can be drawn, with the line of one of its trips,
and no other; an error only where there is no such route. -/
def ShowsDrawable (outcome : Except PyError (AgencyRoutesMapPayload φ)) : Prop :=
  match outcome with
  | .error _ => ∀ route ∈ getWithAgencies db agencyId, ¬ Drawable db route
  | .ok payload =>
    (payload.routes.map (fun layer => layer.routeId)).Nodup ∧
    (∀ route ∈ getWithAgencies db agencyId, Drawable db route →
      ∃ layer ∈ payload.routes, layer.routeId = route.id) ∧
    ∀ layer ∈ payload.routes, ∃ route ∈ getWithAgencies db agencyId, layer.routeId = route.id ∧
      ∃ trip ∈ db.rows .trip, trip.routeId = route.id ∧ LineOf db trip layer.coordinates

/-- Every route that can be drawn has a trip in the default direction, and all those have points. -/
def DrawableInbound : Prop :=
  ∀ route ∈ getWithAgencies db agencyId, Drawable db route →
    (∃ trip ∈ db.rows .trip, trip.routeId = route.id ∧ trip.direction = defaultDirection) ∧
    ∀ trip ∈ db.rows .trip, trip.routeId = route.id → trip.direction = defaultDirection →
      HasPoints db trip

end Statement

section Results

variable {db : StaticDb φ} {agencyId : String}

theorem nodup_ids_getWithAgencies :
    ((getWithAgencies db agencyId).map (fun route => route.id)).Nodup := by
  have hroutes : ((db.rows .route).map (fun route => route.id)).Nodup := by
    have hkeys := db.keys_nodup .route
    rw [← List.filterMap_eq_map']
    exact hkeys
  unfold getWithAgencies
  split_ifs
  · exact hroutes
  · exact hroutes.sublist (List.filter_sublist.map _)

/-- A trip of a route in the direction is the choice of some results. -/
theorem exists_firstTrips (trips : List TripModel) (routeIds : List String) (direction : ℤ)
    (preferred : List TripModel)
    (h : ∀ t ∈ preferred, t ∈ trips ∧ t.routeId ∈ routeIds ∧ t.direction = direction)
    (hone : (preferred.map (fun t => t.routeId)).Nodup) :
    ∃ result, FirstTrips trips routeIds direction result ∧ ∀ t ∈ preferred, t ∈ result := by
  let candidates := trips.filter (fun t => t.routeId ∈ routeIds ∧ t.direction = direction)
  refine ⟨(OrderedDict.lastBy (fun t : TripModel => t.routeId) (candidates ++ preferred)).values,
    ⟨fun t ht => ?_, OrderedDict.nodup_lastBy_values _ _, fun t ht hroute hdirection => ?_⟩,
    fun t ht => ?_⟩
  · rcases List.mem_append.1 (OrderedDict.mem_of_mem_lastBy_values ht) with ht | ht
    · obtain ⟨ht, hcond⟩ := List.mem_filter.1 ht
      exact ⟨ht, of_decide_eq_true hcond⟩
    · exact h t ht
  · have hcandidate : t ∈ candidates ++ preferred :=
      List.mem_append_left _ (List.mem_filter.2 ⟨ht, decide_eq_true ⟨hroute, hdirection⟩⟩)
    exact OrderedDict.exists_mem_lastBy_values (fun t : TripModel => t.routeId) hcandidate
  · obtain ⟨before, after, rfl⟩ := List.append_of_mem ht
    refine OrderedDict.mem_lastBy_values_iff_append.2
      ⟨candidates ++ before, after, (List.append_assoc _ _ _).symm, fun t' ht' heq => ?_⟩
    rw [List.map_append, List.map_cons, List.nodup_append] at hone
    exact (List.nodup_cons.1 hone.2.1).1 (heq ▸ List.mem_map_of_mem ht')

theorem exists_sortedShapes (rows : List (ShapeModel φ)) (shapeIds : List String) :
    ∃ result, SortedShapes rows shapeIds result := by
  have hsorted := StableSort.sorted_mergeSort ShapeGeometryRow.sequence
    ((rows.filter (fun s => s.shapeId ∈ shapeIds)).map ShapeModel.geometry)
  refine ⟨_, List.mergeSort_perm _ _, hsorted.imp ?_⟩
  exact fun hle _ => hle

/-- Results whose choice of trips has these trips. -/
theorem exists_results (db : StaticDb φ) (agencyId : String) (preferred : List TripModel)
    (h : ∀ t ∈ preferred, t ∈ db.rows .trip ∧
      t.routeId ∈ (getWithAgencies db agencyId).map (fun route => route.id) ∧
      t.direction = defaultDirection)
    (hone : (preferred.map (fun t => t.routeId)).Nodup) :
    ∃ r : AgencyMapResults db agencyId, ∀ t ∈ preferred, t ∈ r.trips := by
  obtain ⟨trips, hfirst, hpreferred⟩ := exists_firstTrips _ _ _ preferred h hone
  obtain ⟨shapes, hshapes⟩ := exists_sortedShapes (db.rows .shape) (trips.map (fun t => t.shapeId))
  exact ⟨⟨_, trips, shapes, List.Perm.refl _, hfirst, hshapes⟩, hpreferred⟩

variable (r : AgencyMapResults db agencyId)

/-- The points of a chosen trip are those of its shape. -/
theorem filter_shapes_perm {trip : TripModel} (htrip : trip ∈ r.trips) :
    (r.shapes.filter (fun s => s.shapeId = trip.shapeId)).Perm
      (((db.rows .shape).filter (fun s => s.shapeId = trip.shapeId)).map ShapeModel.geometry) := by
  refine (r.sortedShapes.perm.filter _).trans (List.Perm.of_eq ?_)
  rw [List.filter_map, List.filter_filter]
  congr 1
  refine List.filter_congr (fun s _ => ?_)
  by_cases hs : s.shapeId = trip.shapeId
  · simp [ShapeModel.geometry, hs, List.mem_map_of_mem (f := fun t => t.shapeId) htrip]
  · simp [ShapeModel.geometry, hs]

theorem filter_shapes_ne_nil_iff {trip : TripModel} (htrip : trip ∈ r.trips) :
    r.shapes.filter (fun s => s.shapeId = trip.shapeId) ≠ [] ↔ HasPoints db trip := by
  rw [Ne, ← List.length_eq_zero_iff, (filter_shapes_perm r htrip).length_eq, List.length_map,
    List.length_eq_zero_iff, List.filter_eq_nil_iff, HasPoints]
  push Not
  simp only [decide_eq_true_eq]

theorem lineOf {trip : TripModel} (htrip : trip ∈ r.trips) (hpoints : HasPoints db trip) :
    LineOf db trip (lonLat (r.shapes.filter (fun s => s.shapeId = trip.shapeId))) := by
  refine ⟨_, (filter_shapes_ne_nil_iff r htrip).2 hpoints, filter_shapes_perm r htrip, ?_, rfl⟩
  refine (r.sortedShapes.sorted.filter _).imp_of_mem (fun ha hb hle => hle ?_)
  exact (of_decide_eq_true (List.mem_filter.1 ha).2).trans
    (of_decide_eq_true (List.mem_filter.1 hb).2).symm

def AgencyMapResults.layers : List (RouteLayer φ) :=
  (drawRoutes r.trips r.shapes r.routes).routeLayers

/-- A layer belongs to a route of the agency, and shows the chosen trip. -/
theorem exists_trip_of_mem_layers {layer : RouteLayer φ} (h : layer ∈ r.layers) :
    ∃ route ∈ getWithAgencies db agencyId, layer.routeId = route.id ∧
      ∃ trip ∈ r.trips, trip.routeId = route.id ∧ HasPoints db trip ∧
        layer.coordinates = lonLat (r.shapes.filter (fun s => s.shapeId = trip.shapeId)) := by
  obtain ⟨route, hroute, points, hpoints, color, rfl⟩ := mem_routeLayers h
  obtain ⟨trip, htrip, htripRoute, rfl, hne⟩ := (routePoints_eq_some r.firstTrips.nodup).1 hpoints
  exact ⟨route, r.routes_perm.mem_iff.1 hroute, rfl, trip, htrip, htripRoute,
    (filter_shapes_ne_nil_iff r htrip).1 hne, rfl⟩

theorem exists_layer_of_trip {route : RouteModel} (hroute : route ∈ getWithAgencies db agencyId)
    {trip : TripModel} (htrip : trip ∈ r.trips) (htripRoute : trip.routeId = route.id)
    (hpoints : HasPoints db trip) : ∃ layer ∈ r.layers, layer.routeId = route.id := by
  have hsome := (routePoints_eq_some r.firstTrips.nodup).2
    ⟨trip, htrip, htripRoute, rfl, (filter_shapes_ne_nil_iff r htrip).2 hpoints⟩
  have hmem : route.id ∈ r.layers.map (fun layer => layer.routeId) := by
    rw [AgencyMapResults.layers, map_routeId_routeLayers]
    have hdrawn : (route, r.shapes.filter (fun s => s.shapeId = trip.shapeId)) ∈
        drawnRoutes r.trips r.shapes r.routes :=
      List.mem_filterMap.2 ⟨route, r.routes_perm.mem_iff.2 hroute, by rw [hsome]; rfl⟩
    exact List.mem_map.2 ⟨_, hdrawn, rfl⟩
  exact List.mem_map.1 hmem

theorem nodup_layers : (r.layers.map (fun layer => layer.routeId)).Nodup := by
  have hroutes : (r.routes.map (fun route => route.id)).Nodup :=
    (r.routes_perm.map _).nodup_iff.2 nodup_ids_getWithAgencies
  have hfst : (drawnRoutes r.trips r.shapes r.routes).map (fun drawn => drawn.1.id) =
      ((drawnRoutes r.trips r.shapes r.routes).map Prod.fst).map (fun route => route.id) :=
    (List.map_map).symm
  rw [AgencyMapResults.layers, map_routeId_routeLayers, hfst, map_fst_drawnRoutes]
  exact hroutes.sublist (List.filter_sublist.map _)

/-- The service raises where it has no layer. -/
theorem payload_eq (defaultMapCenter : φ × φ) : r.payload defaultMapCenter =
    if r.layers.isEmpty then .error .valueError
    else .ok ⟨centerFromRouteLayers defaultMapCenter r.layers, 7, agencyId, r.layers⟩ := by
  unfold AgencyMapResults.payload buildAgencyRoutesMapPayload AgencyMapResults.layers
  cases r.routes with
  | nil => rfl
  | cons route routes => rfl

theorem showsDrawable_iff (defaultMapCenter : φ × φ) :
    ShowsDrawable db agencyId (r.payload defaultMapCenter) ↔
      ∀ route ∈ getWithAgencies db agencyId, Drawable db route →
        ∃ layer ∈ r.layers, layer.routeId = route.id := by
  rw [payload_eq]
  split_ifs with hempty
  · rw [List.isEmpty_iff] at hempty
    simp only [ShowsDrawable, hempty, List.not_mem_nil, false_and, exists_false, imp_false]
  · refine ⟨fun h => h.2.1, fun h => ⟨nodup_layers r, h, fun layer hlayer => ?_⟩⟩
    obtain ⟨route, hroute, hid, trip, htrip, htripRoute, hpoints, hline⟩ :=
      exists_trip_of_mem_layers r hlayer
    exact ⟨route, hroute, hid, trip, (r.firstTrips.mem trip htrip).1, htripRoute,
      hline ▸ lineOf r htrip hpoints⟩

/-- A route of a layer has the chosen trip, which has points. -/
theorem exists_chosen_of_layer {route : RouteModel}
    (h : ∃ layer ∈ r.layers, layer.routeId = route.id) :
    ∃ trip ∈ r.trips, trip.routeId = route.id ∧ HasPoints db trip := by
  obtain ⟨layer, hlayer, hid⟩ := h
  obtain ⟨route', -, hid', trip, htrip, htripRoute, hpoints, -⟩ := exists_trip_of_mem_layers r hlayer
  exact ⟨trip, htrip, htripRoute.trans (hid'.symm.trans hid), hpoints⟩

end Results

/-- For every choice of the database, the agency's map shows the routes that can be drawn, exactly
where each of them has trips in the default direction, all with points. -/
theorem agency_map_shows_drawable_iff (db : StaticDb φ) (agencyId : String)
    (defaultMapCenter : φ × φ) :
    (∀ r : AgencyMapResults db agencyId,
      ShowsDrawable db agencyId (r.payload defaultMapCenter)) ↔ DrawableInbound db agencyId := by
  simp only [showsDrawable_iff]
  constructor
  · intro h route hroute hdrawable
    constructor
    · obtain ⟨r, -⟩ := exists_results db agencyId [] nofun List.nodup_nil
      obtain ⟨trip, htrip, htripRoute, -⟩ := exists_chosen_of_layer r (h r route hroute hdrawable)
      obtain ⟨hmem, -, hdirection⟩ := r.firstTrips.mem trip htrip
      exact ⟨trip, hmem, htripRoute, hdirection⟩
    · intro trip htrip htripRoute hdirection
      -- the database can choose this trip
      obtain ⟨r, hr⟩ := exists_results db agencyId [trip]
        (fun t ht => List.mem_singleton.1 ht ▸
          ⟨htrip, htripRoute ▸ List.mem_map_of_mem hroute, hdirection⟩)
        (List.nodup_singleton _)
      obtain ⟨chosen, hchosen, hchosenRoute, hpoints⟩ :=
        exists_chosen_of_layer r (h r route hroute hdrawable)
      rwa [List.inj_on_of_nodup_map r.firstTrips.nodup hchosen (hr trip List.mem_cons_self)
        (hchosenRoute.trans htripRoute.symm)] at hpoints
  · intro h r route hroute hdrawable
    obtain ⟨⟨trip, htrip, htripRoute, hdirection⟩, hall⟩ := h route hroute hdrawable
    have hid : trip.routeId ∈ r.routes.map (fun route => route.id) := by
      rw [htripRoute]
      exact List.mem_map_of_mem (r.routes_perm.mem_iff.2 hroute)
    obtain ⟨chosen, hchosen, hchosenRoute⟩ := r.firstTrips.all trip htrip hid hdirection
    obtain ⟨hmem, -, hchosenDirection⟩ := r.firstTrips.mem chosen hchosen
    have hroute' : chosen.routeId = route.id := hchosenRoute.trans htripRoute
    exact exists_layer_of_trip r hroute hchosen hroute' (hall chosen hmem hroute' hchosenDirection)

section Examples

def outboundRows : (t : StaticTable) → List (t.Row ℤ)
  | .route => [⟨"3-39", "1", "39", "Burlington Road - Ongar", "", 3, "", "", "", "TFI"⟩]
  | .trip => [⟨"T1", "3-39", "S1", "SH1", "Ongar", "", 0, "", "TFI"⟩]
  | .shape => [⟨1, "SH1", 53, -6, 1, none, "TFI"⟩]
  | .agency | .calendar | .calendarDate | .stop | .stopTime => []

theorem nodup_outboundRows (t : StaticTable) : ((outboundRows t).filterMap t.key).Nodup := by
  cases t <;> decide

def outboundDb : StaticDb ℤ :=
  ⟨outboundRows, [], nodup_outboundRows, fun _ hf => absurd hf List.not_mem_nil⟩

theorem firstTrips_outbound : FirstTrips (outboundDb.rows .trip) ["3-39"] defaultDirection [] :=
  ⟨fun _ ht => absurd ht List.not_mem_nil, List.nodup_nil, fun t ht _ hdirection => by
    obtain rfl := List.mem_singleton.1 ht
    exact absurd hdirection (by decide)⟩

theorem sortedShapes_outbound : SortedShapes (outboundDb.rows .shape) [] [] :=
  ⟨List.Perm.refl _, List.Pairwise.nil⟩

def outboundResults : AgencyMapResults outboundDb "1" :=
  ⟨outboundDb.rows .route, [], [], List.Perm.refl _, firstTrips_outbound, sortedShapes_outbound⟩

/-- The agency's map fails although its route can be drawn. -/
theorem outbound_route_is_missing :
    outboundResults.payload (-7, 53) = .error .valueError ∧
      ¬ ShowsDrawable outboundDb "1" (outboundResults.payload (-7, 53)) := by
  refine ⟨rfl, fun h => ?_⟩
  refine h ⟨"3-39", "1", "39", "Burlington Road - Ongar", "", 3, "", "", "", "TFI"⟩ ?_ ?_
  · exact List.mem_singleton.2 rfl
  · exact ⟨⟨"T1", "3-39", "S1", "SH1", "Ongar", "", 0, "", "TFI"⟩, List.mem_singleton.2 rfl, rfl,
      ⟨1, "SH1", 53, -6, 1, none, "TFI"⟩, List.mem_singleton.2 rfl, rfl⟩

end Examples

end SimplyTransport

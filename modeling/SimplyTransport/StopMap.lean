import SimplyTransport.MapService

/-!
# The map of a stop

What the payload of a stop's map contains, for any results of the repositories: a layer for each
route that can be drawn, the stop itself before the other stops, and each vehicle once in the
colour of its route.
-/

namespace SimplyTransport

variable {φ : Type}

namespace StopMapResults

variable (r : StopMapResults φ)

def Shows (route : RouteModel) (points : List (ShapeGeometryRow φ)) : Prop :=
  ∃ trip ∈ r.trips, trip.routeId = route.id ∧
    points = r.shapes.filter (fun s => s.shapeId = trip.shapeId) ∧ points ≠ []

def isDrawable (route : RouteModel) : Bool :=
  r.trips.any (fun t => t.routeId = route.id ∧ r.shapes.any (fun s => s.shapeId = t.shapeId))

/-- The layers are those of the routes that can be drawn, in their order, each with the points of
its own shape. -/
structure LayersWellFormed (layers : List (RouteLayer φ)) : Prop where
  routeIds : layers.map (fun layer => layer.routeId) =
    (r.routes.filter r.isDrawable).map (fun route => route.id)
  nodup : (layers.map (fun layer => layer.routeId)).Nodup
  line : ∀ layer ∈ layers, ∃ route ∈ r.routes, ∃ points, r.Shows route points ∧
    layer.routeId = route.id ∧ layer.shortName = route.shortName ∧
      layer.longName = route.longName ∧ layer.coordinates = lonLat points

/-- The stop comes first and alone has the focus, and the others are the returned stops that have
coordinates, each once. -/
structure StopsWellFormed (stops : List (StopMapStop φ)) : Prop where
  focus : ∃ focus rest, stops = focus :: rest ∧ stopToMapStop r.stop true = some focus ∧
    ∀ p, p ∈ rest ↔ ∃ s ∈ r.otherStops, s.id ≠ r.stop.id ∧ stopToMapStop s false = some p
  only_focus : ∀ p ∈ stops, p.isFocus = true ↔ p.stopId = r.stop.id
  nodup : (stops.map (fun p => p.stopId)).Nodup

/-- Each returned vehicle comes once, in the colour of its route's layer, and in the fallback
colour exactly where there is none. -/
structure VehiclesWellFormed (layers : List (RouteLayer φ)) (points : List (VehiclePoint φ)) :
    Prop where
  colored : ∃ color : String → String,
    points.Perm (r.vehicles.map (fun v =>
      vehiclePointFromRt v v.trip.routeId (color v.trip.routeId))) ∧
    (∀ layer ∈ layers, color layer.routeId = layer.color) ∧
    ∀ routeId, color routeId = fallbackColor ↔ ∀ layer ∈ layers, layer.routeId ≠ routeId

structure WellFormed (payload : StopMapPayload φ) : Prop where
  layers : r.LayersWellFormed payload.routes
  stops : r.StopsWellFormed payload.stops
  vehicles : r.VehiclesWellFormed payload.routes payload.vehicles
  focusStopId : payload.focusStopId = r.stop.id

end StopMapResults

section Layers

variable (r : StopMapResults φ)

theorem routePoints_eq_some_iff_shows {route : RouteModel} {points : List (ShapeGeometryRow φ)} :
    routePoints r.trips r.shapes route = some points ↔ r.Shows route points :=
  routePoints_eq_some r.trips_nodup

theorem isSome_routePoints (route : RouteModel) :
    (routePoints r.trips r.shapes route).isSome = r.isDrawable route := by
  rw [Bool.eq_iff_iff, Option.isSome_iff_exists, StopMapResults.isDrawable, List.any_eq_true]
  simp only [routePoints_eq_some_iff_shows, StopMapResults.Shows, decide_eq_true_eq,
    List.any_eq_true]
  constructor
  · rintro ⟨points, trip, htrip, hroute, rfl, hne⟩
    obtain ⟨s, hs⟩ := List.exists_mem_of_ne_nil _ hne
    obtain ⟨hs, hshape⟩ := List.mem_filter.1 hs
    exact ⟨trip, htrip, hroute, s, hs, of_decide_eq_true hshape⟩
  · rintro ⟨trip, htrip, hroute, s, hs, hshape⟩
    exact ⟨_, trip, htrip, hroute, rfl,
      List.ne_nil_of_mem (List.mem_filter.2 ⟨hs, decide_eq_true hshape⟩)⟩

theorem layersWellFormed :
    r.LayersWellFormed (drawRoutes r.trips r.shapes r.routes).routeLayers := by
  have hids : (drawRoutes r.trips r.shapes r.routes).routeLayers.map
      (fun layer => layer.routeId) =
      (r.routes.filter r.isDrawable).map (fun route => route.id) := by
    have hfst : (drawnRoutes r.trips r.shapes r.routes).map (fun drawn => drawn.1.id) =
        ((drawnRoutes r.trips r.shapes r.routes).map Prod.fst).map (fun route => route.id) :=
      (List.map_map).symm
    rw [map_routeId_routeLayers, hfst, map_fst_drawnRoutes]
    simp only [isSome_routePoints]
  refine ⟨hids, ?_, fun layer hlayer => ?_⟩
  · rw [hids]
    exact r.routes_nodup.sublist (List.filter_sublist.map _)
  · obtain ⟨route, hroute, points, hpoints, color, rfl⟩ := mem_routeLayers hlayer
    exact ⟨route, hroute, points, (routePoints_eq_some_iff_shows r).1 hpoints, rfl, rfl, rfl, rfl⟩

end Layers

section Stops

theorem stopToMapStop_eq_some {s : LocatedStop φ} {isFocus : Bool} {p : StopMapStop φ}
    (h : stopToMapStop s isFocus = some p) : p.stopId = s.id ∧ p.isFocus = isFocus := by
  unfold stopToMapStop at h
  split at h
  · obtain rfl := Option.some.inj h
    exact ⟨rfl, rfl⟩
  · cases h

/-- What the loop over the other stops keeps: the ids that it has seen, and the stops that it has
put out after the first. -/
structure StopsInv (focusId : String) (others : List (LocatedStop φ)) (focus : StopMapStop φ)
    (out : StopsOut φ) (rest : List (StopMapStop φ)) : Prop where
  stops : out.stops = focus :: rest
  seen : ∀ id, id ∈ out.seen ↔ id = focusId ∨ ∃ s ∈ others, s.id = id
  mem : ∀ p, p ∈ rest ↔ ∃ s ∈ others, s.id ≠ focusId ∧ stopToMapStop s false = some p
  nodup : (rest.map (fun p => p.stopId)).Nodup

theorem StopsInv.start (focusId : String) (focus : StopMapStop φ) :
    StopsInv focusId [] focus ⟨[focusId], [focus]⟩ [] :=
  ⟨rfl, fun id => by simp, fun p => by simp, List.nodup_nil⟩

/-- A stop of the same id as one before is that stop. -/
theorem StopsInv.step {focusId : String} {others : List (LocatedStop φ)} {focus : StopMapStop φ}
    {out : StopsOut φ} {rest : List (StopMapStop φ)} (h : StopsInv focusId others focus out rest)
    {s : LocatedStop φ} (hs : ∀ t ∈ others, t.id = s.id → t = s) :
    ∃ rest', StopsInv focusId (others ++ [s]) focus (addStop out s) rest' := by
  have hseen : ∀ id, id ∈ s.id :: out.seen ↔ id = focusId ∨ ∃ t ∈ others ++ [s], t.id = id := by
    intro id
    rw [List.mem_cons, h.seen]
    simp only [List.mem_append, List.mem_singleton, or_and_right, exists_or, exists_eq_left,
      eq_comm (a := id) (b := s.id)]
    rw [or_left_comm, or_comm (a := s.id = id)]
  have hmem : ∀ p, (∃ t ∈ others ++ [s], t.id ≠ focusId ∧ stopToMapStop t false = some p) ↔
      p ∈ rest ∨ s.id ≠ focusId ∧ stopToMapStop s false = some p := fun p => by
    rw [h.mem]
    simp only [List.mem_append, List.mem_singleton, or_and_right, exists_or, exists_eq_left]
  unfold addStop
  by_cases hin : s.id ∈ out.seen
  · rw [if_pos hin]
    refine ⟨rest, h.stops, fun id => ?_, fun p => ?_, h.nodup⟩
    · rw [← hseen id, List.mem_cons]
      exact ⟨Or.inr, fun hid => hid.elim (fun heq => heq ▸ hin) (fun hid => hid)⟩
    · rw [hmem p]
      refine ⟨Or.inl, fun hp => hp.elim (fun hp => hp) (fun hnew => ?_)⟩
      rcases (h.seen s.id).1 hin with heq | ⟨t, ht, heq⟩
      · exact absurd heq hnew.1
      · exact (h.mem p).2 ⟨t, ht, heq ▸ hnew.1, hs t ht heq ▸ hnew.2⟩
  · rw [if_neg hin]
    have hne : s.id ≠ focusId := fun heq => hin ((h.seen s.id).2 (Or.inl heq))
    cases hp : stopToMapStop s false with
    | none =>
        refine ⟨rest, h.stops, hseen, fun p => ?_, h.nodup⟩
        rw [hmem p, hp]
        exact ⟨Or.inl, fun hp => hp.elim (fun hp => hp) (fun hnew => by cases hnew.2)⟩
    | some q =>
        refine ⟨rest ++ [q], ?_, hseen, fun p => ?_, ?_⟩
        · change out.stops ++ [q] = _
          rw [h.stops, List.cons_append]
        · rw [hmem p, hp, List.mem_append, List.mem_singleton, Option.some.injEq, eq_comm (a := q)]
          exact or_congr_right (and_iff_right hne).symm
        · rw [List.map_append, List.map_singleton, List.nodup_append]
          refine ⟨h.nodup, List.nodup_singleton _, fun id hid id' hid' heq => ?_⟩
          obtain ⟨p, hprest, rfl⟩ := List.mem_map.1 hid
          obtain ⟨t, ht, -, htp⟩ := (h.mem p).1 hprest
          rw [List.mem_singleton, (stopToMapStop_eq_some hp).1] at hid'
          have hid : t.id = s.id := (stopToMapStop_eq_some htp).1.symm.trans (heq.trans hid')
          exact hin ((h.seen s.id).2 (Or.inr ⟨t, ht, hid⟩))

theorem exists_stopsInv (focusId : String) (focus : StopMapStop φ)
    (others : List (LocatedStop φ)) (h : ∀ s ∈ others, ∀ t ∈ others, s.id = t.id → s = t) :
    ∃ rest, StopsInv focusId others focus (others.foldl addStop ⟨[focusId], [focus]⟩) rest := by
  induction others using List.reverseRecOn with
  | nil => exact ⟨[], StopsInv.start focusId focus⟩
  | append_singleton others s ih =>
      obtain ⟨rest, hinv⟩ := ih (fun s hs t ht =>
        h s (List.mem_append_left _ hs) t (List.mem_append_left _ ht))
      rw [List.foldl_concat]
      exact hinv.step (fun t ht => h t (List.mem_append_left _ ht) s
        (List.mem_append_right _ List.mem_cons_self))

theorem stopsWellFormed (r : StopMapResults φ) {focus : StopMapStop φ}
    (hfocus : stopToMapStop r.stop true = some focus) :
    r.StopsWellFormed (r.otherStops.foldl addStop ⟨[r.stop.id], [focus]⟩).stops := by
  obtain ⟨rest, hinv⟩ := exists_stopsInv r.stop.id focus r.otherStops r.otherStops_eq
  obtain ⟨hid, hisFocus⟩ := stopToMapStop_eq_some hfocus
  have hrest : ∀ p ∈ rest, p.isFocus = false ∧ p.stopId ≠ r.stop.id := by
    intro p hp
    obtain ⟨s, -, hne, hsp⟩ := (hinv.mem p).1 hp
    obtain ⟨hpid, hpfocus⟩ := stopToMapStop_eq_some hsp
    exact ⟨hpfocus, hpid ▸ hne⟩
  refine ⟨⟨focus, rest, hinv.stops, hfocus, hinv.mem⟩, fun p hp => ?_, ?_⟩
  · rw [hinv.stops] at hp
    rcases List.mem_cons.1 hp with rfl | hp
    · exact ⟨fun _ => hid, fun _ => hisFocus⟩
    · obtain ⟨hfalse, hne⟩ := hrest p hp
      exact ⟨fun htrue => absurd (hfalse.symm.trans htrue) (by decide),
        fun heq => absurd heq hne⟩
  · rw [hinv.stops, List.map_cons, List.nodup_cons, hid]
    refine ⟨fun hmem => ?_, hinv.nodup⟩
    obtain ⟨p, hp, heq⟩ := List.mem_map.1 hmem
    exact (hrest p hp).2 heq

end Stops

section Vehicles

theorem vehiclesPayload_perm (vehicles : List (LoadedVehicle φ))
    (routeColorById : OrderedDict String String) :
    (vehiclesPayload vehicles routeColorById).Perm (vehicles.map (fun v =>
      vehiclePointFromRt v v.trip.routeId
        (routeColorById.getD v.trip.routeId fallbackColor))) := by
  have hgroup : vehiclesPayload vehicles routeColorById =
      ((OrderedDict.groupBy (fun v : LoadedVehicle φ => v.trip.routeId) vehicles).entries.flatMap
        (fun e => e.2)).map (fun v => vehiclePointFromRt v v.trip.routeId
          (routeColorById.getD v.trip.routeId fallbackColor)) := by
    rw [vehiclesPayload, List.map_flatMap]
    refine List.flatMap_congr (fun e he => List.map_congr_left (fun v hv => ?_))
    rw [OrderedDict.eq_filter_of_mem_groupBy he, List.mem_filter, decide_eq_true_eq] at hv
    rw [hv.2]
  rw [hgroup]
  exact (OrderedDict.groupBy_perm _ vehicles).map _

theorem vehiclesWellFormed (r : StopMapResults φ) :
    r.VehiclesWellFormed (drawRoutes r.trips r.shapes r.routes).routeLayers
      (vehiclesPayload r.vehicles (drawRoutes r.trips r.shapes r.routes).routeColorById) := by
  have hcolor : ∀ routeId color,
      (drawRoutes r.trips r.shapes r.routes).routeColorById.get? routeId = some color ↔
        ∃ layer ∈ (drawRoutes r.trips r.shapes r.routes).routeLayers,
          layer.routeId = routeId ∧ layer.color = color := fun routeId color => by
    rw [(drawRoutes_eq r.routes).2.2,
      OrderedDict.get?_collect_of_nodup (layersWellFormed r).nodup]
    simp only [Option.some.injEq]
  refine ⟨fun routeId =>
    (drawRoutes r.trips r.shapes r.routes).routeColorById.getD routeId fallbackColor,
    vehiclesPayload_perm r.vehicles _, fun layer hlayer => ?_, fun routeId => ?_⟩
  · simp only [OrderedDict.getD, (hcolor _ _).2 ⟨layer, hlayer, rfl, rfl⟩, Option.getD_some]
  · simp only [OrderedDict.getD]
    cases hget : (drawRoutes r.trips r.shapes r.routes).routeColorById.get? routeId with
    | none =>
        refine ⟨fun _ layer hlayer heq => ?_, fun _ => rfl⟩
        rw [(hcolor routeId layer.color).2 ⟨layer, hlayer, heq, rfl⟩] at hget
        cases hget
    | some color =>
        obtain ⟨layer, hlayer, hroute, rfl⟩ := (hcolor routeId color).1 hget
        obtain ⟨_, _, _, _, c, hc⟩ := mem_routeLayers hlayer
        refine ⟨fun hfallback => ?_, fun hnone => absurd hroute (hnone layer hlayer)⟩
        rw [Option.getD_some, hc] at hfallback
        exact absurd hfallback c.toHex_ne_fallbackColor

end Vehicles

/-- The map of a stop, for any results of the repositories: there is none exactly where the stop
has no coordinates, it fails only for a direction that is no direction, and else it is well
formed. -/
theorem stop_map_payload_wellFormed (r : StopMapResults φ) :
    match buildStopMapPayload r with
    | .ok (some payload) => r.WellFormed payload
    | .ok none => r.stop.lat = none ∨ r.stop.lon = none
    | .error _ => r.direction ≠ 0 ∧ r.direction ≠ 1 := by
  unfold buildStopMapPayload
  cases hlat : r.stop.lat with
  | none => exact Or.inl rfl
  | some lat =>
      cases hlon : r.stop.lon with
      | none => exact Or.inr rfl
      | some lon =>
          have hfocus : stopToMapStop r.stop true =
              some ⟨r.stop.id, r.stop.code, r.stop.name, lat, lon, true⟩ := by
            rw [stopToMapStop, hlat, hlon]
          cases hdirection : ApiContracts.directionField r.direction with
          | error e =>
              change r.direction ≠ 0 ∧ r.direction ≠ 1
              unfold ApiContracts.directionField at hdirection
              split_ifs at hdirection with hzero hone
              exact ⟨hzero, hone⟩
          | ok direction =>
              exact ⟨layersWellFormed r, stopsWellFormed r hfocus, vehiclesWellFormed r, rfl⟩

end SimplyTransport

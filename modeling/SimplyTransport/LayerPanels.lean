import SimplyTransport.RouteMap
import SimplyTransport.Transition

/-!
# The layer panels of the maps

Each map has a panel with a row for each of its routes, for its vehicles or for its stops. The box of
a row shows and hides layers by their ids, and one button does so for all rows at once. The boxes
always tell what is shown exactly when no two rows name one layer. The maps of a route and of an
agency have such rows. On the map of a stop the ids of the layers are made from the ids of the
routes, and two of them can be the same.
-/

namespace SimplyTransport.LayerPanels

open Transition

/-- The ids of the layers of a map in the order they are added, where an id that is there already adds
none, and the ids each row of its panel sets. -/
structure Panel where
  layers : List String
  rows : List (List String)

structure State where
  allOn : Bool
  textContent : String
  checked : List Bool
  visible : String → Bool

inductive Event
  | toggleAll
  | change (row : ℕ)

section Model

variable (p : Panel)

def setLayerVisibility (visible : String → Bool) (id : String) (vis : Bool) : String → Bool :=
  if id ∈ p.layers then Function.update visible id vis else visible

def setLayers (visible : String → Bool) (ids : List String) (vis : Bool) : String → Bool :=
  ids.foldl (fun visible id => setLayerVisibility p visible id vis) visible

def start : State := ⟨true, "Toggle all off", p.rows.map (fun _ => true), fun _ => true⟩

/-- A click on the button, or on the box of a row, which changes the box first. -/
def next (s : State) : Event → Option State
  | .toggleAll =>
      let allOn := !s.allOn
      some {
        allOn := allOn
        textContent := if allOn then "Toggle all off" else "Toggle all on"
        checked := s.checked.map (fun _ => allOn)
        visible := setLayers p s.visible p.rows.flatten allOn }
  | .change i =>
      match p.rows[i]?, s.checked[i]? with
      | some row, some checked => some { s with
          checked := s.checked.set i (!checked)
          visible := setLayers p s.visible row (!checked) }
      | _, _ => none

/-- The boxes tell which of their layers are shown, the button what it does to the boxes, and layers
without a box are shown. -/
structure Tells (s : State) : Prop where
  boxes : ∀ (i : ℕ) (row : List String), p.rows[i]? = some row → ∀ id ∈ row, id ∈ p.layers →
    s.checked[i]? = some (s.visible id)
  others : ∀ id, (∀ row ∈ p.rows, id ∉ row) → s.visible id = true
  text : s.textContent = if s.allOn then "Toggle all off" else "Toggle all on"

def AlwaysTells : Prop := ∀ s, Run (next p) (start p) s → Tells p s

def Panel.Apart (row row' : List String) : Prop := ∀ id ∈ row, id ∈ p.layers → id ∉ row'

end Model

section Panels

variable {φ : Type}

/-- The layers of a route on the map of a stop: `st.line`, and with vehicles `st.vehicle`,
`st.vehiclePulse` and `st.vehicleLabel`. -/
def routeLayers (hasVehicles : Bool) (routeId : String) : List String :=
  ("route-line-" ++ routeId) ::
    if hasVehicles then
      ["vehicle-" ++ routeId, "vehicle-pulse-" ++ routeId, "vehicle-label-" ++ routeId]
    else []

def stopMapPanel (payload : StopMapPayload φ) : Panel :=
  let hasVehicles := !payload.vehicles.isEmpty
  let routeIds := payload.routes.map (fun route => route.routeId)
  { layers := "osm" :: routeIds.map (fun id => "route-line-" ++ id) ++
      ["stops-other", "stops-focus"] ++
      (if hasVehicles then routeIds.flatMap (fun id =>
        ["vehicle-pulse-" ++ id, "vehicle-" ++ id, "vehicle-label-" ++ id]) else []) ++
      ["stops-labels-focus", "stops-labels-other"]
    rows := routeIds.map (routeLayers hasVehicles) ++ [["stops-other", "stops-labels-other"]] }

def routeMapPanel (payload : RouteMapPayload φ) : Panel :=
  let vehicles :=
    if payload.vehicles.isEmpty then []
    else ["vehicle-pulse-main", "vehicle-main", "vehicle-labels-main"]
  { layers := "osm" :: "route-line-main" :: "stops-all" :: vehicles ++ ["stops-labels-main"]
    rows := ["route-line-main"] :: (if payload.vehicles.isEmpty then [] else [vehicles]) ++
      [["stops-all", "stops-labels-main"]] }

def agencyMapPanel (payload : AgencyRoutesMapPayload φ) : Panel :=
  let lines := payload.routes.map (fun route => "agency-route-line-" ++ route.routeId)
  { layers := "osm" :: lines
    rows := lines.map (fun line => [line]) }

end Panels

section Clicks

variable {p : Panel} {s : State}

theorem setLayers_apply (visible : String → Bool) (ids : List String) (vis : Bool) (id : String) :
    setLayers p visible ids vis id = if id ∈ ids ∧ id ∈ p.layers then vis else visible id := by
  induction ids generalizing visible with
  | nil => simp [setLayers]
  | cons first ids ih =>
      change setLayers p (setLayerVisibility p visible first vis) ids vis id = _
      rw [ih]
      by_cases hrest : id ∈ ids ∧ id ∈ p.layers
      · rw [if_pos hrest, if_pos ⟨List.mem_cons_of_mem _ hrest.1, hrest.2⟩]
      · rw [if_neg hrest, setLayerVisibility]
        by_cases hid : id = first
        · subst hid
          by_cases hlayer : id ∈ p.layers <;> simp [hlayer]
        · have hcons : ¬ (id ∈ first :: ids ∧ id ∈ p.layers) := by
            simpa [hid] using hrest
          rw [if_neg hcons]
          by_cases hlayer : first ∈ p.layers <;> simp [hlayer, hid]

theorem Panel.Apart.symm {row row' : List String} (h : p.Apart row row') : p.Apart row' row :=
  fun id hid' hlayer hid => h id hid hlayer hid'

instance : Std.Symm p.Apart := ⟨fun _ _ h => Panel.Apart.symm h⟩

theorem apart_of_ne (h : p.rows.Pairwise p.Apart) {i j : ℕ} {row row' : List String}
    (hi : p.rows[i]? = some row) (hj : p.rows[j]? = some row') (hij : i ≠ j) :
    p.Apart row row' := by
  obtain ⟨hilt, rfl⟩ := List.getElem?_eq_some_iff.1 hi
  obtain ⟨hjlt, rfl⟩ := List.getElem?_eq_some_iff.1 hj
  have hall := List.pairwise_iff_getElem.1 h
  rcases Nat.lt_or_gt_of_ne hij with hlt | hgt
  · exact hall i j hilt hjlt hlt
  · exact Panel.Apart.symm (hall j i hjlt hilt hgt)

theorem tells_start : Tells p (start p) where
  boxes i row hrow id _ _ := by
    rw [start, List.getElem?_map, hrow]
    rfl
  others _ _ := rfl
  text := rfl

theorem tells_toggleAll (h : Tells p s) {s' : State} (hnext : next p s .toggleAll = some s') :
    Tells p s' := by
  obtain rfl := Option.some.inj hnext
  constructor
  · intro i row hrow id hid hlayer
    have hmem : id ∈ p.rows.flatten :=
      List.mem_flatten.2 ⟨row, List.mem_of_getElem? hrow, hid⟩
    change (s.checked.map (fun _ => !s.allOn))[i]? =
      some (setLayers p s.visible p.rows.flatten (!s.allOn) id)
    rw [List.getElem?_map, h.boxes i row hrow id hid hlayer, setLayers_apply, if_pos ⟨hmem, hlayer⟩]
    rfl
  · intro id hid
    have hmem : id ∉ p.rows.flatten := by
      intro hmem
      obtain ⟨row, hrow, hin⟩ := List.mem_flatten.1 hmem
      exact hid row hrow hin
    change setLayers p s.visible p.rows.flatten (!s.allOn) id = true
    rw [setLayers_apply, if_neg (fun hand => hmem hand.1)]
    exact h.others id hid
  · rfl

theorem next_change {i : ℕ} {s' : State} (hnext : next p s (.change i) = some s') :
    ∃ row checked, p.rows[i]? = some row ∧ s.checked[i]? = some checked ∧
      s' = { s with
        checked := s.checked.set i (!checked)
        visible := setLayers p s.visible row (!checked) } := by
  simp only [next] at hnext
  split at hnext
  · rename_i row checked hrow hchecked
    exact ⟨row, checked, hrow, hchecked, (Option.some.inj hnext).symm⟩
  · cases hnext

theorem tells_change (hapart : p.rows.Pairwise p.Apart) (h : Tells p s) {i : ℕ} {s' : State}
    (hnext : next p s (.change i) = some s') : Tells p s' := by
  obtain ⟨row, checked, hrow, hchecked, rfl⟩ := next_change hnext
  constructor
  · intro j row' hrow' id hid hlayer
    change (s.checked.set i (!checked))[j]? = some (setLayers p s.visible row (!checked) id)
    by_cases hij : i = j
    · -- the row of the box
      subst hij
      have hsame : row = row' := Option.some.inj (hrow.symm.trans hrow')
      subst hsame
      obtain ⟨hlt, -⟩ := List.getElem?_eq_some_iff.1 hchecked
      rw [List.getElem?_set_self hlt, setLayers_apply, if_pos ⟨hid, hlayer⟩]
    · -- another row, none of whose layers the box changes
      have hnot : id ∉ row := apart_of_ne hapart hrow' hrow (Ne.symm hij) id hid hlayer
      rw [List.getElem?_set_ne hij, setLayers_apply, if_neg (fun hand => hnot hand.1)]
      exact h.boxes j row' hrow' id hid hlayer
  · intro id hid
    have hnot : id ∉ row := hid row (List.mem_of_getElem? hrow)
    change setLayers p s.visible row (!checked) id = true
    rw [setLayers_apply, if_neg (fun hand => hnot hand.1)]
    exact h.others id hid
  · exact h.text

theorem alwaysTells_of_apart (hapart : p.rows.Pairwise p.Apart) : AlwaysTells p := by
  intro s hrun
  refine hrun.invariant tells_start ?_
  intro s e s' hs hnext
  cases e with
  | toggleAll => exact tells_toggleAll hs hnext
  | change i => exact tells_change hapart hs hnext

/-- Of two rows with one layer, a click on the box of the first hides the layer of the second. -/
theorem apart_of_alwaysTells (h : AlwaysTells p) : p.rows.Pairwise p.Apart := by
  rw [List.pairwise_iff_getElem]
  intro i j hi hj hij id hid hlayer hid'
  have hrow : p.rows[i]? = some p.rows[i] := List.getElem?_eq_getElem hi
  have hrow' : p.rows[j]? = some p.rows[j] := List.getElem?_eq_getElem hj
  have hchecked : (start p).checked[i]? = some true := by
    rw [start, List.getElem?_map, hrow]
    rfl
  have hchecked' : (start p).checked[j]? = some true := by
    rw [start, List.getElem?_map, hrow']
    rfl
  have hnext : next p (start p) (.change i) = some { start p with
      checked := (start p).checked.set i false
      visible := setLayers p (start p).visible p.rows[i] false } := by
    simp only [next]
    rw [hrow, hchecked]
    rfl
  have htells := h _ (RunWhile.tail (RunWhile.refl _) trivial hnext)
  have hbox := htells.boxes j _ hrow' id hid' hlayer
  change ((start p).checked.set i false)[j]? =
    some (setLayers p (start p).visible p.rows[i] false id) at hbox
  rw [List.getElem?_set_ne (by omega), hchecked', setLayers_apply, if_pos ⟨hid, hlayer⟩] at hbox
  cases hbox

theorem alwaysTells_iff_apart : AlwaysTells p ↔ p.rows.Pairwise p.Apart :=
  ⟨apart_of_alwaysTells, alwaysTells_of_apart⟩

end Clicks

section Maps

variable {φ : Type}

/-- The vehicle layer of the route `b` has the id of the pulse layer or of the label layer of `a`. -/
def Collides (a b : String) : Prop := b = "pulse-" ++ a ∨ b = "label-" ++ a

theorem not_collides_self (a : String) : ¬ Collides a a := by
  intro h
  rcases h with h | h
  · have hlength := congrArg String.length h
    simp at hlength
  · have hlength := congrArg String.length h
    simp at hlength

/-- Of two routes, only the vehicle layer of the one can be another layer of the other. -/
theorem shared_layer_iff {a b : String} (hab : a ≠ b) (hasVehicles : Bool) :
    (∃ id ∈ routeLayers hasVehicles a, id ∈ routeLayers hasVehicles b) ↔
      hasVehicles = true ∧ (Collides a b ∨ Collides b a) := by
  cases hasVehicles with
  | false => simp [routeLayers, hab]
  | true =>
      have hlist : a.toList ≠ b.toList := fun h => hab (String.toList_inj.1 h)
      simp only [routeLayers, if_true, List.mem_cons, List.not_mem_nil, or_false, exists_eq_or_imp,
        exists_eq_left, true_and, Collides]
      simp only [← String.toList_inj, String.toList_append, String.reduceToList, List.cons_append,
        List.nil_append, List.cons.injEq, true_and, Char.reduceEq, false_and, or_false, false_or,
        hlist]
      rw [eq_comm (a := 'p' :: _), eq_comm (a := 'l' :: _)]
      tauto

theorem routeLayers_subset (payload : StopMapPayload φ) {routeId : String}
    (hroute : routeId ∈ payload.routes.map (fun route => route.routeId)) :
    ∀ id ∈ routeLayers (!payload.vehicles.isEmpty) routeId, id ∈ (stopMapPanel payload).layers := by
  have hline : "route-line-" ++ routeId ∈ (stopMapPanel payload).layers := by
    simp only [stopMapPanel, List.cons_append, List.mem_cons, List.mem_append, List.mem_map]
    exact Or.inr (Or.inl (Or.inl (Or.inl ⟨routeId, List.mem_map.1 hroute, rfl⟩)))
  intro id hid
  rcases List.mem_cons.1 hid with rfl | hid
  · exact hline
  · cases hvehicles : payload.vehicles.isEmpty with
    | true =>
        rw [hvehicles] at hid
        exact absurd hid List.not_mem_nil
    | false =>
        rw [hvehicles] at hid
        have hflat : id ∈ (payload.routes.map (fun route => route.routeId)).flatMap (fun id =>
            ["vehicle-pulse-" ++ id, "vehicle-" ++ id, "vehicle-label-" ++ id]) := by
          refine List.mem_flatMap.2 ⟨routeId, hroute, ?_⟩
          simp only [Bool.not_false, if_true, List.mem_cons, List.not_mem_nil, or_false] at hid ⊢
          tauto
        simp only [stopMapPanel, hvehicles, Bool.not_false, if_true, List.cons_append,
          List.mem_cons, List.mem_append]
        exact Or.inr (Or.inl (Or.inr hflat))

theorem apart_stops (p : Panel) (hasVehicles : Bool) (routeId : String) :
    p.Apart (routeLayers hasVehicles routeId) ["stops-other", "stops-labels-other"] := by
  intro id hid _ hstops
  have hid' : id = "route-line-" ++ routeId ∨ id = "vehicle-" ++ routeId ∨
      id = "vehicle-pulse-" ++ routeId ∨ id = "vehicle-label-" ++ routeId := by
    cases hasVehicles <;> simp [routeLayers] at hid <;> tauto
  simp only [List.mem_cons, List.not_mem_nil, or_false] at hstops
  rcases hstops with rfl | rfl
  all_goals simp only [← String.toList_inj, String.toList_append, String.reduceToList,
    List.cons_append, List.cons.injEq, Char.reduceEq, false_and, or_false] at hid'

theorem stopMapPanel_apart_iff (payload : StopMapPayload φ)
    (hnodup : (payload.routes.map (fun route => route.routeId)).Nodup) :
    (stopMapPanel payload).rows.Pairwise (stopMapPanel payload).Apart ↔
      payload.vehicles = [] ∨
        ∀ a ∈ payload.routes, ∀ b ∈ payload.routes, ¬ Collides a.routeId b.routeId := by
  have hrows : (stopMapPanel payload).rows =
      (payload.routes.map (fun route => route.routeId)).map
        (routeLayers (!payload.vehicles.isEmpty)) ++
      [["stops-other", "stops-labels-other"]] := rfl
  have hpair : ∀ a ∈ payload.routes.map (fun route => route.routeId), ∀ b, a ≠ b →
      ((stopMapPanel payload).Apart (routeLayers (!payload.vehicles.isEmpty) a)
        (routeLayers (!payload.vehicles.isEmpty) b) ↔
      payload.vehicles = [] ∨ ¬ Collides a b ∧ ¬ Collides b a) := by
    intro a ha b hab
    have hshared := not_congr (shared_layer_iff hab (!payload.vehicles.isEmpty))
    have hempty : (!payload.vehicles.isEmpty) = true ↔ ¬ payload.vehicles = [] := by simp
    rw [hempty, not_and_or, not_not, not_or] at hshared
    rw [← hshared]
    constructor
    · rintro hapart ⟨id, hid, hid'⟩
      exact hapart id hid (routeLayers_subset payload ha id hid) hid'
    · intro hnone id hid _ hid'
      exact hnone ⟨id, hid, hid'⟩
  rw [hrows, List.pairwise_append, List.pairwise_map]
  constructor
  · rintro ⟨hroutes, -, -⟩
    by_cases hvehicles : payload.vehicles = []
    · exact Or.inl hvehicles
    · right
      intro a ha b hb
      by_cases hab : a.routeId = b.routeId
      · rw [hab]
        exact not_collides_self b.routeId
      · have hsymm : Std.Symm (fun a b => (stopMapPanel payload).Apart
            (routeLayers (!payload.vehicles.isEmpty) a)
            (routeLayers (!payload.vehicles.isEmpty) b)) := ⟨fun _ _ h => Panel.Apart.symm h⟩
        have hapart := hroutes.forall (List.mem_map_of_mem ha) (List.mem_map_of_mem hb) hab
        exact (((hpair _ (List.mem_map_of_mem ha) _ hab).1 hapart).resolve_left hvehicles).1
  · intro hcond
    refine ⟨?_, List.pairwise_singleton _ _, ?_⟩
    · refine hnodup.pairwise_of_forall_ne (fun a ha b hb hab => (hpair a ha b hab).2 ?_)
      obtain ⟨routeA, hrouteA, rfl⟩ := List.mem_map.1 ha
      obtain ⟨routeB, hrouteB, rfl⟩ := List.mem_map.1 hb
      exact hcond.imp id (fun hfree => ⟨hfree _ hrouteA _ hrouteB, hfree _ hrouteB _ hrouteA⟩)
    · rintro row hrow row' hrow'
      obtain ⟨routeId, -, rfl⟩ := List.mem_map.1 hrow
      rw [List.mem_singleton.1 hrow']
      exact apart_stops _ _ _

theorem alwaysTells_routeMapPanel (payload : RouteMapPayload φ) :
    AlwaysTells (routeMapPanel payload) := by
  apply alwaysTells_of_apart
  cases hvehicles : payload.vehicles.isEmpty <;>
    simp [routeMapPanel, hvehicles, Panel.Apart]

theorem alwaysTells_agencyMapPanel (payload : AgencyRoutesMapPayload φ)
    (hnodup : (payload.routes.map (fun route => route.routeId)).Nodup) :
    AlwaysTells (agencyMapPanel payload) := by
  apply alwaysTells_of_apart
  simp only [agencyMapPanel, List.map_map, List.pairwise_map]
  refine (List.pairwise_map.1 hnodup).imp ?_
  intro a b hab id hid _ hid'
  have hline := (List.mem_singleton.1 hid).symm.trans (List.mem_singleton.1 hid')
  exact hab ((String.append_right_inj _).1 hline)

/-- Whatever boxes are clicked in whatever order, the panels of the maps tell what is shown, but on
the map of a stop with vehicles and a route whose id is `pulse-` or `label-` before that of another:
there a click on one of the two hides a layer of both. -/
theorem layer_panels_tell :
    (∀ (r : StopMapResults φ) (payload : StopMapPayload φ),
      buildStopMapPayload r = .ok (some payload) →
      (AlwaysTells (stopMapPanel payload) ↔ payload.vehicles = [] ∨
        ∀ a ∈ payload.routes, ∀ b ∈ payload.routes, ¬ Collides a.routeId b.routeId)) ∧
    (∀ payload : RouteMapPayload φ, AlwaysTells (routeMapPanel payload)) ∧
    ∀ (db : StaticDb φ) (agencyId : String) (r : AgencyMapResults db agencyId)
      (defaultMapCenter : φ × φ) (payload : AgencyRoutesMapPayload φ),
      r.payload defaultMapCenter = .ok payload → AlwaysTells (agencyMapPanel payload) := by
  refine ⟨fun r payload hpayload => ?_, alwaysTells_routeMapPanel, ?_⟩
  · obtain ⟨-, hroutes, -, -⟩ := buildStopMapPayload_some hpayload
    have hnodup : (payload.routes.map (fun route => route.routeId)).Nodup := by
      rw [hroutes]
      exact (layersWellFormed r).nodup
    exact alwaysTells_iff_apart.trans (stopMapPanel_apart_iff payload hnodup)
  · intro db agencyId r defaultMapCenter payload hpayload
    rw [payload_eq] at hpayload
    split at hpayload
    · cases hpayload
    · cases hpayload
      exact alwaysTells_agencyMapPanel _ (nodup_layers r)

section Sample

def collidingResults : StopMapResults ℤ where
  stop := mapStopRow.located
  direction := 0
  routes := [mapRoute, { mapRoute with id := "pulse-R1" }]
  trips := [mapTrip, { mapTrip with id := "T2", routeId := "pulse-R1" }]
  vehicles := [loadedOnMap]
  shapes := [mapShape.geometry]
  otherStops := []
  routes_nodup := by decide
  trips_nodup := by decide
  otherStops_eq := fun s hs => absurd hs List.not_mem_nil

def collidingPayload : StopMapPayload ℤ where
  center := (-6, 53)
  zoom := 14
  focusStopId := "8220DB1"
  direction := .outbound
  routes := [routeLayer mapRoute [mapShape.geometry] Colors.red.toHex,
    routeLayer { mapRoute with id := "pulse-R1" } [mapShape.geometry] Colors.green.toHex]
  vehicles := [vehiclePointFromRt loadedOnMap "R1" Colors.red.toHex]
  stops := [mapStopRow.mapStop true]

def inboundTrip : TripModel := { mapTrip with direction := defaultDirection }

def inboundRows : (t : StaticTable) → List (t.Row ℤ)
  | .route => [mapRoute]
  | .trip => [inboundTrip]
  | .shape => [mapShape]
  | .agency | .calendar | .calendarDate | .stop | .stopTime => []

theorem inboundRows_nodup (t : StaticTable) : ((inboundRows t).filterMap t.key).Nodup := by
  cases t <;> decide

def inboundDb : StaticDb ℤ :=
  ⟨inboundRows, [], inboundRows_nodup, fun _ hf => absurd hf List.not_mem_nil⟩

theorem inboundRoutes_perm : [mapRoute].Perm (getWithAgencies inboundDb "7") := List.Perm.refl _

def inboundResults : AgencyMapResults inboundDb "7" where
  routes := [mapRoute]
  trips := [inboundTrip]
  shapes := [mapShape.geometry]
  routes_perm := inboundRoutes_perm
  firstTrips := ⟨fun t ht => (List.mem_singleton.1 ht).symm ▸
      ⟨List.mem_singleton.2 rfl, List.mem_singleton.2 rfl, rfl⟩, List.nodup_singleton _,
    fun t ht _ _ => ⟨inboundTrip, List.mem_singleton.2 rfl, by rw [List.mem_singleton.1 ht]⟩⟩
  sortedShapes := ⟨List.Perm.refl _, List.pairwise_singleton _ _⟩

def inboundPayload : AgencyRoutesMapPayload ℤ :=
  ⟨centerFromRouteLayers (-6, 53) inboundResults.layers, 7, "7", inboundResults.layers⟩

theorem layer_panels_tell_sample :
    ¬ AlwaysTells (stopMapPanel collidingPayload) ∧ AlwaysTells (stopMapPanel mapOnStop) ∧
      AlwaysTells (agencyMapPanel inboundPayload) := by
  refine ⟨?_, ?_, layer_panels_tell.2.2 inboundDb "7" inboundResults (-6, 53) inboundPayload rfl⟩
  · rw [layer_panels_tell.1 collidingResults collidingPayload rfl]
    intro h
    rcases h with h | h
    · cases h
    · exact h _ List.mem_cons_self _ (List.mem_cons_of_mem _ (List.mem_singleton.2 rfl))
        (Or.inl rfl)
  · rw [layer_panels_tell.1 mapStopQuery.toStopMapResults mapOnStop rfl]
    right
    unfold Collides
    decide

end Sample

end Maps

end SimplyTransport.LayerPanels

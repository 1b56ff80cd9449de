import SimplyTransport.OrderedDict

/-!
# Documents

Trees of lists and objects over any leaves and keys. A leaf may be treated by whether it is directly
in an object, and an object is built from its members one after the other, so that a later one of a
key replaces the value of an earlier one. A treatment of keys and leaves gives a document back
exactly where it gives back each of its keys and leaves.
-/

inductive Document (κ α : Type)
  | leaf (a : α)
  | arr (items : List (Document κ α))
  | obj (members : List (κ × Document κ α))

namespace Document

variable {κ κ' α β γ : Type}

@[elab_as_elim]
theorem induct {motive : Document κ α → Prop} (leaf : ∀ a, motive (.leaf a))
    (arr : ∀ items, (∀ d ∈ items, motive d) → motive (.arr items))
    (obj : ∀ members, (∀ m ∈ members, motive m.2) → motive (.obj members)) :
    ∀ d, motive d := by
  apply @Document.rec κ α motive (fun items => ∀ d ∈ items, motive d)
    (fun members => ∀ m ∈ members, motive m.2) (fun m => motive m.2)
  · exact leaf
  · exact arr
  · exact obj
  · exact fun d hd => absurd hd List.not_mem_nil
  · intro d items hd hitems
    exact List.forall_mem_cons.2 ⟨hd, hitems⟩
  · exact fun m hm => absurd hm List.not_mem_nil
  · intro m members hm hmembers
    exact List.forall_mem_cons.2 ⟨hm, hmembers⟩
  · intro k d hd
    exact hd

section Map

variable (key : κ → κ') (leaf : Bool → α → β)
  (build : List (κ' × Document κ' β) → List (κ' × Document κ' β))

mutual

/-- The flag of a leaf says whether it is directly in an object. -/
def mapAt (inObj : Bool) : Document κ α → Document κ' β
  | .leaf a => .leaf (leaf inObj a)
  | .arr items => .arr (mapItems items)
  | .obj members => .obj (build (mapMembers members))

def mapItems : List (Document κ α) → List (Document κ' β)
  | [] => []
  | d :: items => mapAt false d :: mapItems items

def mapMembers : List (κ × Document κ α) → List (κ' × Document κ' β)
  | [] => []
  | (k, d) :: members => (key k, mapAt true d) :: mapMembers members

end

theorem mapItems_eq (items : List (Document κ α)) :
    mapItems key leaf build items = items.map (mapAt key leaf build false) := by
  induction items with
  | nil => rfl
  | cons d items ih => rw [mapItems, ih, List.map_cons]

theorem mapMembers_eq (members : List (κ × Document κ α)) :
    mapMembers key leaf build members =
      members.map (fun m => (key m.1, mapAt key leaf build true m.2)) := by
  induction members with
  | nil => rfl
  | cons m members ih => rw [mapMembers, ih, List.map_cons]

@[simp] theorem mapAt_leaf (inObj : Bool) (a : α) :
    mapAt key leaf build inObj (.leaf a) = .leaf (leaf inObj a) := rfl

@[simp] theorem mapAt_arr (inObj : Bool) (items : List (Document κ α)) :
    mapAt key leaf build inObj (.arr items) =
      .arr (items.map (mapAt key leaf build false)) := by
  rw [mapAt, mapItems_eq]

@[simp] theorem mapAt_obj (inObj : Bool) (members : List (κ × Document κ α)) :
    mapAt key leaf build inObj (.obj members) =
      .obj (build (members.map (fun m => (key m.1, mapAt key leaf build true m.2)))) := by
  rw [mapAt, mapMembers_eq]

end Map

def onLeaf (f : α → α) : Document κ α → Document κ α
  | .leaf a => .leaf (f a)
  | .arr items => .arr items
  | .obj members => .obj members

/-- Two treatments, of which the first builds each object as it is. -/
theorem mapAt_mapAt {κ'' : Type} (key : κ → κ') (key' : κ' → κ'') (leaf : Bool → α → β)
    (leaf' : Bool → β → γ)
    (build : List (κ'' × Document κ'' γ) → List (κ'' × Document κ'' γ)) (inObj : Bool)
    (d : Document κ α) :
    mapAt key' leaf' build inObj (mapAt key leaf id inObj d) =
      mapAt (fun k => key' (key k)) (fun b a => leaf' b (leaf b a)) build inObj d := by
  induction d using Document.induct generalizing inObj with
  | leaf a => rfl
  | arr items ih =>
      rw [mapAt_arr, mapAt_arr, mapAt_arr, List.map_map]
      congr 1
      exact List.map_congr_left (fun d hd => ih d hd false)
  | obj members ih =>
      rw [mapAt_obj, mapAt_obj, mapAt_obj, id_eq, List.map_map]
      congr 2
      exact List.map_congr_left (fun m hm => congrArg (Prod.mk _) (ih m hm true))

/-- The values of each object may be treated once it is built. -/
theorem mapAt_onLeaf (key : κ → κ') (leaf : α → β) (f : β → β)
    (build : List (κ' × Document κ' β) → List (κ' × Document κ' β))
    (hbuild : ∀ l, build (l.map (fun m => (m.1, onLeaf f m.2))) =
      (build l).map (fun m => (m.1, onLeaf f m.2))) (d : Document κ α) :
    (∀ b, mapAt key (fun _ => leaf) (fun l => (build l).map (fun m => (m.1, onLeaf f m.2))) b d =
      mapAt key (fun inObj a => if inObj then f (leaf a) else leaf a) build false d) ∧
    ∀ b, onLeaf f (mapAt key (fun _ => leaf)
        (fun l => (build l).map (fun m => (m.1, onLeaf f m.2))) b d) =
      mapAt key (fun inObj a => if inObj then f (leaf a) else leaf a) build true d := by
  induction d using Document.induct with
  | leaf a => exact ⟨fun _ => rfl, fun _ => rfl⟩
  | arr items ih =>
      have hitems : ∀ b, mapAt key (fun _ => leaf)
          (fun l => (build l).map (fun m => (m.1, onLeaf f m.2))) b (.arr items) =
          .arr (items.map (mapAt key (fun inObj a => if inObj then f (leaf a) else leaf a) build
            false)) := by
        intro b
        rw [mapAt_arr]
        congr 1
        exact List.map_congr_left (fun d hd => (ih d hd).1 false)
      constructor
      · intro b
        rw [hitems, mapAt_arr]
      · intro b
        rw [hitems, mapAt_arr, onLeaf]
  | obj members ih =>
      have hmembers : ∀ b, mapAt key (fun _ => leaf)
          (fun l => (build l).map (fun m => (m.1, onLeaf f m.2))) b (.obj members) =
          .obj (build (members.map (fun m => (key m.1, mapAt key
            (fun inObj a => if inObj then f (leaf a) else leaf a) build true m.2)))) := by
        intro b
        rw [mapAt_obj, ← hbuild, List.map_map]
        congr 2
        exact List.map_congr_left (fun m hm => congrArg (Prod.mk _) ((ih m hm).2 true))
      constructor
      · intro b
        rw [hmembers, mapAt_obj]
      · intro b
        rw [hmembers, mapAt_obj, onLeaf]

mutual

def leavesAt (inObj : Bool) : Document κ α → List (Bool × α)
  | .leaf a => [(inObj, a)]
  | .arr items => leavesOfItems items
  | .obj members => leavesOfMembers members

def leavesOfItems : List (Document κ α) → List (Bool × α)
  | [] => []
  | d :: items => leavesAt false d ++ leavesOfItems items

def leavesOfMembers : List (κ × Document κ α) → List (Bool × α)
  | [] => []
  | (_, d) :: members => leavesAt true d ++ leavesOfMembers members

end

mutual

def keys : Document κ α → List κ
  | .leaf _ => []
  | .arr items => keysOfItems items
  | .obj members => keysOfMembers members

def keysOfItems : List (Document κ α) → List κ
  | [] => []
  | d :: items => keys d ++ keysOfItems items

def keysOfMembers : List (κ × Document κ α) → List κ
  | [] => []
  | (k, d) :: members => k :: (keys d ++ keysOfMembers members)

end

mutual

def Distinct : Document κ α → Prop
  | .leaf _ => True
  | .arr items => DistinctItems items
  | .obj members => (members.map Prod.fst).Nodup ∧ DistinctMembers members

def DistinctItems : List (Document κ α) → Prop
  | [] => True
  | d :: items => Distinct d ∧ DistinctItems items

def DistinctMembers : List (κ × Document κ α) → Prop
  | [] => True
  | (_, d) :: members => Distinct d ∧ DistinctMembers members

end

theorem leavesAt_arr (inObj : Bool) (items : List (Document κ α)) :
    leavesAt inObj (.arr items) = items.flatMap (leavesAt false) := by
  rw [leavesAt]
  induction items with
  | nil => rfl
  | cons d items ih => rw [leavesOfItems, ih, List.flatMap_cons]

theorem leavesAt_obj (inObj : Bool) (members : List (κ × Document κ α)) :
    leavesAt inObj (.obj members) = members.flatMap (fun m => leavesAt true m.2) := by
  rw [leavesAt]
  induction members with
  | nil => rfl
  | cons m members ih => rw [leavesOfMembers, ih, List.flatMap_cons]

theorem keys_arr (items : List (Document κ α)) : keys (.arr items) = items.flatMap keys := by
  rw [keys]
  induction items with
  | nil => rfl
  | cons d items ih => rw [keysOfItems, ih, List.flatMap_cons]

theorem keys_obj (members : List (κ × Document κ α)) :
    keys (.obj members) = members.flatMap (fun m => m.1 :: keys m.2) := by
  rw [keys]
  induction members with
  | nil => rfl
  | cons m members ih =>
      rw [keysOfMembers, ih, List.flatMap_cons]
      rfl

theorem distinct_arr (items : List (Document κ α)) :
    Distinct (.arr items) ↔ ∀ d ∈ items, Distinct d := by
  rw [Distinct]
  induction items with
  | nil => simp [DistinctItems]
  | cons d items ih => rw [DistinctItems, ih, List.forall_mem_cons]

theorem distinct_obj (members : List (κ × Document κ α)) :
    Distinct (.obj members) ↔ (members.map Prod.fst).Nodup ∧ ∀ m ∈ members, Distinct m.2 := by
  rw [Distinct]
  apply and_congr_right'
  induction members with
  | nil => simp [DistinctMembers]
  | cons m members ih => rw [DistinctMembers, ih, List.forall_mem_cons]

theorem leavesAt_mapAt (key : κ → κ') (leaf : Bool → α → β) (inObj : Bool) (d : Document κ α) :
    leavesAt inObj (mapAt key leaf id inObj d) =
      (leavesAt inObj d).map (fun p => (p.1, leaf p.1 p.2)) := by
  induction d using Document.induct generalizing inObj with
  | leaf a => rfl
  | arr items ih =>
      rw [mapAt_arr, leavesAt_arr, leavesAt_arr, List.flatMap_map, List.map_flatMap]
      exact List.flatMap_congr (fun d hd => ih d hd false)
  | obj members ih =>
      rw [mapAt_obj, leavesAt_obj, leavesAt_obj, id_eq, List.flatMap_map, List.map_flatMap]
      exact List.flatMap_congr (fun m hm => ih m hm true)

theorem map_eq_self_iff {δ : Type} {f : δ → δ} {l : List δ} :
    l.map f = l ↔ ∀ a ∈ l, f a = a := by
  conv_lhs => rhs; rw [← List.map_id l]
  exact List.map_inj_left

/-- A treatment that builds each object as it is gives a document back exactly where it gives back
each key and leaf. -/
theorem mapAt_eq_self_iff {key : κ → κ} {leaf : Bool → α → α}
    {build : List (κ × Document κ α) → List (κ × Document κ α)}
    (hlength : ∀ l, (build l).length = l.length → build l = l)
    (hbuild : ∀ l : List (κ × Document κ α), (l.map Prod.fst).Nodup → build l = l)
    {d : Document κ α} (hd : d.Distinct) (inObj : Bool) :
    mapAt key leaf build inObj d = d ↔
      (∀ p ∈ leavesAt inObj d, leaf p.1 p.2 = p.2) ∧ ∀ k ∈ keys d, key k = k := by
  induction d using Document.induct generalizing inObj with
  | leaf a => simp [leavesAt, keys]
  | arr items ih =>
      rw [distinct_arr] at hd
      rw [mapAt_arr, Document.arr.injEq, map_eq_self_iff, leavesAt_arr, keys_arr]
      simp only [List.mem_flatMap]
      constructor
      · intro h
        constructor
        · rintro p ⟨d, hmem, hp⟩
          exact ((ih d hmem (hd d hmem) false).1 (h d hmem)).1 p hp
        · rintro k ⟨d, hmem, hk⟩
          exact ((ih d hmem (hd d hmem) false).1 (h d hmem)).2 k hk
      · rintro ⟨hleaves, hkeys⟩ d hmem
        apply (ih d hmem (hd d hmem) false).2
        exact ⟨fun p hp => hleaves p ⟨d, hmem, hp⟩, fun k hk => hkeys k ⟨d, hmem, hk⟩⟩
  | obj members ih =>
      rw [distinct_obj] at hd
      obtain ⟨hnodup, hd⟩ := hd
      rw [mapAt_obj, Document.obj.injEq, leavesAt_obj, keys_obj]
      have hstep : build (members.map (fun m => (key m.1, mapAt key leaf build true m.2))) =
          members ↔ ∀ m ∈ members, (key m.1, mapAt key leaf build true m.2) = m := by
        rw [← map_eq_self_iff]
        constructor
        · intro h
          have hself := hlength (members.map (fun m => (key m.1, mapAt key leaf build true m.2)))
          rw [h, List.length_map] at hself
          exact (hself rfl).symm
        · intro h
          rw [h]
          exact hbuild members hnodup
      rw [hstep]
      simp only [List.mem_flatMap, List.mem_cons]
      constructor
      · intro h
        constructor
        · rintro p ⟨m, hmem, hp⟩
          have hm := congrArg Prod.snd (h m hmem)
          exact ((ih m hmem (hd m hmem) true).1 hm).1 p hp
        · rintro k ⟨m, hmem, rfl | hk⟩
          · exact congrArg Prod.fst (h m hmem)
          · have hm := congrArg Prod.snd (h m hmem)
            exact ((ih m hmem (hd m hmem) true).1 hm).2 k hk
      · rintro ⟨hleaves, hkeys⟩ m hmem
        have hm : mapAt key leaf build true m.2 = m.2 := by
          apply (ih m hmem (hd m hmem) true).2
          exact ⟨fun p hp => hleaves p ⟨m, hmem, hp⟩, fun k hk => hkeys k ⟨m, hmem, Or.inr hk⟩⟩
        rw [hm, hkeys m.1 ⟨m, hmem, Or.inl rfl⟩]

end Document

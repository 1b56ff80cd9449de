import SimplyTransport.JsonText
import Mathlib.Algebra.Order.BigOperators.Group.List

/-!
# The layout of a JSON text

A document of any leaves and keys is laid out as JSON. A translation of texts that changes only what
is in quotes is one of each key and leaf, and of two layouts of one document the first is shorter
where one of its keys or leaves is and none is longer.
-/

namespace JsonText

section Treated

variable {κ κ' α β : Type} {key : κ' → List Char} {leaf : β → List Char} {f : κ → κ'} {g : α → β}

theorem layoutItems_mapAt {items : List (Document κ α)}
    (h : ∀ v ∈ items, ∀ b, layout key leaf (Document.mapAt f (fun _ => g) id b v) =
      layout (fun k => key (f k)) (fun a => leaf (g a)) v) :
    layoutItems key leaf (items.map (Document.mapAt f (fun _ => g) id false)) =
      layoutItems (fun k => key (f k)) (fun a => leaf (g a)) items := by
  induction items with
  | nil => rfl
  | cons v items ih =>
      rw [List.map_cons, layoutItems, layoutItems, h v List.mem_cons_self,
        ih fun w hw => h w (List.mem_cons_of_mem _ hw)]

theorem layoutMembers_mapAt {members : List (κ × Document κ α)}
    (h : ∀ m ∈ members, ∀ b, layout key leaf (Document.mapAt f (fun _ => g) id b m.2) =
      layout (fun k => key (f k)) (fun a => leaf (g a)) m.2) :
    layoutMembers key leaf
        (members.map (fun m => (f m.1, Document.mapAt f (fun _ => g) id true m.2))) =
      layoutMembers (fun k => key (f k)) (fun a => leaf (g a)) members := by
  induction members with
  | nil => rfl
  | cons m members ih =>
      rw [List.map_cons, layoutMembers, layoutMembers, h m List.mem_cons_self,
        ih fun w hw => h w (List.mem_cons_of_mem _ hw)]

/-- The text of a document whose keys and leaves are treated. -/
theorem layout_mapAt (d : Document κ α) (b : Bool) :
    layout key leaf (Document.mapAt f (fun _ => g) id b d) =
      layout (fun k => key (f k)) (fun a => leaf (g a)) d := by
  induction d using Document.induct generalizing b with
  | leaf a => rw [Document.mapAt_leaf, layout, layout]
  | arr items ih =>
      rw [Document.mapAt_arr]
      cases items with
      | nil => rw [List.map_nil, layout, layout]
      | cons v items =>
          rw [List.map_cons, layout, layout, ih v List.mem_cons_self,
            layoutItems_mapAt fun w hw => ih w (List.mem_cons_of_mem _ hw)]
  | obj members ih =>
      rw [Document.mapAt_obj, id_eq]
      cases members with
      | nil => rw [List.map_nil, layout, layout]
      | cons m members =>
          rw [List.map_cons, layout, layout, ih m List.mem_cons_self,
            layoutMembers_mapAt fun w hw => ih w (List.mem_cons_of_mem _ hw)]

end Treated

/-- What can follow a string in a text. -/
def Follows (rest : List Char) : Prop := ∀ c ∈ rest.head?, c ∈ [',', ':', ']', '\x7d']

theorem follows_cons {c : Char} (h : c ∈ [',', ':', ']', '\x7d']) (rest : List Char) :
    Follows (c :: rest) := by
  intro d hd
  rw [List.head?_cons, Option.mem_some_iff] at hd
  exact hd ▸ h

theorem follows_nil : Follows [] := fun _ hc => by cases hc

section Translate

variable {κ α : Type} {key key' : κ → List Char} {leaf leaf' : α → List Char}
  {translate : List Char → List Char}

/-- A translation goes through the text of the document, whatever follows. -/
def Translates (key key' : κ → List Char) (leaf leaf' : α → List Char)
    (translate : List Char → List Char) (d : Document κ α) : Prop :=
  ∀ rest, Follows rest →
    translate (layout key leaf d ++ rest) = layout key' leaf' d ++ translate rest

theorem follows_layoutItems (items : List (Document κ α)) (rest : List Char) :
    Follows (layoutItems key leaf items ++ rest) := by
  cases items with
  | nil =>
      rw [layoutItems]
      exact follows_cons (by decide) rest
  | cons v items =>
      rw [layoutItems]
      exact follows_cons (by decide) _

theorem follows_layoutMembers (members : List (κ × Document κ α)) (rest : List Char) :
    Follows (layoutMembers key leaf members ++ rest) := by
  cases members with
  | nil =>
      rw [layoutMembers]
      exact follows_cons (by decide) rest
  | cons m members =>
      rw [layoutMembers]
      exact follows_cons (by decide) _

theorem translate_layoutItems (hplain : ∀ c rest, c ≠ '"' → translate (c :: rest) = c :: translate rest)
    {items : List (Document κ α)}
    (h : ∀ v ∈ items, Translates key key' leaf leaf' translate v) (rest : List Char) :
    translate (layoutItems key leaf items ++ rest) =
      layoutItems key' leaf' items ++ translate rest := by
  induction items with
  | nil =>
      rw [layoutItems, layoutItems]
      exact hplain ']' rest (by decide)
  | cons v items ih =>
      rw [layoutItems, layoutItems]
      simp only [List.cons_append, List.append_assoc]
      rw [hplain ',' _ (by decide), hplain ' ' _ (by decide),
        h v List.mem_cons_self _ (follows_layoutItems items rest),
        ih fun w hw => h w (List.mem_cons_of_mem _ hw)]

/-- The name of a member and its value. -/
theorem translate_member (hplain : ∀ c rest, c ≠ '"' → translate (c :: rest) = c :: translate rest)
    {k : κ} {v : Document κ α}
    (hkey : ∀ rest, Follows rest → translate (key k ++ rest) = key' k ++ translate rest)
    (hvalue : Translates key key' leaf leaf' translate v) {rest : List Char} (hrest : Follows rest) :
    translate (key k ++ ':' :: ' ' :: (layout key leaf v ++ rest)) =
      key' k ++ ':' :: ' ' :: (layout key' leaf' v ++ translate rest) := by
  rw [hkey _ (follows_cons (by decide) _), hplain ':' _ (by decide), hplain ' ' _ (by decide),
    hvalue rest hrest]

theorem translate_layoutMembers
    (hplain : ∀ c rest, c ≠ '"' → translate (c :: rest) = c :: translate rest)
    {members : List (κ × Document κ α)}
    (hkey : ∀ m ∈ members, ∀ rest, Follows rest →
      translate (key m.1 ++ rest) = key' m.1 ++ translate rest)
    (h : ∀ m ∈ members, Translates key key' leaf leaf' translate m.2) (rest : List Char) :
    translate (layoutMembers key leaf members ++ rest) =
      layoutMembers key' leaf' members ++ translate rest := by
  induction members with
  | nil =>
      rw [layoutMembers, layoutMembers]
      exact hplain '\x7d' rest (by decide)
  | cons m members ih =>
      rw [layoutMembers, layoutMembers]
      simp only [List.cons_append, List.append_assoc]
      rw [hplain ',' _ (by decide), hplain ' ' _ (by decide),
        translate_member hplain (hkey m List.mem_cons_self) (h m List.mem_cons_self)
          (follows_layoutMembers members rest),
        ih (fun w hw => hkey w (List.mem_cons_of_mem _ hw))
          fun w hw => h w (List.mem_cons_of_mem _ hw)]

/-- A translation that changes only strings and leaves is one of each string and leaf. -/
theorem translates (hplain : ∀ c rest, c ≠ '"' → translate (c :: rest) = c :: translate rest)
    (hkey : ∀ k rest, Follows rest → translate (key k ++ rest) = key' k ++ translate rest)
    (hleaf : ∀ a rest, Follows rest → translate (leaf a ++ rest) = leaf' a ++ translate rest)
    (d : Document κ α) : Translates key key' leaf leaf' translate d := by
  induction d using Document.induct with
  | leaf a => exact hleaf a
  | arr items ih =>
      intro rest hrest
      cases items with
      | nil =>
          rw [layout, layout]
          exact (hplain '[' _ (by decide)).trans (congrArg _ (hplain ']' _ (by decide)))
      | cons v items =>
          rw [layout, layout]
          simp only [List.cons_append, List.append_assoc]
          rw [hplain '[' _ (by decide),
            ih v List.mem_cons_self _ (follows_layoutItems items rest),
            translate_layoutItems hplain fun w hw => ih w (List.mem_cons_of_mem _ hw)]
  | obj members ih =>
      intro rest hrest
      cases members with
      | nil =>
          rw [layout, layout]
          exact (hplain '\x7b' _ (by decide)).trans (congrArg _ (hplain '\x7d' _ (by decide)))
      | cons m members =>
          rw [layout, layout]
          simp only [List.cons_append, List.append_assoc]
          rw [hplain '\x7b' _ (by decide),
            translate_member hplain (hkey m.1) (ih m List.mem_cons_self)
              (follows_layoutMembers members rest),
            translate_layoutMembers hplain (fun w _ => hkey w.1)
              fun w hw => ih w (List.mem_cons_of_mem _ hw)]

end Translate

section Lengths

variable {κ α : Type} {key key' : κ → List Char} {leaf leaf' : α → List Char}

def contentLength (key : κ → List Char) (leaf : α → List Char) (d : Document κ α) : ℕ :=
  (d.keys.map (fun k => (key k).length)).sum +
    ((d.leavesAt false).map (fun p => (leaf p.2).length)).sum

theorem contentLength_leaf (a : α) (b : Bool) :
    (((Document.leaf a : Document κ α).leavesAt b).map (fun p => (leaf p.2).length)).sum =
      (leaf a).length := by
  rw [Document.leavesAt, List.map_singleton, List.sum_singleton]

/-- Whether a leaf is directly in an object has no part in its length. -/
theorem sum_leavesAt (d : Document κ α) (b : Bool) :
    ((d.leavesAt b).map (fun p => (leaf p.2).length)).sum =
      ((d.leavesAt false).map (fun p => (leaf p.2).length)).sum := by
  cases d with
  | leaf a => rw [contentLength_leaf, contentLength_leaf]
  | arr items => rw [Document.leavesAt_arr, Document.leavesAt_arr]
  | obj members => rw [Document.leavesAt_obj, Document.leavesAt_obj]

theorem contentLength_arr (v : Document κ α) (items : List (Document κ α)) :
    contentLength key leaf (.arr (v :: items)) =
      contentLength key leaf v + contentLength key leaf (.arr items) := by
  unfold contentLength
  rw [Document.keys_arr, Document.keys_arr, Document.leavesAt_arr, Document.leavesAt_arr,
    List.flatMap_cons, List.flatMap_cons, List.map_append, List.map_append, List.sum_append,
    List.sum_append]
  omega

theorem contentLength_obj (m : κ × Document κ α) (members : List (κ × Document κ α)) :
    contentLength key leaf (.obj (m :: members)) =
      (key m.1).length + contentLength key leaf m.2 + contentLength key leaf (.obj members) := by
  unfold contentLength
  rw [Document.keys_obj, Document.keys_obj, Document.leavesAt_obj, Document.leavesAt_obj,
    List.flatMap_cons, List.flatMap_cons, List.cons_append, List.map_cons, List.map_append,
    List.map_append, List.sum_cons, List.sum_append, List.sum_append, sum_leavesAt]
  omega

def frame (d : Document κ α) : List Char := layout (fun _ => []) (fun _ => []) d

def Measured (key : κ → List Char) (leaf : α → List Char) (d : Document κ α) : Prop :=
  (layout key leaf d).length = (frame d).length + contentLength key leaf d

theorem length_layoutItems {items : List (Document κ α)}
    (h : ∀ v ∈ items, Measured key leaf v) :
    (layoutItems key leaf items).length =
      (layoutItems (fun _ => []) (fun _ => []) items).length +
        contentLength key leaf (.arr items) := by
  induction items with
  | nil => simp [layoutItems, contentLength, Document.keys_arr, Document.leavesAt_arr]
  | cons v items ih =>
      have hv := h v List.mem_cons_self
      have hitems := ih fun w hw => h w (List.mem_cons_of_mem _ hw)
      rw [Measured, frame] at hv
      rw [layoutItems, layoutItems, contentLength_arr]
      simp only [List.length_cons, List.length_append]
      omega

theorem length_layoutMembers {members : List (κ × Document κ α)}
    (h : ∀ m ∈ members, Measured key leaf m.2) :
    (layoutMembers key leaf members).length =
      (layoutMembers (fun _ => []) (fun _ => []) members).length +
        contentLength key leaf (.obj members) := by
  induction members with
  | nil => simp [layoutMembers, contentLength, Document.keys_obj, Document.leavesAt_obj]
  | cons m members ih =>
      have hm := h m List.mem_cons_self
      have hmembers := ih fun w hw => h w (List.mem_cons_of_mem _ hw)
      rw [Measured, frame] at hm
      rw [layoutMembers, layoutMembers, contentLength_obj]
      simp only [List.length_cons, List.length_append, List.length_nil]
      omega

theorem measured (d : Document κ α) : Measured key leaf d := by
  induction d using Document.induct with
  | leaf a =>
      rw [Measured, frame, layout, layout, contentLength, contentLength_leaf, Document.keys]
      simp
  | arr items ih =>
      cases items with
      | nil => simp [Measured, frame, layout, contentLength, Document.keys_arr,
          Document.leavesAt_arr]
      | cons v items =>
          have hv := ih v List.mem_cons_self
          have hitems := length_layoutItems fun w hw => ih w (List.mem_cons_of_mem _ hw)
          rw [Measured, frame] at hv
          rw [Measured, frame, layout, layout, contentLength_arr]
          simp only [List.length_cons, List.length_append]
          omega
  | obj members ih =>
      cases members with
      | nil => simp [Measured, frame, layout, contentLength, Document.keys_obj,
          Document.leavesAt_obj]
      | cons m members =>
          have hm := ih m List.mem_cons_self
          have hmembers := length_layoutMembers fun w hw => ih w (List.mem_cons_of_mem _ hw)
          rw [Measured, frame] at hm
          rw [Measured, frame, layout, layout, contentLength_obj]
          simp only [List.length_cons, List.length_append, List.length_nil]
          omega

def SameTexts (key key' : κ → List Char) (leaf leaf' : α → List Char) (d : Document κ α) : Prop :=
  (∀ k ∈ d.keys, key k = key' k) ∧ ∀ p ∈ d.leavesAt false, leaf p.2 = leaf' p.2

theorem leavesAt_of_true {d : Document κ α}
    (h : ∀ p ∈ d.leavesAt true, leaf p.2 = leaf' p.2) :
    ∀ p ∈ d.leavesAt false, leaf p.2 = leaf' p.2 := by
  cases d with
  | leaf a =>
      intro p hp
      rw [List.mem_singleton.1 hp]
      exact h (true, a) List.mem_cons_self
  | arr items => rwa [Document.leavesAt_arr] at h ⊢
  | obj members => rwa [Document.leavesAt_obj] at h ⊢

theorem SameTexts.of_arr {v : Document κ α} {items : List (Document κ α)}
    (h : SameTexts key key' leaf leaf' (.arr (v :: items))) :
    SameTexts key key' leaf leaf' v ∧ SameTexts key key' leaf leaf' (.arr items) := by
  simp only [SameTexts, Document.keys_arr, Document.leavesAt_arr, List.flatMap_cons,
    List.mem_append, or_imp, forall_and] at h ⊢
  exact ⟨⟨h.1.1, h.2.1⟩, h.1.2, h.2.2⟩

theorem SameTexts.of_obj {m : κ × Document κ α} {members : List (κ × Document κ α)}
    (h : SameTexts key key' leaf leaf' (.obj (m :: members))) :
    key m.1 = key' m.1 ∧ SameTexts key key' leaf leaf' m.2 ∧
      SameTexts key key' leaf leaf' (.obj members) := by
  simp only [SameTexts, Document.keys_obj, Document.leavesAt_obj, List.flatMap_cons,
    List.mem_append, List.mem_cons, List.cons_append, or_imp, forall_and, forall_eq] at h ⊢
  exact ⟨h.1.1, ⟨h.1.2.1, leavesAt_of_true h.2.1⟩, h.1.2.2, h.2.2⟩

theorem layoutItems_congr {items : List (Document κ α)}
    (h : ∀ v ∈ items, SameTexts key key' leaf leaf' v → layout key leaf v = layout key' leaf' v)
    (hsame : SameTexts key key' leaf leaf' (.arr items)) :
    layoutItems key leaf items = layoutItems key' leaf' items := by
  induction items with
  | nil => rfl
  | cons v items ih =>
      rw [layoutItems, layoutItems, h v List.mem_cons_self hsame.of_arr.1,
        ih (fun w hw => h w (List.mem_cons_of_mem _ hw)) hsame.of_arr.2]

theorem layoutMembers_congr {members : List (κ × Document κ α)}
    (h : ∀ m ∈ members, SameTexts key key' leaf leaf' m.2 →
      layout key leaf m.2 = layout key' leaf' m.2)
    (hsame : SameTexts key key' leaf leaf' (.obj members)) :
    layoutMembers key leaf members = layoutMembers key' leaf' members := by
  induction members with
  | nil => rfl
  | cons m members ih =>
      obtain ⟨hkey, hvalue, hrest⟩ := hsame.of_obj
      rw [layoutMembers, layoutMembers, hkey, h m List.mem_cons_self hvalue,
        ih (fun w hw => h w (List.mem_cons_of_mem _ hw)) hrest]

theorem layout_congr {d : Document κ α} (hsame : SameTexts key key' leaf leaf' d) :
    layout key leaf d = layout key' leaf' d := by
  induction d using Document.induct with
  | leaf a =>
      rw [layout, layout]
      exact hsame.2 (false, a) List.mem_cons_self
  | arr items ih =>
      cases items with
      | nil => rw [layout, layout]
      | cons v items =>
          rw [layout, layout, ih v List.mem_cons_self hsame.of_arr.1,
            layoutItems_congr (fun w hw => ih w (List.mem_cons_of_mem _ hw)) hsame.of_arr.2]
  | obj members ih =>
      cases members with
      | nil => rw [layout, layout]
      | cons m members =>
          obtain ⟨hkey, hvalue, hrest⟩ := hsame.of_obj
          rw [layout, layout, hkey, ih m List.mem_cons_self hvalue,
            layoutMembers_congr (fun w hw => ih w (List.mem_cons_of_mem _ hw)) hrest]

/-- Where no key and no leaf is longer in the first of two texts that are equal, none is shorter. -/
theorem lengths_of_layout_eq {d : Document κ α} (hkey : ∀ k ∈ d.keys, (key k).length ≤ (key' k).length)
    (hleaf : ∀ p ∈ d.leavesAt false, (leaf p.2).length ≤ (leaf' p.2).length) :
    layout key leaf d = layout key' leaf' d →
      (∀ k ∈ d.keys, (key k).length = (key' k).length) ∧
        ∀ p ∈ d.leavesAt false, (leaf p.2).length = (leaf' p.2).length := by
  intro heq
  have hlength := congrArg List.length heq
  have hkeys : (d.keys.map (fun k => (key k).length)).sum ≤
      (d.keys.map (fun k => (key' k).length)).sum := List.sum_le_sum hkey
  have hleaves : ((d.leavesAt false).map (fun p => (leaf p.2).length)).sum ≤
      ((d.leavesAt false).map (fun p => (leaf' p.2).length)).sum := List.sum_le_sum hleaf
  rw [measured d, measured d, contentLength, contentLength] at hlength
  constructor
  · intro k hk
    by_contra hne
    have hlt := List.sum_lt_sum _ _ hkey ⟨k, hk, lt_of_le_of_ne (hkey k hk) hne⟩
    omega
  · intro p hp
    by_contra hne
    have hlt := List.sum_lt_sum _ _ hleaf ⟨p, hp, lt_of_le_of_ne (hleaf p hp) hne⟩
    omega

end Lengths

end JsonText

import Mathlib.Data.List.Pairwise
import Mathlib.Data.List.Sort

/-!
# Filters and the stable merge sort

A stable sort keeps the order of elements that compare equal, so that filtering and sorting
commute. Sorting by one key gives the stable order of another key exactly where the two keys
compare every element alike with those that follow it.
-/

namespace StableSort

variable {α : Type*} {le : α → α → Bool}

/-- A list has one split only into elements without the property and elements with it. -/
theorem append_split_unique {p : α → Bool} {l₁ l₂ m₁ m₂ : List α} (h : l₁ ++ l₂ = m₁ ++ m₂)
    (hl₁ : ∀ b ∈ l₁, p b = false) (hl₂ : ∀ b ∈ l₂, p b = true)
    (hm₁ : ∀ b ∈ m₁, p b = false) (hm₂ : ∀ b ∈ m₂, p b = true) : l₁ = m₁ ∧ l₂ = m₂ := by
  have hwith : ∀ l m : List α, (∀ b ∈ l, p b = false) → (∀ b ∈ m, p b = true) →
      (l ++ m).filter p = m := by
    intro l m hl hm
    have hnone : l.filter p = [] :=
      List.filter_eq_nil_iff.2 fun b hb => by rw [hl b hb]; exact Bool.false_ne_true
    rw [List.filter_append, hnone, List.filter_eq_self.2 hm, List.nil_append]
  have hsecond : l₂ = m₂ := by
    rw [← hwith l₁ l₂ hl₁ hl₂, ← hwith m₁ m₂ hm₁ hm₂, h]
  rw [hsecond] at h
  exact ⟨List.append_cancel_right h, hsecond⟩

/-- Sorting one more element puts it before the first of the sorted ones that is not smaller. -/
theorem mergeSort_cons_split (htrans : ∀ a b c, le a b → le b c → le a c)
    (htotal : ∀ a b, le a b || le b a) (a : α) (l : List α) :
    ∃ l₁ l₂, (a :: l).mergeSort le = l₁ ++ a :: l₂ ∧ l.mergeSort le = l₁ ++ l₂ ∧
      (∀ b ∈ l₁, le a b = false) ∧ ∀ b ∈ l₂, le a b = true := by
  obtain ⟨l₁, l₂, hcons, htail, hbefore⟩ := List.mergeSort_cons htrans htotal a l
  refine ⟨l₁, l₂, hcons, htail, fun b hb => ?_, fun b hb => ?_⟩
  · simpa using hbefore b hb
  · have hsorted := List.pairwise_mergeSort htrans htotal (a :: l)
    rw [hcons, List.pairwise_append] at hsorted
    exact (List.pairwise_cons.1 hsorted.2.1).1 b hb

theorem filter_mergeSort (htrans : ∀ a b c, le a b → le b c → le a c)
    (htotal : ∀ a b, le a b || le b a) (p : α → Bool) (l : List α) :
    (l.mergeSort le).filter p = (l.filter p).mergeSort le := by
  induction l with
  | nil => simp
  | cons a l ih =>
      obtain ⟨l₁, l₂, hcons, htail, hl₁, hl₂⟩ := mergeSort_cons_split htrans htotal a l
      rw [htail, List.filter_append] at ih
      rw [hcons, List.filter_append]
      by_cases hp : p a = true
      · obtain ⟨m₁, m₂, hfcons, hftail, hm₁, hm₂⟩ :=
          mergeSort_cons_split htrans htotal a (l.filter p)
        rw [List.filter_cons_of_pos hp, List.filter_cons_of_pos hp, hfcons]
        rw [hftail] at ih
        obtain ⟨h₁, h₂⟩ := append_split_unique ih
          (fun b hb => hl₁ b (List.mem_of_mem_filter hb))
          (fun b hb => hl₂ b (List.mem_of_mem_filter hb)) hm₁ hm₂
        rw [h₁, h₂]
      · rw [List.filter_cons_of_neg hp, List.filter_cons_of_neg hp]
        exact ih

/-- Sorting compares an element with those that follow it only. -/
theorem mergeSort_congr {le' : α → α → Bool} (htrans : ∀ a b c, le a b → le b c → le a c)
    (htotal : ∀ a b, le a b || le b a) (htrans' : ∀ a b c, le' a b → le' b c → le' a c)
    (htotal' : ∀ a b, le' a b || le' b a) {l : List α}
    (h : l.Pairwise (fun a b => le a b = le' a b)) : l.mergeSort le = l.mergeSort le' := by
  induction l with
  | nil => simp
  | cons a l ih =>
      rw [List.pairwise_cons] at h
      obtain ⟨l₁, l₂, hcons, htail, hl₁, hl₂⟩ := mergeSort_cons_split htrans htotal a l
      obtain ⟨m₁, m₂, hcons', htail', hm₁, hm₂⟩ := mergeSort_cons_split htrans' htotal' a l
      have hmem : ∀ b, b ∈ m₁ ++ m₂ → le a b = le' a b := by
        intro b hb
        rw [← htail', List.mem_mergeSort] at hb
        exact h.1 b hb
      have heq := ih h.2
      rw [htail, htail'] at heq
      obtain ⟨h₁, h₂⟩ := append_split_unique heq hl₁ hl₂
        (fun b hb => (hmem b (List.mem_append_left _ hb)).trans (hm₁ b hb))
        (fun b hb => (hmem b (List.mem_append_right _ hb)).trans (hm₂ b hb))
      rw [hcons, hcons', h₁, h₂]

section Keys

variable {β γ : Type*} [LinearOrder β] [LinearOrder γ] {f : α → β} {g : α → γ} {l : List α}

/-- `l'` has the elements of `l` in the order of the key, and those of one key as in `l`. -/
structure StableSortedBy (key : α → γ) (l l' : List α) : Prop where
  perm : l'.Perm l
  sorted : l'.Pairwise (fun a b => key a ≤ key b)
  stable : ∀ k, l'.filter (fun a => key a = k) = l.filter (fun a => key a = k)

theorem key_trans (f : α → β) (a b c : α) (hab : decide (f a ≤ f b) = true)
    (hbc : decide (f b ≤ f c) = true) : decide (f a ≤ f c) = true := by
  rw [decide_eq_true_eq] at hab hbc ⊢
  exact hab.trans hbc

theorem key_total (f : α → β) (a b : α) : (decide (f a ≤ f b) || decide (f b ≤ f a)) = true := by
  rw [Bool.or_eq_true, decide_eq_true_eq, decide_eq_true_eq]
  exact le_total (f a) (f b)

theorem sorted_mergeSort (f : α → β) (l : List α) :
    (l.mergeSort (fun a b => f a ≤ f b)).Pairwise (fun a b => f a ≤ f b) :=
  (List.pairwise_mergeSort (key_trans f) (key_total f) l).imp of_decide_eq_true

theorem stableSortedBy_mergeSort (f : α → β) (l : List α) :
    StableSortedBy f l (l.mergeSort (fun a b => f a ≤ f b)) where
  perm := List.mergeSort_perm l _
  sorted := sorted_mergeSort f l
  stable k := by
    rw [filter_mergeSort (key_trans f) (key_total f)]
    apply List.mergeSort_of_pairwise
    apply List.pairwise_of_forall_mem_list
    intro a ha b hb
    rw [List.mem_filter, decide_eq_true_eq] at ha hb
    exact decide_eq_true (ha.2.trans hb.2.symm).le

/-- Two elements of a list that is sorted by two keys compare alike under both. -/
theorem mem_sorted_or {a b : α} (hf : l.Pairwise (fun a b => f a ≤ f b))
    (hg : l.Pairwise (fun a b => g a ≤ g b)) (ha : a ∈ l) (hb : b ∈ l) (hne : a ≠ b) :
    (f a ≤ f b ∧ g a ≤ g b) ∨ (f b ≤ f a ∧ g b ≤ g a) := by
  have hboth := (hf.and hg).imp
    (S := fun a b => (f a ≤ f b ∧ g a ≤ g b) ∨ (f b ≤ f a ∧ g b ≤ g a)) Or.inl
  have hsymm : Std.Symm fun a b => (f a ≤ f b ∧ g a ≤ g b) ∨ (f b ≤ f a ∧ g b ≤ g a) :=
    ⟨fun _ _ h => h.symm⟩
  exact hboth.forall ha hb hne

theorem StableSortedBy.pairwise_iff
    (h : StableSortedBy g l (l.mergeSort (fun a b => f a ≤ f b))) :
    l.Pairwise (fun a b => f a ≤ f b ↔ g a ≤ g b) := by
  rw [List.pairwise_iff_forall_sublist]
  intro a b hab
  constructor
  · intro hf
    have hpair := List.pair_sublist_mergeSort (key_trans f) (key_total f) (decide_eq_true hf) hab
    exact (List.pairwise_iff_forall_sublist.1 h.sorted) hpair
  · intro hg
    rcases hg.lt_or_eq with hlt | heq
    · have hne : a ≠ b := fun hab => hlt.ne (congrArg g hab)
      rcases mem_sorted_or (sorted_mergeSort f l) h.sorted
        (List.mem_mergeSort.2 (hab.subset List.mem_cons_self))
        (List.mem_mergeSort.2 (hab.subset (List.mem_cons_of_mem _ List.mem_cons_self))) hne with
        ⟨hf, _⟩ | ⟨_, hba⟩
      · exact hf
      · exact absurd hba (not_le.2 hlt)
    · -- Elements of one key keep their order, which is then sorted by `f`.
      have hpair := hab.filter (fun c => g c = g b)
      rw [← h.stable (g b)] at hpair
      simp only [List.filter_cons, heq, decide_true, if_true, List.filter_nil] at hpair
      exact (List.pairwise_iff_forall_sublist.1 (sorted_mergeSort f l))
        (hpair.trans List.filter_sublist)

/-- A sort by `f` is the stable sort by `g` exactly where the keys agree on the order of every two
elements, the earlier one first. -/
theorem stableSortedBy_mergeSort_iff :
    StableSortedBy g l (l.mergeSort (fun a b => f a ≤ f b)) ↔
      l.Pairwise (fun a b => f a ≤ f b ↔ g a ≤ g b) := by
  refine ⟨StableSortedBy.pairwise_iff, fun h => ?_⟩
  rw [mergeSort_congr (key_trans f) (key_total f) (key_trans g) (key_total g)
    (h.imp (fun hab => decide_eq_decide.2 hab))]
  exact stableSortedBy_mergeSort g l

end Keys

end StableSort

import Mathlib.Data.List.MinMax
import Mathlib.Data.List.Nodup
import Mathlib.Data.List.Perm.Basic
import Mathlib.Tactic.Common

/-!
# Selections from rows that come in no particular order

A selection `pick` decides a relation `C` when `C l a` says exactly that some order of the rows
of `l` makes `pick` return `a`. The result is then the same in every order if and only if `C`
admits at most one row.
-/

namespace Selection

variable {α β : Type*}

structure Decides (pick : List α → Option α) (C : List α → α → Prop) : Prop where
  sound : ∀ l a, pick l = some a → C l a
  complete : ∀ l a, C l a → ∃ l', l'.Perm l ∧ pick l' = some a
  perm : ∀ l l' a, l.Perm l' → C l a → C l' a
  defined : ∀ l a, C l a → pick l ≠ none

variable {pick pick₁ pick₂ : List α → Option α} {C C₁ C₂ : List α → α → Prop}

theorem Decides.eq_of_perm (h : Decides pick C) {l l' : List α}
    (hC : ∀ a b, C l a → C l b → a = b) (hp : l'.Perm l) : pick l' = pick l := by
  cases hl' : pick l' with
  | none =>
      cases hl : pick l with
      | none => rfl
      | some a => exact absurd hl' (h.defined l' a (h.perm l l' a hp.symm (h.sound l a hl)))
  | some a =>
      have ha := h.perm l' l a hp (h.sound l' a hl')
      obtain ⟨b, hl⟩ := Option.ne_none_iff_exists'.1 (h.defined l a ha)
      rw [hl, hC a b ha (h.sound l b hl)]

/-- The order of the rows cannot be observed exactly where one row at most qualifies. -/
theorem Decides.forall_perm_iff (h : Decides pick C) (l : List α) :
    (∀ l', l'.Perm l → pick l' = pick l) ↔ ∀ a b, C l a → C l b → a = b := by
  constructor
  · intro hl a b ha hb
    obtain ⟨la, hpa, hla⟩ := h.complete l a ha
    obtain ⟨lb, hpb, hlb⟩ := h.complete l b hb
    rw [hl la hpa] at hla
    rw [hl lb hpb, hla] at hlb
    exact Option.some.inj hlb
  · exact fun hC l' hp => h.eq_of_perm hC hp

/-- Every order selects a row that passes the test exactly where some row qualifies and all do. -/
theorem Decides.forall_perm_any_iff (h : Decides pick C) (test : α → Bool) (l : List α) :
    (∀ l', l'.Perm l → (pick l').any test = true) ↔
      (∃ a, C l a) ∧ ∀ a, C l a → test a = true := by
  constructor
  · intro hl
    constructor
    · obtain ⟨a, ha, _⟩ := (Option.any_eq_true _ _).1 (hl l (List.Perm.refl l))
      exact ⟨a, h.sound l a ha⟩
    · intro a ha
      obtain ⟨l', hp, hl'⟩ := h.complete l a ha
      simpa only [hl', Option.any_some] using hl l' hp
  · rintro ⟨⟨a, ha⟩, htest⟩ l' hp
    obtain ⟨b, hb⟩ := Option.ne_none_iff_exists'.1 (h.defined l' a (h.perm l l' a hp.symm ha))
    rw [hb, Option.any_some]
    exact htest b (h.perm l' l b hp (h.sound l' b hb))

theorem Decides.congr (h : Decides pick₁ C₁) (hpick : ∀ l, pick₂ l = pick₁ l)
    (hC : ∀ l a, C₂ l a ↔ C₁ l a) : Decides pick₂ C₂ := by
  obtain rfl : pick₂ = pick₁ := funext hpick
  obtain rfl : C₂ = C₁ := funext fun l => funext fun a => propext (hC l a)
  exact h

def Greatest [LE β] (f : α → β) (l : List α) (a : α) : Prop := a ∈ l ∧ ∀ b ∈ l, f b ≤ f a

theorem Greatest.unique [PartialOrder β] {f : α → β} {l : List α} {a b : α}
    (h : (l.map f).Nodup) (ha : Greatest f l a) (hb : Greatest f l b) : a = b :=
  List.inj_on_of_nodup_map h ha.1 hb.1 (le_antisymm (hb.2 a ha.1) (ha.2 b hb.1))

theorem argmax_cons_of_greatest [LinearOrder β] {f : α → β} {l : List α} {a : α}
    (h : ∀ b ∈ l, f b ≤ f a) : (a :: l).argmax f = some a := by
  rw [List.argmax_cons]
  cases hl : l.argmax f with
  | none => rfl
  | some b =>
      have hb := h b (List.argmax_mem hl)
      exact if_neg (not_lt.2 hb)

theorem exists_argmax [LinearOrder β] (f : α → β) {l : List α} (h : l ≠ []) :
    ∃ a, l.argmax f = some a :=
  Option.ne_none_iff_exists'.1 (mt List.argmax_eq_none.1 h)

theorem decides_argmax [LinearOrder β] (f : α → β) :
    Decides (List.argmax f) (Greatest f) where
  sound l a h := ⟨List.argmax_mem h, fun _ hb => List.le_of_mem_argmax hb h⟩
  complete l a h := by
    obtain ⟨l₁, l₂, rfl⟩ := List.append_of_mem h.1
    refine ⟨a :: (l₁ ++ l₂), List.perm_middle.symm, argmax_cons_of_greatest ?_⟩
    intro b hb
    apply h.2 b
    simp only [List.mem_append, List.mem_cons] at hb ⊢
    tauto
  perm l l' a hp h := ⟨hp.mem_iff.1 h.1, fun b hb => h.2 b (hp.mem_iff.2 hb)⟩
  defined l a h hn := List.ne_nil_of_mem h.1 (List.argmax_eq_none.1 hn)

theorem exists_perm_filter (p : α → Bool) {l l' : List α} (h : l'.Perm (l.filter p)) :
    ∃ m : List α, m.Perm l ∧ m.filter p = l' := by
  refine ⟨l' ++ l.filter (fun a => ! p a), (h.append_right _).trans (l.filter_append_perm p), ?_⟩
  rw [List.filter_append, List.filter_eq_self.2, List.filter_eq_nil_iff.2, List.append_nil]
  · intro a ha
    have := (List.mem_filter.1 ha).2
    simpa using this
  · exact fun a ha => (List.mem_filter.1 (h.mem_iff.1 ha)).2

/-- A selection among the rows that pass a test; the test may look at the whole set of rows. -/
theorem Decides.filter (h : Decides pick C) {p : List α → α → Bool}
    (hp : ∀ l l' : List α, l.Perm l' → p l = p l') :
    Decides (fun l => pick (l.filter (p l))) (fun l => C (l.filter (p l))) where
  sound l a := h.sound _ a
  complete l a hC := by
    obtain ⟨l', hl', hpick⟩ := h.complete _ a hC
    obtain ⟨m, hm, hfilter⟩ := exists_perm_filter (p l) hl'
    refine ⟨m, hm, ?_⟩
    rw [hp m l hm, hfilter, hpick]
  perm l l' a hl hC := by
    apply h.perm (l.filter (p l)) _ a _ hC
    rw [hp l l' hl]
    exact hl.filter (p l')
  defined l a := h.defined _ a

/-- The first selection where it finds a row, else the second. -/
theorem Decides.orElse (h₁ : Decides pick₁ C₁) (h₂ : Decides pick₂ C₂) :
    Decides (fun l => (pick₁ l).or (pick₂ l))
      (fun l a => C₁ l a ∨ ((∀ b, ¬ C₁ l b) ∧ C₂ l a)) where
  sound l a h := by
    cases h₁l : pick₁ l with
    | some b =>
        rw [h₁l, Option.some_or] at h
        rw [← Option.some.inj h]
        exact Or.inl (h₁.sound l b h₁l)
    | none =>
        rw [h₁l, Option.none_or] at h
        exact Or.inr ⟨fun b hb => h₁.defined l b hb h₁l, h₂.sound l a h⟩
  complete l a h := by
    rcases h with h | ⟨hnone, h⟩
    · obtain ⟨l', hp, hl'⟩ := h₁.complete l a h
      exact ⟨l', hp, by rw [hl', Option.some_or]⟩
    · obtain ⟨l', hp, hl'⟩ := h₂.complete l a h
      refine ⟨l', hp, ?_⟩
      cases h₁l : pick₁ l' with
      | some b => exact absurd (h₁.perm l' l b hp (h₁.sound l' b h₁l)) (hnone b)
      | none => rw [Option.none_or, hl']
  perm l l' a hp h := by
    rcases h with h | ⟨hnone, h⟩
    · exact Or.inl (h₁.perm l l' a hp h)
    · exact Or.inr ⟨fun b hb => hnone b (h₁.perm l' l b hp.symm hb), h₂.perm l l' a hp h⟩
  defined l a h hn := by
    obtain ⟨hn₁, hn₂⟩ := Option.or_eq_none_iff.1 hn
    rcases h with h | ⟨_, h⟩
    · exact h₁.defined l a h hn₁
    · exact h₂.defined l a h hn₂

end Selection

import Mathlib.Data.List.Forall2
import Mathlib.Tactic.Common

/-!
# Lists of computations that may raise

`mapM` pairs each element with what its computation returns, and raises where one of them does.
-/

namespace SimplyTransport

theorem bind_eq_ok {ε α β : Type} {x : Except ε α} {f : α → Except ε β} {b : β} :
    (x >>= f) = .ok b ↔ ∃ a, x = .ok a ∧ f a = .ok b := by
  cases x with
  | error e => exact ⟨nofun, nofun⟩
  | ok a => exact ⟨fun h => ⟨a, rfl, h⟩, fun ⟨_, ha, h⟩ => Except.ok.inj ha ▸ h⟩

section Paired

variable {α β γ : Type} {R : α → β → Prop} {l : List α} {m : List β}

/-- Two lists that are paired with the same one are paired with each other. -/
theorem forall₂_of_forall₂ {S : α → γ → Prop} {T : β → γ → Prop}
    (hT : ∀ a b c, R a b → S a c → T b c) {n : List γ}
    (hR : List.Forall₂ R l m) (hS : List.Forall₂ S l n) : List.Forall₂ T m n := by
  induction hR generalizing n with
  | nil =>
      cases hS
      exact .nil
  | cons hab _ ih =>
      cases hS with
      | cons hac hS => exact .cons (hT _ _ _ hab hac) (ih hS)

theorem exists_mem_of_forall₂ (h : List.Forall₂ R l m) : ∀ a ∈ l, ∃ b ∈ m, R a b := by
  induction h with
  | nil => exact fun a ha => absurd ha List.not_mem_nil
  | @cons a b l m hab _ ih =>
      intro a' ha'
      rcases List.mem_cons.1 ha' with rfl | ha'
      · exact ⟨b, List.mem_cons_self, hab⟩
      · obtain ⟨b', hb', hab'⟩ := ih a' ha'
        exact ⟨b', List.mem_cons_of_mem _ hb', hab'⟩

theorem exists_line_of_forall₂ (h : List.Forall₂ R l m) : ∀ b ∈ m, ∃ a ∈ l, R a b :=
  exists_mem_of_forall₂ (R := fun b a => R a b) h.flip

theorem map_eq_of_forall₂ {f : α → γ} {g : β → γ} (hR : ∀ a b, R a b → f a = g b)
    (h : List.Forall₂ R l m) : l.map f = m.map g := by
  induction h with
  | nil => rfl
  | cons hab _ ih => rw [List.map_cons, List.map_cons, hR _ _ hab, ih]

end Paired

section MapM

variable {ε α β : Type} {f : α → Except ε β} {l : List α} {out : List β}

theorem mapM_cons_eq_ok {a : α} :
    (a :: l).mapM f = .ok out ↔ ∃ b bs, f a = .ok b ∧ l.mapM f = .ok bs ∧ out = b :: bs := by
  rw [List.mapM_cons, bind_eq_ok]
  constructor
  · rintro ⟨b, hb, h⟩
    obtain ⟨bs, hbs, h⟩ := bind_eq_ok.1 h
    exact ⟨b, bs, hb, hbs, (Except.ok.inj h).symm⟩
  · rintro ⟨b, bs, hb, hbs, rfl⟩
    exact ⟨b, hb, bind_eq_ok.2 ⟨bs, hbs, rfl⟩⟩

theorem forall₂_of_mapM (h : l.mapM f = .ok out) :
    List.Forall₂ (fun a b => f a = .ok b) l out := by
  induction l generalizing out with
  | nil =>
      obtain rfl := Except.ok.inj h
      exact .nil
  | cons a l ih =>
      obtain ⟨b, bs, hb, hbs, rfl⟩ := mapM_cons_eq_ok.1 h
      exact .cons hb (ih hbs)

theorem mapM_of_forall₂ (h : List.Forall₂ (fun a b => f a = .ok b) l out) :
    l.mapM f = .ok out := by
  induction h with
  | nil => rfl
  | cons hab _ ih => exact mapM_cons_eq_ok.2 ⟨_, _, hab, ih, rfl⟩

theorem exists_mapM_iff : (∃ out, l.mapM f = .ok out) ↔ ∀ a ∈ l, ∃ b, f a = .ok b := by
  induction l with
  | nil => exact iff_of_true ⟨[], rfl⟩ (fun a ha => absurd ha List.not_mem_nil)
  | cons a l ih =>
      rw [List.forall_mem_cons, ← ih]
      constructor
      · rintro ⟨out, h⟩
        obtain ⟨b, bs, hb, hbs, rfl⟩ := mapM_cons_eq_ok.1 h
        exact ⟨⟨b, hb⟩, bs, hbs⟩
      · rintro ⟨⟨b, hb⟩, bs, hbs⟩
        exact ⟨b :: bs, mapM_cons_eq_ok.2 ⟨b, bs, hb, hbs, rfl⟩⟩

theorem mapM_congr {g : α → Except ε β} (h : ∀ a ∈ l, f a = g a) : l.mapM f = l.mapM g := by
  induction l with
  | nil => rfl
  | cons a l ih =>
      rw [List.mapM_cons, List.mapM_cons, h a List.mem_cons_self,
        ih (fun b hb => h b (List.mem_cons_of_mem _ hb))]

theorem mapM_eq_of_forall₂ {γ : Type} {g : γ → Except ε β} {m : List γ}
    (h : List.Forall₂ (fun a c => f a = g c) l m) : l.mapM f = m.mapM g := by
  induction h with
  | nil => rfl
  | cons hac _ ih => rw [List.mapM_cons, List.mapM_cons, hac, ih]

end MapM

end SimplyTransport

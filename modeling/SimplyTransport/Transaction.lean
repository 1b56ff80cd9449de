import Mathlib.Tactic.Common

/-!
# Programs that raise, and transactions

A program over a state returns a value or raises, and leaves a state in both cases.
`atomically` runs one and undoes, where it raises, the part of the state that `rollback` restores
from the state before. `Ends` is the judgement on both ways to end, with a rule for each
construct.
-/

namespace Transaction

variable {ε σ α β : Type}

structure Prog (ε σ α : Type) where
  run : σ → Except ε α × σ

instance : Monad (Prog ε σ) where
  pure a := ⟨fun s => (.ok a, s)⟩
  bind x f := ⟨fun s =>
    match x.run s with
    | (.ok a, s') => (f a).run s'
    | (.error e, s') => (.error e, s')⟩

def raise? (e : Option ε) : Prog ε σ Unit := ⟨fun s =>
  match e with
  | some e => (.error e, s)
  | none => (.ok (), s)⟩

def update (f : σ → σ) : Prog ε σ Unit := ⟨fun s => (.ok (), f s)⟩

def read (f : σ → α) : Prog ε σ α := ⟨fun s => (.ok (f s), s)⟩

/-- Where the body raises, `rollback` makes the new state from the old one and the one it left. -/
def atomically (rollback : σ → σ → σ) (body : Prog ε σ α) : Prog ε σ α := ⟨fun s =>
  match body.run s with
  | (.ok a, s') => (.ok a, s')
  | (.error e, s') => (.error e, rollback s s')⟩

def ofExcept (x : Except ε α) : Prog ε σ α := ⟨fun s => (x, s)⟩

def tryFinally (body : Prog ε σ α) (final : Prog ε σ Unit) : Prog ε σ α := ⟨fun s =>
  match body.run s with
  | (r, s') =>
    match final.run s' with
    | (.ok _, s'') => (r, s'')
    | (.error e, s'') => (.error e, s'')⟩

def zoom {τ : Type} (get : σ → τ) (put : σ → τ → σ) (x : Prog ε τ α) : Prog ε σ α := ⟨fun s =>
  ((x.run (get s)).1, put s (x.run (get s)).2)⟩

variable {s s' s'' : σ}

theorem run_pure_eq_ok {a b : α} :
    (pure a : Prog ε σ α).run s = (.ok b, s') ↔ a = b ∧ s = s' := by
  change ((.ok a, s) : Except ε α × σ) = (.ok b, s') ↔ _
  rw [Prod.mk.injEq, Except.ok.injEq]

theorem run_bind_eq_ok {x : Prog ε σ α} {f : α → Prog ε σ β} {b : β} :
    (x >>= f).run s = (.ok b, s'') ↔
      ∃ a s', x.run s = (.ok a, s') ∧ (f a).run s' = (.ok b, s'') := by
  simp only [bind]
  rcases x.run s with ⟨e | a, t⟩
  · simp
  · simp

theorem run_raise_eq_ok {e : Option ε} {u : Unit} :
    (raise? e : Prog ε σ Unit).run s = (.ok u, s') ↔ e = none ∧ s = s' := by
  cases e with
  | none => simp [raise?]
  | some e => simp [raise?]

theorem run_update_eq_ok {f : σ → σ} {u : Unit} :
    (update f : Prog ε σ Unit).run s = (.ok u, s') ↔ f s = s' := by
  simp [update]

theorem run_read_eq_ok {f : σ → α} {a : α} :
    (read f : Prog ε σ α).run s = (.ok a, s') ↔ f s = a ∧ s = s' := by
  simp [read]

theorem run_atomically_eq_ok {rollback : σ → σ → σ} {body : Prog ε σ α} {a : α} :
    (atomically rollback body).run s = (.ok a, s') ↔ body.run s = (.ok a, s') := by
  simp only [atomically]
  rcases body.run s with ⟨e | a', t⟩
  · simp
  · simp

theorem run_atomically_error {rollback : σ → σ → σ} {body : Prog ε σ α} {e : ε}
    (h : (atomically rollback body).run s = (.error e, s')) : ∃ t, s' = rollback s t := by
  simp only [atomically] at h
  generalize body.run s = r at h
  rcases r with ⟨e' | a, t⟩
  · exact ⟨t, (congrArg Prod.snd h).symm⟩
  · cases h

section Ends

/-- Started in `s` the program returns a value and a state that satisfy `Q`, or raises and leaves a
state that satisfies `R`. -/
def Ends (x : Prog ε σ α) (s : σ) (Q : α → σ → Prop) (R : σ → Prop) : Prop :=
  match x.run s with
  | (.ok a, s') => Q a s'
  | (.error _, s') => R s'

variable {x : Prog ε σ α} {Q Q' : α → σ → Prop} {R R' : σ → Prop}

theorem Ends.mono (h : Ends x s Q R) (hQ : ∀ a s', Q a s' → Q' a s') (hR : ∀ s', R s' → R' s') :
    Ends x s Q' R' := by
  unfold Ends at *
  generalize x.run s = r at *
  rcases r with ⟨e | a, s'⟩
  · exact hR s' h
  · exact hQ a s' h

/-- What holds however the program ends holds of the state it leaves. -/
theorem Ends.run {P : σ → Prop} (h : Ends x s (fun _ => P) P) : P (x.run s).2 := by
  unfold Ends at h
  generalize x.run s = r at *
  rcases r with ⟨e | a, s'⟩
  · exact h
  · exact h

theorem ends_pure {a : α} (h : Q a s) : Ends (pure a : Prog ε σ α) s Q R := h

theorem ends_bind {f : α → Prog ε σ β} {Q : β → σ → Prop}
    (h : Ends x s (fun a s' => Ends (f a) s' Q R) R) : Ends (x >>= f) s Q R := by
  simp only [Ends, Bind.bind] at *
  generalize x.run s = r at *
  rcases r with ⟨e | a, s'⟩
  · exact h
  · exact h

/-- The rule of composition, with the assertion between the two programs. -/
theorem Ends.bind {f : α → Prog ε σ β} {P : α → σ → Prop} {Q : β → σ → Prop}
    (h : Ends x s P R) (hf : ∀ a s', P a s' → Ends (f a) s' Q R) : Ends (x >>= f) s Q R :=
  ends_bind (h.mono hf (fun _ hR => hR))

theorem ends_raise {e : Option ε} {Q : Unit → σ → Prop} (hQ : e = none → Q () s) (hR : R s) :
    Ends (raise? e) s Q R := by
  cases e with
  | none => exact hQ rfl
  | some e => exact hR

theorem ends_ofExcept {y : Except ε α} (hQ : ∀ a, y = .ok a → Q a s) (hR : R s) :
    Ends (ofExcept y) s Q R := by
  cases y with
  | error e => exact hR
  | ok a => exact hQ a rfl

theorem ends_update {f : σ → σ} {Q : Unit → σ → Prop} (h : Q () (f s)) :
    Ends (update f : Prog ε σ Unit) s Q R := h

theorem ends_read {f : σ → α} (h : Q (f s) s) : Ends (read f : Prog ε σ α) s Q R := h

theorem ends_atomically {rollback : σ → σ → σ}
    (h : Ends x s Q (fun s' => R (rollback s s'))) : Ends (atomically rollback x) s Q R := by
  simp only [Ends, atomically] at *
  generalize x.run s = r at *
  rcases r with ⟨e | a, s'⟩
  · exact h
  · exact h

theorem ends_tryFinally {final : Prog ε σ Unit}
    (h : Ends x s (fun a s' => Ends final s' (fun _ => Q a) R)
      (fun s' => Ends final s' (fun _ => R) R)) : Ends (tryFinally x final) s Q R := by
  rcases hx : x.run s with ⟨e | a, s'⟩
  · rcases hf : final.run s' with ⟨e' | u, s''⟩
    · simpa only [Ends, tryFinally, hx, hf] using h
    · simpa only [Ends, tryFinally, hx, hf] using h
  · rcases hf : final.run s' with ⟨e' | u, s''⟩
    · simpa only [Ends, tryFinally, hx, hf] using h
    · simpa only [Ends, tryFinally, hx, hf] using h

theorem ends_zoom {τ : Type} {get : σ → τ} {put : σ → τ → σ} {y : Prog ε τ α}
    (h : Ends y (get s) (fun a t => Q a (put s t)) (fun t => R (put s t))) :
    Ends (zoom get put y) s Q R := by
  simp only [Ends, zoom] at *
  generalize y.run (get s) = r at *
  rcases r with ⟨e | a, t⟩
  · exact h
  · exact h

end Ends

end Transaction

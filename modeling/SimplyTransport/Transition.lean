import Mathlib.Logic.Relation
import Mathlib.Tactic.Common

/-!
# Runs of a system given by an executable next-state function

`next s e` is the state after the event `e`, or `none` where `e` is not enabled in `s`.
`RunWhile next C s t` says that `t` is reached from `s` by events each of which meets the
condition `C` in the state it is taken from; `Run` puts no condition. An interleaving of
several parties is a run whose events name the party that moves.
-/

namespace Transition

variable {σ ε : Type*} (next : σ → ε → Option σ)

def Moves (C : σ → ε → Prop) (s t : σ) : Prop := ∃ e, C s e ∧ next s e = some t

def RunWhile (C : σ → ε → Prop) : σ → σ → Prop := Relation.ReflTransGen (Moves next C)

def Run : σ → σ → Prop := RunWhile next (fun _ _ => True)

/-- The state after a list of events, when each of them is enabled in its turn. -/
def exec : σ → List ε → Option σ
  | s, [] => some s
  | s, e :: es => (next s e).bind (fun t => exec t es)

variable {next} {C D : σ → ε → Prop} {s t u : σ}

theorem RunWhile.refl (s : σ) : RunWhile next C s s := Relation.ReflTransGen.refl

theorem RunWhile.trans (hst : RunWhile next C s t) (htu : RunWhile next C t u) :
    RunWhile next C s u := Relation.ReflTransGen.trans hst htu

theorem RunWhile.tail {e : ε} (hst : RunWhile next C s t) (hC : C t e)
    (he : next t e = some u) : RunWhile next C s u :=
  Relation.ReflTransGen.tail hst ⟨e, hC, he⟩

theorem RunWhile.mono (hCD : ∀ s e, C s e → D s e) (h : RunWhile next C s t) :
    RunWhile next D s t := by
  apply Relation.ReflTransGen.mono _ _ _ h
  rintro s t ⟨e, hC, he⟩
  exact ⟨e, hCD s e hC, he⟩

theorem RunWhile.toRun (h : RunWhile next C s t) : Run next s t :=
  h.mono (fun _ _ _ => trivial)

/-- What holds at the start and is kept by every admitted event holds at the end of every run. -/
theorem RunWhile.invariant {I : σ → Prop} (h : RunWhile next C s t) (h₀ : I s)
    (hstep : ∀ s e t, I s → C s e → next s e = some t → I t) : I t := by
  induction h with
  | refl => exact h₀
  | tail _ hm ih =>
      obtain ⟨e, hC, he⟩ := hm
      exact hstep _ e _ ih hC he

theorem Run.invariant {I : σ → Prop} (h : Run next s t) (h₀ : I s)
    (hstep : ∀ s e t, I s → next s e = some t → I t) : I t :=
  RunWhile.invariant h h₀ (fun s e t hI _ he => hstep s e t hI he)

/-- A run of a system whose steps are admitted steps of another one while an invariant holds. -/
theorem Run.runWhile {next' : σ → ε → Option σ} {I : σ → Prop} (h : Run next' s t) (h₀ : I s)
    (hstep : ∀ s e t, I s → next' s e = some t → C s e ∧ next s e = some t ∧ I t) :
    RunWhile next C s t := by
  have hboth : RunWhile next C s t ∧ I t := by
    refine h.invariant (I := fun u => RunWhile next C s u ∧ I u) ⟨RunWhile.refl s, h₀⟩ ?_
    intro u e v ⟨hrun, hu⟩ he
    obtain ⟨hC, hnext, hv⟩ := hstep u e v hu he
    exact ⟨hrun.tail hC hnext, hv⟩
  exact hboth.1

theorem exec_cons (s : σ) (e : ε) (es : List ε) :
    exec next s (e :: es) = (next s e).bind (fun t => exec next t es) := rfl

theorem exec_get (es : List ε) (h : (exec next s es).isSome) :
    exec next s es = some ((exec next s es).get h) := (Option.some_get h).symm

/-- A list of events that executes is a run, under any condition that its events always meet. -/
theorem runWhile_of_exec {es : List ε} (hC : ∀ e ∈ es, ∀ s, C s e)
    (h : exec next s es = some t) : RunWhile next C s t := by
  induction es generalizing s with
  | nil =>
      obtain rfl := Option.some.inj h
      exact RunWhile.refl _
  | cons e es ih =>
      rw [exec_cons] at h
      obtain ⟨u, hu, ht⟩ := Option.bind_eq_some_iff.1 h
      have hhead := RunWhile.tail (RunWhile.refl s) (hC e List.mem_cons_self s) hu
      exact hhead.trans (ih (fun e' he' => hC e' (List.mem_cons_of_mem e he')) ht)

theorem run_of_exec {es : List ε} (h : exec next s es = some t) : Run next s t :=
  runWhile_of_exec (fun _ _ _ => trivial) h

end Transition

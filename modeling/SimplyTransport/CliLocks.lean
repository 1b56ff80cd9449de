import SimplyTransport.Concurrency
import Mathlib.Data.Fintype.EquivFin

/-!
# The static import lock of the command line

`importgtfs` takes the lock `gtfs_static_import` and holds it while its body runs. The three
other commands only look whether that lock is held, then take the mutex of their own name and
run. The two keys are different, so an import that takes its lock after a command has looked
runs beside that command's body.
-/

namespace SimplyTransport.CliLocks
open Lease Transition Concurrency

/-- The commands decorated by `skip_if_lock_held` over `concurrency(1)`. -/
inductive Command
  | importrealtime
  | importrealtimevehicles
  | recorddelays
  deriving DecidableEq

def cliLockGtfsStaticImportTtlS : ℕ := 4 * 60 * 60

def concurrencyTtlSeconds : ℕ := 3600

/-- A run of `importgtfs` after its prompt; `entry` is the token it holds, with the lease. -/
inductive ImportPc
  | idle
  | body (entry : Entry ℕ)
  | exiting (entry : Entry ℕ)
  | finished

/-- A run of a decorated command. `checked` has found the static lock free. -/
inductive JobPc
  | idle
  | checked
  | body (entry : Entry ℕ)
  | exiting (entry : Entry ℕ)
  | finished

structure State where
  clock : ℕ
  staticLock : Option (Entry ℕ)
  mutex : Command → Option (Entry ℕ)
  issued : List ℕ
  imports : ℕ → ImportPc
  jobs : Command × ℕ → JobPc

inductive Event
  | tick (micros : ℕ)
  | evictStatic
  | evictMutex (cmd : Command)
  | acquireStatic (g token : ℕ)
  | endImport (g : ℕ)
  | releaseStatic (g : ℕ)
  | check (j : Command × ℕ)
  | acquireJob (j : Command × ℕ) (token : ℕ)
  | endJob (j : Command × ℕ)
  | releaseJob (j : Command × ℕ)

def initial (clock : ℕ) : State where
  clock := clock
  staticLock := none
  mutex _ := none
  issued := []
  imports _ := .idle
  jobs _ := .idle

def State.setImport (s : State) (g : ℕ) (pc : ImportPc) : State :=
  { s with imports := Function.update s.imports g pc }

def State.setJob (s : State) (j : Command × ℕ) (pc : JobPc) : State :=
  { s with jobs := Function.update s.jobs j pc }

def State.setStatic (s : State) (key : Option (Entry ℕ)) : State := { s with staticLock := key }

def State.setMutex (s : State) (cmd : Command) (key : Option (Entry ℕ)) : State :=
  { s with mutex := Function.update s.mutex cmd key }

def State.issue (s : State) (token : ℕ) : State := { s with issued := token :: s.issued }

def isLockHeld (now : ℕ) (key : Option (Entry ℕ)) : Bool := (visible now key).isSome

def State.lease (s : State) (token ttlSeconds : ℕ) : Entry ℕ :=
  ⟨token, nowMs s.clock + ttlSeconds * 1000⟩

def next (s : State) : Event → Option State
  | .tick n => some { s with clock := s.clock + n }
  | .evictStatic => some (s.setStatic (evict (nowMs s.clock) s.staticLock))
  | .evictMutex cmd => some (s.setMutex cmd (evict (nowMs s.clock) (s.mutex cmd)))
  | .acquireStatic g token =>
    match s.imports g with
    | .idle =>
      if token ∈ s.issued then none else
      let r := acquireMutex (nowMs s.clock) (cliLockGtfsStaticImportTtlS * 1000) token s.staticLock
      some (((s.issue token).setStatic r.2).setImport g
        (if r.1.isSome then .body (s.lease token cliLockGtfsStaticImportTtlS) else .finished))
    | _ => none
  | .endImport g =>
    match s.imports g with
    | .body e => some (s.setImport g (.exiting e))
    | _ => none
  | .releaseStatic g =>
    match s.imports g with
    | .exiting e =>
      some ((s.setStatic (releaseMutex (nowMs s.clock) e.token s.staticLock)).setImport g .finished)
    | _ => none
  | .check j =>
    match s.jobs j with
    | .idle =>
      some (s.setJob j (if isLockHeld (nowMs s.clock) s.staticLock then .finished else .checked))
    | _ => none
  | .acquireJob j token =>
    match s.jobs j with
    | .checked =>
      if token ∈ s.issued then none else
      let r := acquireMutex (nowMs s.clock) (concurrencyTtlSeconds * 1000) token (s.mutex j.1)
      some (((s.issue token).setMutex j.1 r.2).setJob j
        (if r.1.isSome then .body (s.lease token concurrencyTtlSeconds) else .finished))
    | _ => none
  | .endJob j =>
    match s.jobs j with
    | .body e => some (s.setJob j (.exiting e))
    | _ => none
  | .releaseJob j =>
    match s.jobs j with
    | .exiting e =>
      some ((s.setMutex j.1 (releaseMutex (nowMs s.clock) e.token (s.mutex j.1))).setJob j .finished)
    | _ => none

def ImportPc.lease? : ImportPc → Option (Entry ℕ)
  | .body e => some e
  | .exiting e => some e
  | _ => none

def JobPc.lease? : JobPc → Option (Entry ℕ)
  | .body e => some e
  | .exiting e => some e
  | _ => none

def NoExpiry (s : State) : Event → Prop
  | .tick n => (∀ g e, s.imports g = .body e → nowMs (s.clock + n) < e.expiry) ∧
      ∀ j e, s.jobs j = .body e → nowMs (s.clock + n) < e.expiry
  | _ => True

/-- No command has seen the static lock free and not yet finished its body. -/
def Quiet (s : State) : Prop := ∀ j, s.jobs j ≠ .checked ∧ ∀ e, s.jobs j ≠ .body e

def QuietStart (s : State) : Event → Prop
  | .acquireStatic _ _ => visible (nowMs s.clock) s.staticLock = none → Quiet s
  | _ => True

def Exclusive (s : State) : Prop :=
  ∀ g e, s.imports g = .body e →
    (∀ j e', s.jobs j ≠ .body e') ∧ ∀ g' e', s.imports g' = .body e' → g' = g

theorem setImport_imports (s : State) (g g' : ℕ) (pc : ImportPc) :
    (s.setImport g pc).imports g' = if g' = g then pc else s.imports g' := by
  simp [State.setImport, Function.update_apply]

theorem setJob_jobs (s : State) (j j' : Command × ℕ) (pc : JobPc) :
    (s.setJob j pc).jobs j' = if j' = j then pc else s.jobs j' := by
  simp [State.setJob, Function.update_apply]

theorem setMutex_mutex (s : State) (cmd cmd' : Command) (key : Option (Entry ℕ)) :
    (s.setMutex cmd key).mutex cmd' = if cmd' = cmd then key else s.mutex cmd' := by
  simp [State.setMutex, Function.update_apply]

theorem acquireStatic_cases {s s' : State} {g token : ℕ}
    (he : next s (.acquireStatic g token) = some s') :
    s.imports g = .idle ∧ token ∉ s.issued ∧
      ((visible (nowMs s.clock) s.staticLock = none ∧
        s' = ((s.issue token).setStatic (some (s.lease token cliLockGtfsStaticImportTtlS))).setImport
          g (.body (s.lease token cliLockGtfsStaticImportTtlS))) ∨
      ((visible (nowMs s.clock) s.staticLock).isSome ∧
        s' = ((s.issue token).setStatic s.staticLock).setImport g .finished)) := by
  simp only [next] at he
  split at he
  · next hg =>
    by_cases hnew : token ∈ s.issued
    · rw [if_pos hnew] at he; cases he
    · rw [if_neg hnew] at he
      refine ⟨hg, hnew, ?_⟩
      rcases acquireMutex_cases (nowMs s.clock) (cliLockGtfsStaticImportTtlS * 1000) token
        s.staticLock with ⟨hv, heq⟩ | ⟨e, _, hv, heq⟩
      · rw [heq] at he
        exact Or.inl ⟨hv, (Option.some.inj he).symm⟩
      · rw [heq] at he
        exact Or.inr ⟨by rw [hv]; rfl, (Option.some.inj he).symm⟩
  · cases he

theorem acquireJob_cases {s s' : State} {j : Command × ℕ} {token : ℕ}
    (he : next s (.acquireJob j token) = some s') :
    s.jobs j = .checked ∧ token ∉ s.issued ∧
      (s' = ((s.issue token).setMutex j.1 (some (s.lease token concurrencyTtlSeconds))).setJob
          j (.body (s.lease token concurrencyTtlSeconds)) ∨
        s' = ((s.issue token).setMutex j.1 (s.mutex j.1)).setJob j .finished) := by
  simp only [next] at he
  split at he
  · next hj =>
    by_cases hnew : token ∈ s.issued
    · rw [if_pos hnew] at he; cases he
    · rw [if_neg hnew] at he
      refine ⟨hj, hnew, ?_⟩
      rcases acquireMutex_cases (nowMs s.clock) (concurrencyTtlSeconds * 1000) token
        (s.mutex j.1) with ⟨_, heq⟩ | ⟨e, _, _, heq⟩
      · rw [heq] at he
        exact Or.inl (Option.some.inj he).symm
      · rw [heq] at he
        exact Or.inr (Option.some.inj he).symm
  · cases he

theorem endImport_cases {s s' : State} {g : ℕ} (he : next s (.endImport g) = some s') :
    ∃ e, s.imports g = .body e ∧ s' = s.setImport g (.exiting e) := by
  simp only [next] at he
  split at he
  · next e hg => exact ⟨e, hg, (Option.some.inj he).symm⟩
  · cases he

theorem releaseStatic_cases {s s' : State} {g : ℕ} (he : next s (.releaseStatic g) = some s') :
    ∃ e, s.imports g = .exiting e ∧
      s' = (s.setStatic (releaseMutex (nowMs s.clock) e.token s.staticLock)).setImport
        g .finished := by
  simp only [next] at he
  split at he
  · next e hg => exact ⟨e, hg, (Option.some.inj he).symm⟩
  · cases he

theorem check_cases {s s' : State} {j : Command × ℕ} (he : next s (.check j) = some s') :
    s.jobs j = .idle ∧ (s' = s.setJob j .finished ∨
      visible (nowMs s.clock) s.staticLock = none ∧ s' = s.setJob j .checked) := by
  simp only [next] at he
  split at he
  · next hj =>
    refine ⟨hj, ?_⟩
    rw [← Option.some.inj he]
    split_ifs with hheld
    · exact Or.inl rfl
    · exact Or.inr ⟨by simpa [isLockHeld] using hheld, rfl⟩
  · cases he

theorem endJob_cases {s s' : State} {j : Command × ℕ} (he : next s (.endJob j) = some s') :
    ∃ e, s.jobs j = .body e ∧ s' = s.setJob j (.exiting e) := by
  simp only [next] at he
  split at he
  · next e hj => exact ⟨e, hj, (Option.some.inj he).symm⟩
  · cases he

theorem releaseJob_cases {s s' : State} {j : Command × ℕ}
    (he : next s (.releaseJob j) = some s') :
    ∃ e, s.jobs j = .exiting e ∧
      s' = (s.setMutex j.1 (releaseMutex (nowMs s.clock) e.token (s.mutex j.1))).setJob
        j .finished := by
  simp only [next] at he
  split at he
  · next e hj => exact ⟨e, hj, (Option.some.inj he).symm⟩
  · cases he

end SimplyTransport.CliLocks

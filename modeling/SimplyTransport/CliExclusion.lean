import SimplyTransport.CliLocks

/-!
# Exclusion of the static import and the other commands

Two imports never run together, in any interleaving. An import and another command are kept
apart exactly as long as no import takes its lock between the check of a command and the end
of its body: from any reachable state in which it does, a body of each runs after at most two
further steps.
-/

namespace SimplyTransport.CliLocks
open Lease Transition Concurrency

/-- The running import is the one whose token the static lock holds, and a mutex is held by a
job of its command. -/
structure Inv (s : State) : Prop where
  import_holds : ∀ g e, s.imports g = .body e →
    s.staticLock = some e ∧ nowMs s.clock < e.expiry
  import_issued : ∀ g e, (s.imports g).lease? = some e → e.token ∈ s.issued
  import_token : ∀ g g' e e', (s.imports g).lease? = some e → (s.imports g').lease? = some e' →
    e.token = e'.token → g = g'
  job_lives : ∀ j e, s.jobs j = .body e → nowMs s.clock < e.expiry
  mutex_owner : ∀ cmd e, s.mutex cmd = some e → ∃ n, (s.jobs (cmd, n)).lease? = some e

theorem inv_initial (clock : ℕ) : Inv (initial clock) := by
  constructor <;> intros <;> simp_all [initial, ImportPc.lease?]

theorem Inv.import_unique {s : State} (h : Inv s) {g g' : ℕ} {e e' : Entry ℕ}
    (hg : s.imports g = .body e) (hg' : s.imports g' = .body e') : g' = g := by
  have he : e' = e := by
    have := (h.import_holds g e hg).1.symm.trans (h.import_holds g' e' hg').1
    exact (Option.some.inj this).symm
  apply h.import_token g' g e' e
  · rw [hg']; rfl
  · rw [hg]; rfl
  · rw [he]

/-- Where the static lock is free, no import runs its body. -/
theorem Inv.no_import {s : State} (h : Inv s) (hv : visible (nowMs s.clock) s.staticLock = none)
    (g : ℕ) (e : Entry ℕ) : s.imports g ≠ .body e := by
  intro hg
  obtain ⟨hlock, hlt⟩ := h.import_holds g e hg
  have hle : nowMs s.clock ≤ e.expiry := hlt.le
  simp [hlock, visible, hle] at hv

theorem Inv.setImport {s : State} (h : Inv s) {g : ℕ} {pc : ImportPc}
    (hbody : ∀ e, pc = .body e → s.imports g = .body e)
    (hlease : ∀ e, pc.lease? = some e → (s.imports g).lease? = some e) :
    Inv (s.setImport g pc) := by
  have hl : ∀ g' e, ((s.setImport g pc).imports g').lease? = some e →
      (s.imports g').lease? = some e := by
    intro g' e he
    rw [setImport_imports] at he
    split_ifs at he with hg
    · rw [hg]; exact hlease e he
    · exact he
  refine ⟨?_, fun g' e he => h.import_issued g' e (hl g' e he),
    fun g₁ g₂ e₁ e₂ h₁ h₂ ht => h.import_token g₁ g₂ e₁ e₂ (hl _ _ h₁) (hl _ _ h₂) ht,
    h.job_lives, h.mutex_owner⟩
  intro g' e he
  rw [setImport_imports] at he
  split_ifs at he with hg
  · exact h.import_holds g e (hbody e he)
  · exact h.import_holds g' e he

/-- A change of the static lock that leaves it with every import that runs its body. -/
theorem Inv.setStatic {s : State} (h : Inv s) {key : Option (Entry ℕ)}
    (hkey : ∀ g e, s.imports g = .body e → key = some e) : Inv (s.setStatic key) :=
  ⟨fun g e he => ⟨hkey g e he, (h.import_holds g e he).2⟩, h.import_issued, h.import_token,
    h.job_lives, h.mutex_owner⟩

theorem Inv.setJob {s : State} (h : Inv s) {j : Command × ℕ} {pc : JobPc}
    (hlive : ∀ e, pc = .body e → nowMs s.clock < e.expiry)
    (howner : ∀ e, s.mutex j.1 = some e → (s.jobs j).lease? = some e → pc.lease? = some e) :
    Inv (s.setJob j pc) := by
  refine ⟨h.import_holds, h.import_issued, h.import_token, ?_, ?_⟩
  · intro j' e he
    rw [setJob_jobs] at he
    split_ifs at he
    · exact hlive e he
    · exact h.job_lives j' e he
  · intro cmd e he
    obtain ⟨n, hn⟩ := h.mutex_owner cmd e he
    refine ⟨n, ?_⟩
    rw [setJob_jobs]
    split_ifs with hj
    · subst hj
      exact howner e he hn
    · exact hn

/-- A mutex that is evicted or released keeps its owner where it keeps its token. -/
theorem Inv.setMutex {s : State} (h : Inv s) {cmd : Command} {key : Option (Entry ℕ)}
    (hkey : ∀ e, key = some e → s.mutex cmd = some e) : Inv (s.setMutex cmd key) := by
  refine ⟨h.import_holds, h.import_issued, h.import_token, h.job_lives, ?_⟩
  intro cmd' e he
  rw [setMutex_mutex] at he
  split_ifs at he with hc
  · rw [hc]; exact h.mutex_owner cmd e (hkey e he)
  · exact h.mutex_owner cmd' e he

theorem Inv.acquireStatic {s : State} (h : Inv s) {g token : ℕ} (hnew : token ∉ s.issued)
    (hv : visible (nowMs s.clock) s.staticLock = none) :
    Inv (((s.issue token).setStatic (some (s.lease token cliLockGtfsStaticImportTtlS))).setImport g
      (.body (s.lease token cliLockGtfsStaticImportTtlS))) := by
  have hold : ∀ g' e, ((((s.issue token).setStatic
      (some (s.lease token cliLockGtfsStaticImportTtlS))).setImport g
      (.body (s.lease token cliLockGtfsStaticImportTtlS))).imports g').lease? = some e →
      (g' = g ∧ e.token = token) ∨ (g' ≠ g ∧ (s.imports g').lease? = some e) := by
    intro g' e he
    rw [setImport_imports] at he
    split_ifs at he with hg
    · refine Or.inl ⟨hg, ?_⟩
      rw [← Option.some.inj he]
      rfl
    · exact Or.inr ⟨hg, he⟩
  refine ⟨?_, ?_, ?_, h.job_lives, h.mutex_owner⟩
  · intro g' e he
    rw [setImport_imports] at he
    split_ifs at he with hg
    · obtain rfl := ImportPc.body.inj he
      refine ⟨rfl, ?_⟩
      change nowMs s.clock < nowMs s.clock + 4 * 60 * 60 * 1000
      omega
    · exact absurd he (h.no_import hv g' e)
  · intro g' e he
    rcases hold g' e he with ⟨_, rfl⟩ | ⟨_, he⟩
    · exact List.mem_cons_self
    · exact List.mem_cons_of_mem _ (h.import_issued g' e he)
  · intro g₁ g₂ e₁ e₂ h₁ h₂ ht
    rcases hold g₁ e₁ h₁ with ⟨hg₁, ht₁⟩ | ⟨_, h₁'⟩ <;>
      rcases hold g₂ e₂ h₂ with ⟨hg₂, ht₂⟩ | ⟨_, h₂'⟩
    · exact hg₁.trans hg₂.symm
    · exact absurd (h.import_issued g₂ e₂ h₂') (by rwa [← ht, ht₁])
    · exact absurd (h.import_issued g₁ e₁ h₁') (by rwa [ht, ht₂])
    · exact h.import_token g₁ g₂ e₁ e₂ h₁' h₂' ht

theorem Inv.issue {s : State} (h : Inv s) (token : ℕ) : Inv (s.issue token) :=
  ⟨h.import_holds, fun g e he => List.mem_cons_of_mem _ (h.import_issued g e he), h.import_token,
    h.job_lives, h.mutex_owner⟩

theorem Inv.acquireJob {s : State} (h : Inv s) {j : Command × ℕ} {token : ℕ}
    (hj : (s.jobs j).lease? = none) :
    Inv (((s.issue token).setMutex j.1 (some (s.lease token concurrencyTtlSeconds))).setJob j
      (.body (s.lease token concurrencyTtlSeconds))) := by
  refine ⟨h.import_holds, (h.issue token).import_issued, h.import_token, ?_, ?_⟩
  · intro j' e he
    rw [setJob_jobs] at he
    split_ifs at he
    · obtain rfl := JobPc.body.inj he
      change nowMs s.clock < nowMs s.clock + 3600 * 1000
      omega
    · exact h.job_lives j' e he
  · intro cmd e he
    change ((s.issue token).setMutex j.1 _).mutex cmd = some e at he
    rw [setMutex_mutex] at he
    split_ifs at he with hc
    · subst hc
      refine ⟨j.2, ?_⟩
      rw [setJob_jobs, if_pos rfl]
      exact he
    · obtain ⟨n, hn⟩ := h.mutex_owner cmd e he
      refine ⟨n, ?_⟩
      rw [setJob_jobs, if_neg]
      · exact hn
      · rintro rfl
        exact hc rfl

theorem Inv.endImport {s : State} (h : Inv s) {g : ℕ} {e : Entry ℕ} (hg : s.imports g = .body e) :
    Inv (s.setImport g (.exiting e)) := by
  apply h.setImport
  · intro e' hbody
    cases hbody
  · intro e' hlease
    rw [hg]
    exact hlease

/-- A released import does not hold the lock of another one. -/
theorem Inv.releaseStatic {s : State} (h : Inv s) {g : ℕ} {e : Entry ℕ}
    (hg : s.imports g = .exiting e) :
    Inv ((s.setStatic (releaseMutex (nowMs s.clock) e.token s.staticLock)).setImport
      g .finished) := by
  apply (h.setStatic _).setImport
  · intro e' hbody
    cases hbody
  · intro e' hlease
    cases hlease
  · intro g' e' hg'
    obtain ⟨hlock, hlt⟩ := h.import_holds g' e' hg'
    rw [hlock]
    apply releaseMutex_of_ne hlt.le
    intro ht
    have hgg := h.import_token g' g e' e (by rw [hg']; rfl) (by rw [hg]; rfl) ht
    rw [hgg, hg] at hg'
    cases hg'

/-- A command without a token moves on without one. -/
theorem Inv.setJob_of_no_lease {s : State} (h : Inv s) {j : Command × ℕ} {pc : JobPc}
    (hj : (s.jobs j).lease? = none) (hpc : ∀ e, pc ≠ .body e) : Inv (s.setJob j pc) := by
  apply h.setJob
  · exact fun e hbody => absurd hbody (hpc e)
  · intro e _ hlease
    rw [hj] at hlease
    cases hlease

theorem Inv.endJob {s : State} (h : Inv s) {j : Command × ℕ} {e : Entry ℕ}
    (hj : s.jobs j = .body e) : Inv (s.setJob j (.exiting e)) := by
  apply h.setJob
  · intro e' hbody
    cases hbody
  · intro e' _ hlease
    rw [hj] at hlease
    exact hlease

/-- A released command is the owner of its mutex no more, since its token is gone from it. -/
theorem Inv.releaseJob {s : State} (h : Inv s) {j : Command × ℕ} {e : Entry ℕ}
    (hj : s.jobs j = .exiting e) :
    Inv ((s.setMutex j.1 (releaseMutex (nowMs s.clock) e.token (s.mutex j.1))).setJob
      j .finished) := by
  apply (h.setMutex (fun e' he' => (releaseMutex_eq_some he').1)).setJob
  · intro e' hbody
    cases hbody
  · intro e' hm hlease
    rw [setMutex_mutex, if_pos rfl] at hm
    change (s.jobs j).lease? = some e' at hlease
    rw [hj] at hlease
    obtain rfl := Option.some.inj hlease
    exact absurd rfl (releaseMutex_eq_some hm).2

theorem Inv.evictStatic {s : State} (h : Inv s) :
    Inv (s.setStatic (evict (nowMs s.clock) s.staticLock)) := by
  apply h.setStatic
  intro g e hg
  obtain ⟨hlock, hlt⟩ := h.import_holds g e hg
  rw [hlock, evict, if_neg (not_le.2 hlt)]

theorem Inv.evictMutex {s : State} (h : Inv s) (cmd : Command) :
    Inv (s.setMutex cmd (evict (nowMs s.clock) (s.mutex cmd))) := by
  apply h.setMutex
  intro e hev
  cases hm : s.mutex cmd with
  | none => simp [hm, evict] at hev
  | some f =>
      rw [hm, evict] at hev
      split_ifs at hev
      exact hev

/-- Every step keeps the invariant, as long as no lease expires under a running body. -/
theorem inv_next {s s' : State} {ev : Event} (h : Inv s) (hx : NoExpiry s ev)
    (he : next s ev = some s') : Inv s' := by
  cases ev with
  | tick n =>
      obtain rfl := Option.some.inj he
      exact ⟨fun g e hg => ⟨(h.import_holds g e hg).1, hx.1 g e hg⟩, h.import_issued,
        h.import_token, hx.2, h.mutex_owner⟩
  | evictStatic =>
      obtain rfl := Option.some.inj he
      exact h.evictStatic
  | evictMutex cmd =>
      obtain rfl := Option.some.inj he
      exact h.evictMutex cmd
  | acquireStatic g token =>
      obtain ⟨_, hnew, ⟨hv, rfl⟩ | ⟨_, rfl⟩⟩ := acquireStatic_cases he
      · exact h.acquireStatic hnew hv
      · apply ((h.issue token).setStatic (fun g e hg => (h.import_holds g e hg).1)).setImport
        · intro e hbody
          cases hbody
        · intro e hlease
          cases hlease
  | endImport g =>
      obtain ⟨e, hg, rfl⟩ := endImport_cases he
      exact h.endImport hg
  | releaseStatic g =>
      obtain ⟨e, hg, rfl⟩ := releaseStatic_cases he
      exact h.releaseStatic hg
  | check j =>
      obtain ⟨hj, rfl | ⟨_, rfl⟩⟩ := check_cases he
      · exact h.setJob_of_no_lease (by rw [hj]; rfl) nofun
      · exact h.setJob_of_no_lease (by rw [hj]; rfl) nofun
  | acquireJob j token =>
      obtain ⟨hj, _, rfl | rfl⟩ := acquireJob_cases he
      · exact h.acquireJob (by rw [hj]; rfl)
      · apply ((h.issue token).setMutex (fun e he => he)).setJob_of_no_lease
        · change (s.jobs j).lease? = none
          rw [hj]
          rfl
        · nofun
  | endJob j =>
      obtain ⟨e, hj, rfl⟩ := endJob_cases he
      exact h.endJob hj
  | releaseJob j =>
      obtain ⟨e, hj, rfl⟩ := releaseJob_cases he
      exact h.releaseJob hj

def ImportsAlone (s : State) : Prop := ∀ g e, s.imports g = .body e → Quiet s

theorem Quiet.finish {s : State} (h : Quiet s) (j : Command × ℕ) : Quiet (s.setJob j .finished) := by
  intro j'
  rw [setJob_jobs]
  split_ifs
  · exact ⟨nofun, nofun⟩
  · exact h j'

theorem importsAlone_next {s s' : State} {ev : Event} (h : Inv s) (hq : ImportsAlone s)
    (hx : QuietStart s ev) (he : next s ev = some s') : ImportsAlone s' := by
  cases ev with
  | tick n =>
      obtain rfl := Option.some.inj he
      exact hq
  | evictStatic =>
      obtain rfl := Option.some.inj he
      exact hq
  | evictMutex cmd =>
      obtain rfl := Option.some.inj he
      exact hq
  | acquireStatic g token =>
      obtain ⟨_, _, ⟨hv, rfl⟩ | ⟨_, rfl⟩⟩ := acquireStatic_cases he
      · exact fun _ _ _ => hx hv
      · intro g' e hg'
        rw [setImport_imports] at hg'
        split_ifs at hg'
        exact hq g' e hg'
  | endImport g =>
      obtain ⟨e, hg, rfl⟩ := endImport_cases he
      exact fun _ _ _ => hq g e hg
  | releaseStatic g =>
      obtain ⟨e, hg, rfl⟩ := releaseStatic_cases he
      intro g' e' hg'
      rw [setImport_imports] at hg'
      split_ifs at hg'
      exact hq g' e' hg'
  | check j =>
      obtain ⟨hj, rfl | ⟨hv, rfl⟩⟩ := check_cases he
      · exact fun g e hg => (hq g e hg).finish j
      · -- An import that runs its body holds the lock, so the check cannot find it free.
        exact fun g e hg => absurd hg (h.no_import hv g e)
  | acquireJob j token =>
      obtain ⟨hj, _, rfl | rfl⟩ := acquireJob_cases he
      · exact fun g e hg => absurd hj (hq g e hg j).1
      · exact fun g e hg => absurd hj (hq g e hg j).1
  | endJob j =>
      obtain ⟨e, hj, rfl⟩ := endJob_cases he
      exact fun g e' hg => absurd hj ((hq g e' hg j).2 e)
  | releaseJob j =>
      obtain ⟨e, hj, rfl⟩ := releaseJob_cases he
      exact fun g e' hg => (hq g e' hg).finish j

theorem Inv.exclusive {s : State} (h : Inv s) (hq : ImportsAlone s) : Exclusive s :=
  fun g e hg => ⟨fun j e' hj => (hq g e hg j).2 e' hj, fun _ _ hg' => h.import_unique hg hg'⟩

theorem not_exclusive {s : State} {g : ℕ} {j : Command × ℕ} {e e' : Entry ℕ}
    (hg : s.imports g = .body e) (hj : s.jobs j = .body e') : ¬ Exclusive s :=
  fun h => (h g e hg).1 j e' hj

/-- A command past its check enters its body as soon as the mutex of its name is free. -/
theorem checked_enters {s : State} {g : ℕ} {j : Command × ℕ} {e : Entry ℕ}
    (hg : s.imports g = .body e) (hj : s.jobs j = .checked)
    (hv : visible (nowMs s.clock) (s.mutex j.1) = none) :
    ∃ t, RunWhile next NoExpiry s t ∧ ¬ Exclusive t := by
  obtain ⟨token, hnew⟩ := Infinite.exists_notMem_finset s.issued.toFinset
  rw [List.mem_toFinset] at hnew
  let lease := s.lease token concurrencyTtlSeconds
  let t := ((s.issue token).setMutex j.1 (some lease)).setJob j (.body lease)
  have hstep : next s (.acquireJob j token) = some t := by
    simp only [next, hj, if_neg hnew, acquireMutex, hv]
    rfl
  have hx : NoExpiry s (.acquireJob j token) := trivial
  refine ⟨t, RunWhile.tail (RunWhile.refl s) hx hstep, ?_⟩
  have htj : t.jobs j = .body lease := by
    simp only [t, setJob_jobs, if_pos]
  exact not_exclusive (show t.imports g = .body e from hg) htj

/-- An import that starts while a command is past its check runs beside it. -/
theorem overlap_of_not_quiet {s s' : State} {g token : ℕ} (h : Inv s)
    (hx : ¬ QuietStart s (.acquireStatic g token))
    (he : next s (.acquireStatic g token) = some s') :
    ∃ t, RunWhile next NoExpiry s' t ∧ ¬ Exclusive t := by
  have h' := inv_next h (show NoExpiry s (.acquireStatic g token) from trivial) he
  simp only [QuietStart, not_forall] at hx
  obtain ⟨hv, hq⟩ := hx
  obtain ⟨_, _, ⟨_, hs'⟩ | ⟨hheld, _⟩⟩ := acquireStatic_cases he
  swap
  · simp [hv] at hheld
  have hg : s'.imports g = .body (s.lease token cliLockGtfsStaticImportTtlS) := by
    rw [hs', setImport_imports, if_pos rfl]
  have hjobs : s'.jobs = s.jobs := by rw [hs']; rfl
  have hbody : ∀ j e, s'.jobs j = .body e → ∃ t, RunWhile next NoExpiry s' t ∧ ¬ Exclusive t :=
    fun j e hj => ⟨s', RunWhile.refl s', not_exclusive hg hj⟩
  obtain ⟨j, hj⟩ := not_forall.1 hq
  by_cases hc : s'.jobs j = .checked
  · rcases visible_cases (nowMs s'.clock) (s'.mutex j.1) with ⟨hfree, _⟩ | ⟨e, _, hm, _⟩
    · exact checked_enters hg hc hfree
    · -- The mutex is taken: its owner is in its body, or about to release it.
      obtain ⟨n, hn⟩ := h'.mutex_owner j.1 e hm
      cases howner : s'.jobs (j.1, n) with
      | body e' => exact hbody _ e' howner
      | exiting e' =>
          obtain rfl : e' = e := by rw [howner] at hn; exact Option.some.inj hn
          let u := (s'.setMutex j.1 none).setJob (j.1, n) .finished
          have hstep : next s' (.releaseJob (j.1, n)) = some u := by
            simp only [next, howner, hm, releaseMutex_self]
            rfl
          have hcu : u.jobs j = .checked := by
            rw [setJob_jobs, if_neg]
            · exact hc
            · intro hjn
              rw [← hjn, hc] at howner
              cases howner
          have hfree : visible (nowMs u.clock) (u.mutex j.1) = none := by
            change visible _ ((s'.setMutex j.1 none).mutex j.1) = none
            rw [setMutex_mutex, if_pos rfl]
            rfl
          obtain ⟨t, hrun, ht⟩ := checked_enters (show u.imports g = _ from hg) hcu hfree
          have hx : NoExpiry s' (.releaseJob (j.1, n)) := trivial
          exact ⟨t, (RunWhile.tail (RunWhile.refl s') hx hstep).trans hrun, ht⟩
      | _ => simp [howner, JobPc.lease?] at hn
  · rw [hjobs] at hc
    simp only [not_and, not_forall, not_not] at hj
    obtain ⟨e, he⟩ := hj hc
    exact hbody j e (by rw [hjobs]; exact he)

def overlap : List Event :=
  [.check (.importrealtime, 0), .acquireStatic 0 1, .acquireJob (.importrealtime, 0) 2]

def overlapEnd : State := (exec next (initial 0) overlap).get rfl

theorem overlap_run : RunWhile next NoExpiry (initial 0) overlapEnd := by
  apply runWhile_of_exec _ (exec_get _ rfl)
  intro e he s
  simp only [overlap, List.mem_cons, List.not_mem_nil, or_false] at he
  rcases he with rfl | rfl | rfl <;> trivial

/-- The locks do not keep an import and a realtime import apart. -/
theorem static_import_overlaps :
    ¬ ∀ clock s, RunWhile next NoExpiry (initial clock) s → Exclusive s :=
  fun h => (h 0 overlapEnd overlap_run 0 ⟨1, 14400000⟩ rfl).1 (.importrealtime, 0) ⟨2, 3600000⟩ rfl

/-- In every run in which each import takes its lock in a quiet state, the body of an import
excludes every other body; and an import that takes it in any other reachable state can be
followed by steps after which its body and another run together. -/
theorem static_import_exclusive (clock : ℕ) :
    (∀ s, RunWhile next (fun s e => NoExpiry s e ∧ QuietStart s e) (initial clock) s →
      Exclusive s) ∧
    (∀ s s' g token, RunWhile next NoExpiry (initial clock) s →
      ¬ QuietStart s (.acquireStatic g token) → next s (.acquireStatic g token) = some s' →
      ∃ t, RunWhile next NoExpiry s' t ∧ ¬ Exclusive t) := by
  constructor
  · intro s hr
    have hI : Inv s ∧ ImportsAlone s := by
      apply RunWhile.invariant hr
      · exact ⟨inv_initial clock, nofun⟩
      · intro s e t hI hC he
        exact ⟨inv_next hI.1 hC.1 he, importsAlone_next hI.1 hI.2 hC.2 he⟩
    exact hI.1.exclusive hI.2
  · intro s s' g token hr hx he
    have hI : Inv s := RunWhile.invariant hr (inv_initial clock)
      (fun s e t hI hC he => inv_next hI hC he)
    exact overlap_of_not_quiet hI hx he

def importFirst : State :=
  (exec next (initial 0) [.acquireStatic 0 1, .check (.importrealtime, 0)]).get rfl

def lookFirst : State := (exec next (initial 0) [.check (.importrealtime, 0)]).get rfl

/-- An import that starts alone stays alone; one that starts behind a command that has looked
does not. -/
theorem static_import_exclusive_runs :
    Exclusive importFirst ∧ ∃ s' t, next lookFirst (.acquireStatic 0 1) = some s' ∧
      RunWhile next NoExpiry s' t ∧ ¬ Exclusive t := by
  constructor
  · apply (static_import_exclusive 0).1
    have hquiet : QuietStart (initial 0) (.acquireStatic 0 1) := fun _ _ => ⟨nofun, nofun⟩
    have hstart : RunWhile next (fun s e => NoExpiry s e ∧ QuietStart s e) (initial 0)
        ((next (initial 0) (.acquireStatic 0 1)).get rfl) :=
      (RunWhile.refl _).tail (e := .acquireStatic 0 1) ⟨trivial, hquiet⟩ rfl
    exact hstart.tail (e := .check (.importrealtime, 0)) ⟨trivial, trivial⟩ rfl
  · have hrun : RunWhile next NoExpiry (initial 0) lookFirst :=
      (RunWhile.refl _).tail (e := .check (.importrealtime, 0)) trivial rfl
    have hloud : ¬ QuietStart lookFirst (.acquireStatic 0 1) :=
      fun h => (h rfl (.importrealtime, 0)).1 rfl
    obtain ⟨t, ht⟩ := (static_import_exclusive 0).2 lookFirst _ 0 1 hrun hloud rfl
    exact ⟨_, t, rfl, ht⟩

end SimplyTransport.CliLocks

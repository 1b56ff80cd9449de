import SimplyTransport.IdRanges

/-!
# Disjointness of the reserved ranges

The ranges are disjoint in every run whose steps are ordered, and the order is exactly what
they need: from any state such a run reaches, a step out of order can be continued to two rows
with one id.
-/

namespace SimplyTransport.IdRanges
open Transition

variable {ρ : Type} {start : ℤ} {s s' : State ρ}

/-- Every value handed out lies below the counter and was handed out once; a pending claim of
several rows is the last one, and nothing up to the counter is unclaimed. -/
structure Inv (start : ℤ) (s : State ρ) : Prop where
  advanced : start ≤ s.counter
  nonempty : ∀ t v rows, s.sessions t = .claimed v rows → 1 ≤ rows.length
  above : ∀ t v rows, s.sessions t = .claimed v rows → start < v ∧ v ≤ s.counter
  last : ∀ t v rows, s.sessions t = .claimed v rows → 2 ≤ rows.length → v = s.counter
  claimed_once : ∀ t u v rows rows', s.sessions t = .claimed v rows →
    s.sessions u = .claimed v rows' → t = u
  unused : ∀ t v rows, s.sessions t = .claimed v rows → ∀ b ∈ s.batches, ¬ b.Holds v
  below : ∀ b ∈ s.batches, ∀ x, b.Holds x → start < x ∧ x ≤ s.counter
  disjoint : s.batches.Pairwise (fun b b' => ∀ x, b.Holds x → ¬ b'.Holds x)
  covered : ∀ x, start < x → x ≤ s.counter →
    (∃ b ∈ s.batches, b.Holds x) ∨ ∃ t rows, s.sessions t = .claimed x rows

theorem inv_initial (start : ℤ) : Inv start (initial start : State ρ) := by
  constructor <;> intros <;> simp_all [initial]
  omega

theorem Inv.unique (h : Inv start s) : Unique start s where
  disjoint := h.disjoint
  fresh b hb x hx := (h.below b hb x hx).1
  nodup := (nodup_iff_disjoint _).2 h.disjoint

theorem Inv.nextval {t : ℕ} {rows : List ρ} (h : Inv start s)
    (ht : s.sessions t = .idle) (hrows : 1 ≤ rows.length)
    (hshort : ∀ t v rows, s.sessions t = .claimed v rows → rows.length ≤ 1) :
    Inv start ({ s with counter := s.counter + 1 }.setSession t (.claimed (s.counter + 1) rows)) := by
  have hold : ∀ u v rows', ({ s with counter := s.counter + 1 }.setSession t
      (.claimed (s.counter + 1) rows)).sessions u = .claimed v rows' →
      (u = t ∧ v = s.counter + 1 ∧ rows' = rows) ∨ s.sessions u = .claimed v rows' := by
    intro u v rows' hu
    rw [setSession_sessions] at hu
    split_ifs at hu with hut
    · cases hu
      exact Or.inl ⟨hut, rfl, rfl⟩
    · exact Or.inr hu
  have hstart := h.advanced
  refine ⟨hstart.trans (Int.le_add_one le_rfl), ?_, ?_, ?_, ?_, ?_, ?_, h.disjoint, ?_⟩
  · intro u v rows' hu
    rcases hold u v rows' hu with ⟨_, _, rfl⟩ | hu
    · exact hrows
    · exact h.nonempty u v rows' hu
  · intro u v rows' hu
    change start < v ∧ v ≤ s.counter + 1
    rcases hold u v rows' hu with ⟨_, rfl, _⟩ | hu
    · omega
    · have := h.above u v rows' hu
      omega
  · intro u v rows' hu hlen
    rcases hold u v rows' hu with ⟨_, rfl, _⟩ | hu
    · rfl
    · have := hshort u v rows' hu
      omega
  · intro u w v rows₁ rows₂ hu hw
    rcases hold u v rows₁ hu with ⟨hut, hv, _⟩ | hu' <;>
      rcases hold w v rows₂ hw with ⟨hwt, hv', _⟩ | hw'
    · exact hut.trans hwt.symm
    · have := h.above w v rows₂ hw'
      omega
    · have := h.above u v rows₁ hu'
      omega
    · exact h.claimed_once u w v rows₁ rows₂ hu' hw'
  · intro u v rows' hu b hb hx
    rcases hold u v rows' hu with ⟨_, rfl, _⟩ | hu
    · have := h.below b hb _ hx
      omega
    · exact h.unused u v rows' hu b hb hx
  · intro b hb x hx
    have := h.below b hb x hx
    change start < x ∧ x ≤ s.counter + 1
    omega
  · intro x hx hle
    change x ≤ s.counter + 1 at hle
    by_cases hnew : x = s.counter + 1
    · exact Or.inr ⟨t, rows, by rw [setSession_sessions, if_pos rfl, hnew]⟩
    · rcases h.covered x hx (by omega) with hb | ⟨u, rows', hu⟩
      · exact Or.inl hb
      · refine Or.inr ⟨u, rows', ?_⟩
        rw [setSession_sessions, if_neg]
        · exact hu
        · rintro rfl
          rw [ht] at hu
          cases hu

theorem Inv.setval {t : ℕ} {value : ℤ} {rows : List ρ} (h : Inv start s)
    (ht : s.sessions t = .claimed value rows) (hle : s.counter ≤ value + rows.length - 1) :
    Inv start (({ s with counter := value + rows.length - 1,
                         batches := ⟨value, rows⟩ :: s.batches } : State ρ).setSession t .idle) := by
  have hold : ∀ u v rows', (({ s with
      counter := value + rows.length - 1,
      batches := ⟨value, rows⟩ :: s.batches } : State ρ).setSession t .idle).sessions u =
        .claimed v rows' → u ≠ t ∧ s.sessions u = .claimed v rows' := by
    intro u v rows' hu
    rw [setSession_sessions] at hu
    split_ifs at hu with hut
    exact ⟨hut, hu⟩
  have hvalue := h.above t value rows ht
  have hpos := h.nonempty t value rows ht
  -- The claim is the last value below the counter, so its range starts at the counter.
  have heq : value = s.counter := by
    by_cases hlong : 2 ≤ rows.length
    · exact h.last t value rows ht hlong
    · omega
  have hother : ∀ u v rows', u ≠ t → s.sessions u = .claimed v rows' → v < s.counter := by
    intro u v rows' hne hu
    have := h.above u v rows' hu
    rcases this.2.lt_or_eq with hlt | rfl
    · exact hlt
    · rw [heq] at ht
      exact absurd (h.claimed_once u t _ rows' rows hu ht) hne
  refine ⟨h.advanced.trans hle, ?_, ?_, ?_, ?_, ?_, ?_, ?_, ?_⟩
  · exact fun u v rows' hu => h.nonempty u v rows' (hold u v rows' hu).2
  · intro u v rows' hu
    obtain ⟨hne, hu⟩ := hold u v rows' hu
    have := h.above u v rows' hu
    change start < v ∧ v ≤ value + rows.length - 1
    omega
  · intro u v rows' hu hlong
    obtain ⟨hne, hu⟩ := hold u v rows' hu
    have := hother u v rows' hne hu
    have := h.last u v rows' hu hlong
    omega
  · exact fun u w v rows₁ rows₂ hu hw =>
      h.claimed_once u w v rows₁ rows₂ (hold u v rows₁ hu).2 (hold w v rows₂ hw).2
  · intro u v rows' hu b hb hx
    obtain ⟨hne, hu⟩ := hold u v rows' hu
    rcases List.mem_cons.1 hb with rfl | hb
    · have := hother u v rows' hne hu
      have : value ≤ v := hx.1
      omega
    · exact h.unused u v rows' hu b hb hx
  · intro b hb x hx
    change start < x ∧ x ≤ value + rows.length - 1
    rcases List.mem_cons.1 hb with rfl | hb
    · have : value ≤ x := hx.1
      exact ⟨by omega, hx.2⟩
    · have := h.below b hb x hx
      omega
  · refine List.pairwise_cons.2 ⟨?_, h.disjoint⟩
    intro b hb x hx hx'
    have hxle := (h.below b hb x hx').2
    have hge : value ≤ x := hx.1
    obtain rfl : x = value := by omega
    exact h.unused t x rows ht b hb hx'
  · intro x hx hxle
    change x ≤ value + rows.length - 1 at hxle
    by_cases hnew : value ≤ x
    · exact Or.inl ⟨_, List.mem_cons_self, hnew, hxle⟩
    · rcases h.covered x hx (by omega) with ⟨b, hb, hbx⟩ | ⟨u, rows', hu⟩
      · exact Or.inl ⟨b, List.mem_cons_of_mem _ hb, hbx⟩
      · refine Or.inr ⟨u, rows', ?_⟩
        rw [setSession_sessions, if_neg]
        · exact hu
        · rintro rfl
          rw [ht] at hu
          cases hu
          omega

theorem inv_next {e : Event ρ} (h : Inv start s) (hx : Ordered s e) (he : next s e = some s') :
    Inv start s' := by
  cases e with
  | nextval t rows =>
      obtain ⟨ht, hrows, rfl⟩ := nextval_cases he
      exact h.nextval ht hrows hx
  | setval t =>
      obtain ⟨value, rows, ht, rfl⟩ := setval_cases he
      exact h.setval ht (hx value rows ht)

/-- A pending claim that meets a range handed out before becomes a second range over it. -/
theorem overlap_of_batch {u : ℕ} {v x : ℤ} {rows : List ρ} {b : Batch ρ}
    (hu : s.sessions u = .claimed v rows) (hb : b ∈ s.batches) (hx : b.Holds x)
    (hv : v ≤ x) (hlt : x ≤ v + rows.length - 1) :
    ∃ t, Run next s t ∧ ¬ Unique start t := by
  refine ⟨_, (RunWhile.refl s).tail (e := .setval u) trivial (next_setval hu), ?_⟩
  exact not_unique rfl hb ⟨hv, hlt⟩ hx

theorem overlap_of_claims {t u : ℕ} {v w x : ℤ} {rows rows' : List ρ} (htu : u ≠ t)
    (ht : s.sessions t = .claimed v rows) (hu : s.sessions u = .claimed w rows')
    (hv : v ≤ x) (hlt : x ≤ v + rows.length - 1) (hw : w ≤ x)
    (hlt' : x ≤ w + rows'.length - 1) : ∃ t, Run next s t ∧ ¬ Unique start t := by
  have hstep := next_setval ht
  generalize hs : State.setSession _ t .idle = s₁ at hstep
  have hu₁ : s₁.sessions u = .claimed w rows' := by
    rw [← hs, setSession_sessions, if_neg htu]
    exact hu
  have hb : (⟨v, rows⟩ : Batch ρ) ∈ s₁.batches := by
    rw [← hs]
    exact List.mem_cons_self
  have hgo : ∃ t, Run next s₁ t ∧ ¬ Unique start t :=
    overlap_of_batch hu₁ hb ⟨hv, hlt⟩ hw hlt'
  obtain ⟨t', hrun, ht'⟩ := hgo
  exact ⟨t', ((RunWhile.refl s).tail (e := .setval t) trivial hstep).trans hrun, ht'⟩

/-- A `nextval` between the two halves of a longer reservation lands inside its range. -/
theorem overlap_of_nextval {t : ℕ} {rows : List ρ} (h : Inv start s)
    (hx : ¬ Ordered s (.nextval t rows)) (he : next s (.nextval t rows) = some s') :
    ∃ t, Run next s' t ∧ ¬ Unique start t := by
  simp only [Ordered, not_forall, not_le] at hx
  obtain ⟨u, v, rows', hu, hlong⟩ := hx
  obtain ⟨ht, hrows, rfl⟩ := nextval_cases he
  have hv := h.last u v rows' hu (by omega)
  have hut : u ≠ t := by
    rintro rfl
    rw [ht] at hu
    cases hu
  apply overlap_of_claims (x := s.counter + 1) hut
  · rw [setSession_sessions, if_pos rfl]
  · rw [setSession_sessions, if_neg hut]
    exact hu
  all_goals omega

/-- A `setval` that moves the counter back makes the next `nextval` repeat a value. -/
theorem overlap_of_setval {t : ℕ} (h : Inv start s) (hx : ¬ Ordered s (.setval t))
    (he : next s (.setval t) = some s') : ∃ t, Run next s' t ∧ ¬ Unique start t := by
  simp only [Ordered, not_forall, not_le] at hx
  obtain ⟨v, rows, ht, hlt⟩ := hx
  obtain ⟨v', rows', ht', hs'⟩ := setval_cases he
  cases ht.symm.trans ht'
  have hpos := h.nonempty t v rows ht
  have hone : rows.length = 1 := by
    by_contra hne
    have := h.last t v rows ht (by omega)
    omega
  have habove := h.above t v rows ht
  have hidle : s'.sessions t = .idle := by
    rw [hs', setSession_sessions, if_pos rfl]
  have hcounter : s'.counter + 1 = v + 1 := by
    rw [hs']
    change v + rows.length - 1 + 1 = v + 1
    omega
  have hstep : next s' (.nextval t rows) =
      some ({ s' with counter := v + 1 }.setSession t (.claimed (v + 1) rows)) := by
    have hne : rows.isEmpty = false := by
      rw [List.isEmpty_eq_false_iff_exists_mem]
      exact List.exists_mem_of_length_pos hpos
    simp only [next, hidle, hne, hcounter]
    rfl
  generalize hs₁ : State.setSession _ t (.claimed (v + 1) rows) = s₁ at hstep
  have ht₁ : s₁.sessions t = .claimed (v + 1) rows := by
    rw [← hs₁, setSession_sessions, if_pos rfl]
  have hgo : ∃ t, Run next s₁ t ∧ ¬ Unique start t := by
    rcases h.covered (v + 1) (by omega) (by omega) with ⟨b, hb, hbx⟩ | ⟨u, rows', hu⟩
    · have hb₁ : b ∈ s₁.batches := by
        rw [← hs₁, hs']
        exact List.mem_cons_of_mem _ hb
      exact overlap_of_batch ht₁ hb₁ hbx le_rfl (by omega)
    · have hut : u ≠ t := by
        rintro rfl
        have hvv := ht.symm.trans hu
        simp only [Pc.claimed.injEq] at hvv
        omega
      have hu₁ : s₁.sessions u = .claimed (v + 1) rows' := by
        rw [← hs₁, setSession_sessions, if_neg hut]
        change s'.sessions u = _
        rw [hs', setSession_sessions, if_neg hut]
        exact hu
      have := h.nonempty u _ rows' hu
      exact overlap_of_claims hut ht₁ hu₁ le_rfl (by omega) le_rfl (by omega)
  obtain ⟨t', hrun, ht'⟩ := hgo
  exact ⟨t', ((RunWhile.refl s').tail (e := .nextval t rows) trivial hstep).trans hrun, ht'⟩

def collision : List (Event Unit) :=
  [.nextval 0 (List.replicate 10 ()), .nextval 1 (List.replicate 5 ()), .setval 0, .setval 1]

def collisionEnd : State Unit := (exec next (initial 0) collision).get rfl

theorem id_ranges_collide : ¬ ∀ start s, Run next (initial start : State Unit) s →
    Unique start s := by
  intro h
  have hrun : Run next (initial 0) collisionEnd := run_of_exec (exec_get collision rfl)
  have hover : ¬ Unique 0 collisionEnd := by
    apply not_unique (b := ⟨2, List.replicate 5 ()⟩) (c := ⟨1, List.replicate 10 ()⟩) (x := 2) rfl
    · exact List.mem_cons_self
    · constructor <;> simp
    · constructor <;> simp
  exact hover (h 0 collisionEnd hrun)

/-- The ranges and the ids of the copied rows are unique in every run of ordered steps; after a
step out of order, a continuation of the run hands out some id twice. -/
theorem id_ranges_unique (start : ℤ) :
    (∀ s : State ρ, RunWhile next Ordered (initial start) s → Unique start s) ∧
    (∀ (s s' : State ρ) (e : Event ρ), RunWhile next Ordered (initial start) s →
      ¬ Ordered s e → next s e = some s' → ∃ t, Run next s' t ∧ ¬ Unique start t) := by
  have hInv : ∀ s : State ρ, RunWhile next Ordered (initial start) s → Inv start s :=
    fun s hr => hr.invariant (inv_initial start) (fun _ _ _ h hx he => inv_next h hx he)
  constructor
  · exact fun s hr => (hInv s hr).unique
  · intro s s' e hr hx he
    cases e with
    | nextval t rows => exact overlap_of_nextval (hInv s hr) hx he
    | setval t => exact overlap_of_setval (hInv s hr) hx he

def claimPending : State Unit := (exec next (initial 0) [.nextval 0 [(), ()]]).get rfl

def claimDone : State Unit := (exec next (initial 0) [.nextval 0 [(), ()], .setval 0]).get rfl

/-- A reservation that runs alone is unique; one that starts inside it is not. -/
theorem id_ranges_unique_runs :
    Unique 0 claimDone ∧ ∃ s' t, next claimPending (.nextval 1 [()]) = some s' ∧
      Run next s' t ∧ ¬ Unique 0 t := by
  have hfirst : Ordered (initial 0 : State Unit) (.nextval 0 [(), ()]) := nofun
  have hpending : RunWhile next Ordered (initial 0) claimPending :=
    (RunWhile.refl _).tail hfirst rfl
  have hsecond : Ordered claimPending (.setval 0) := by
    rintro value rows hclaim
    cases hclaim
    decide
  constructor
  · apply (id_ranges_unique 0).1
    exact hpending.tail hsecond rfl
  · have hloud : ¬ Ordered claimPending (.nextval 1 [()]) :=
      fun h => absurd (h 0 1 [(), ()] rfl) (by decide)
    obtain ⟨t, ht⟩ := (id_ranges_unique 0).2 claimPending _ (.nextval 1 [()]) hpending hloud rfl
    exact ⟨_, t, rfl, ht⟩

end SimplyTransport.IdRanges

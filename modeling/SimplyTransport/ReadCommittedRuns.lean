import SimplyTransport.ReadCommitted

/-!
# What two replacements leave

As long as no `DELETE` begins while the other transaction is open, or the records are compatible,
an open transaction knows all rows of the table, unless the other one has committed since its
`DELETE` began. Then the insertion raises by a shared key, or one side has no records. One of the
transactions commits, and the table holds the records of one of them.
-/

namespace ReadCommitted
open Transition

section Lemmas

variable {α κ : Type} {key : α → κ} {records : Bool → List α} {s s' : State α} {p : Bool}

theorem rowsOf_map (writer : Option Bool) (l : List α) :
    (rowsOf writer l).map Prod.snd = l := by
  rw [rowsOf, List.map_map]
  exact List.zipIdx_map_fst 0 l

theorem rowsOf_writer {writer : Option Bool} {l : List α} {r : RowId × α}
    (h : r ∈ rowsOf writer l) : r.1.1 = writer := by
  obtain ⟨a, _, rfl⟩ := List.mem_map.1 h
  rfl

theorem not_ne_self (p : Bool) : (!p) ≠ p := by cases p <;> decide

theorem ne_of_isOpen {ph : Phase α} (h : ph.isOpen = true) :
    ph ≠ .committed ∧ ph ≠ .idle ∧ ph ≠ .failed := by
  refine ⟨?_, ?_, ?_⟩ <;>
    · rintro rfl
      cases h

theorem isOpen_of_isUnfinished {ph : Phase α} (h : ph.isUnfinished = true) :
    ph.isOpen = true := by
  cases ph <;> first | rfl | cases h

theorem isOpen_of_isInserted {ph : Phase α} (h : ph.isInserted = true) : ph.isOpen = true := by
  cases ph <;> first | rfl | cases h

/-- What holds of a transaction and of the other one holds of both. -/
theorem forall_run {P : Bool → Prop} (hp : P p) (hnot : P (!p)) : ∀ q, P q := by
  intro q
  by_cases hq : q = p
  · rwa [hq]
  · rwa [Bool.eq_not_of_ne hq]

theorem setPhase_phase (s : State α) (p q : Bool) (ph : Phase α) :
    (s.setPhase p ph).phase q = if q = p then ph else s.phase q := by
  simp [State.setPhase, Function.update_apply]

theorem setPhase_self (s : State α) (p : Bool) (ph : Phase α) :
    (s.setPhase p ph).phase p = ph := by rw [setPhase_phase, if_pos rfl]

theorem setPhase_not (s : State α) (p : Bool) (ph : Phase α) :
    (s.setPhase p ph).phase (!p) = s.phase (!p) := by
  rw [setPhase_phase, if_neg (not_ne_self p)]

theorem inv_initial (l : List α) : Inv key records (initial l) where
  content := Or.inl (fun _ h => by cases h)
  phases _ := trivial
  both_open h := by cases h true
  both_inserted h := by cases h true
  rows_written r hr p hp := by
    rw [rowsOf_writer hr] at hp
    cases hp
  ids_written q i hi := absurd hi List.not_mem_nil
  new_written p r hr := absurd hr List.not_mem_nil

/-- What a transaction knows does not depend on its own phase. -/
theorem missed_setPhase_iff {ids : List RowId} {ph : Phase α} :
    Missed key records (s.setPhase p ph) p ids ↔ Missed key records s p ids := by
  constructor
  · exact fun h => ⟨(setPhase_not s p ph).symm.trans h.committed, h.rows, h.compatible, h.unseen⟩
  · exact fun h => ⟨(setPhase_not s p ph).trans h.committed, h.rows, h.compatible, h.unseen⟩

theorem knows_setPhase_iff {ids : List RowId} {ph : Phase α} :
    Knows key records (s.setPhase p ph) p ids ↔ Knows key records s p ids :=
  or_congr Iff.rfl missed_setPhase_iff

theorem phaseOk_setPhase {ph ph' : Phase α} (h : PhaseOk key records s p ph') :
    PhaseOk key records (s.setPhase p ph) p ph' := by
  cases ph' with
  | idle => trivial
  | deleting seen => exact knows_setPhase_iff.2 h
  | deleted marked => exact knows_setPhase_iff.2 h
  | inserting marked => exact knows_setPhase_iff.2 h
  | inserted marked new =>
      exact ⟨knows_setPhase_iff.2 h.1, h.2.1, fun hm => h.2.2 (missed_setPhase_iff.1 hm)⟩
  | committed => trivial
  | failed =>
      have hnot := setPhase_not s p ph
      simp only [PhaseOk, hnot]
      exact h

/-- While the other transaction has not committed, an open one knows all rows, and goes on knowing
them when the other one moves. -/
theorem phaseOk_other {ph ph' : Phase α} (hq : s.phase p ≠ .committed) (hph : ph ≠ .committed)
    (h : PhaseOk key records s (!p) ph')
    (hfail : ph' = .failed → ph ≠ .idle ∧ ph ≠ .failed) :
    PhaseOk key records (s.setPhase p ph) (!p) ph' := by
  have hmissed : ∀ ids, ¬ Missed key records s (!p) ids := by
    intro ids hm
    apply hq
    rw [← hm.committed, Bool.not_not]
  have hknows : ∀ ids, Knows key records s (!p) ids →
      Knows key records (s.setPhase p ph) (!p) ids :=
    fun ids hk => Or.inl (hk.resolve_right (hmissed ids))
  cases ph' with
  | idle => trivial
  | deleting seen => exact hknows _ h
  | deleted marked => exact hknows _ h
  | inserting marked => exact hknows _ h
  | inserted marked new =>
      refine ⟨hknows _ h.1, h.2.1, fun hm => absurd ?_ hph⟩
      rw [← hm.committed, Bool.not_not, setPhase_self]
  | committed => trivial
  | failed =>
      simp only [PhaseOk, Bool.not_not, setPhase_self]
      exact hfail rfl

/-- A step of a transaction that does not commit. -/
theorem Inv.setPhase (h : Inv key records s) {ph : Phase α} (hold : s.phase p ≠ .committed)
    (hph : ph ≠ .committed) (hok : PhaseOk key records s p ph)
    (hfail : s.phase (!p) = .failed → ph ≠ .idle ∧ ph ≠ .failed)
    (hopen : ph.isOpen = true → (s.phase (!p)).isOpen = true → Compatible key records)
    (hinserted : ph.isInserted = true → (s.phase (!p)).isInserted = true → ∃ q, records q = [])
    (hids : ∀ i ∈ ph.ids, ∀ q, i.1 = some q → s.phase q = .committed)
    (hnew : ∀ r ∈ ph.new, r.1.1 = some p) : Inv key records (s.setPhase p ph) := by
  have hcommitted : ∀ q, (s.setPhase p ph).phase q = .committed ↔ s.phase q = .committed := by
    intro q
    rw [setPhase_phase]
    split_ifs with hq
    · rw [hq]
      exact iff_of_false hph hold
    · exact Iff.rfl
  refine ⟨?_, fun q => ?_, fun hboth => ?_, fun hboth => ?_, ?_, fun q => ?_, fun q => ?_⟩
  · simp only [ne_eq, hcommitted]
    exact h.content
  · by_cases hq : q = p
    · subst hq
      rw [setPhase_self]
      exact phaseOk_setPhase hok
    · obtain rfl := Bool.eq_not_of_ne hq
      rw [setPhase_not]
      exact phaseOk_other hold hph (h.phases _) hfail
  · apply hopen
    · rw [← setPhase_self s p ph]
      exact hboth p
    · rw [← setPhase_not s p ph]
      exact hboth (!p)
  · apply hinserted
    · rw [← setPhase_self s p ph]
      exact hboth p
    · rw [← setPhase_not s p ph]
      exact hboth (!p)
  · simp only [hcommitted]
    exact h.rows_written
  · simp only [hcommitted]
    rw [setPhase_phase]
    split_ifs with hq
    · exact hids
    · exact h.ids_written q
  · rw [setPhase_phase]
    split_ifs with hq
    · rw [hq]
      exact hnew
    · exact h.new_written q

theorem Compatible.shared (h : Compatible key records) (p : Bool) :
    (∃ a ∈ records p, ∃ b ∈ records (!p), key b = key a) ∨ ∃ q, records q = [] := by
  refine h.imp_left (fun ⟨a, ha, b, hb, hab⟩ => ?_)
  cases p with
  | true => exact ⟨a, ha, b, hb, hab.symm⟩
  | false => exact ⟨b, hb, a, ha, hab⟩

/-- The rows after a commit, by what the transaction knows. -/
theorem replace_rows (h : Inv key records s) {marked : List RowId} {new : List (RowId × α)}
    (hp : s.phase p = .inserted marked new) :
    (s.replace marked new).rows = new ∨
      s.phase (!p) = .committed ∧ ∃ q, (s.replace marked new).rows.map Prod.snd = records q ∧
        (q = p ∨ q = !p) := by
  have hok := h.phases p
  rw [hp] at hok
  obtain ⟨hall | hmissed, hnew, hempty⟩ := hok
  · refine Or.inl ?_
    have hfilter : s.rows.filter (fun r => r.1 ∉ marked) = [] := by
      rw [List.filter_eq_nil_iff]
      intro r hr
      simp [hall r hr]
    rw [State.replace, hfilter, List.nil_append]
  · refine Or.inr ⟨hmissed.committed, ?_⟩
    have hfilter : s.rows.filter (fun r => r.1 ∉ marked) = s.rows := by
      rw [List.filter_eq_self]
      intro r hr
      simp [hmissed.unseen r hr]
    simp only [State.replace, hfilter, List.map_append, hmissed.rows, hnew]
    obtain ⟨q, hq⟩ := hempty hmissed
    by_cases hqp : q = p
    · rw [← hqp, hq, List.append_nil]
      exact ⟨!q, rfl, Or.inr rfl⟩
    · rw [← Bool.eq_not_of_ne hqp, hq, List.nil_append]
      exact ⟨p, rfl, Or.inl rfl⟩

/-- A step of an open transaction that stays open, with rows it knew before. -/
theorem Inv.stayOpen (h : Inv key records s) {ph : Phase α} (hold : (s.phase p).isOpen = true)
    (hph : ph.isOpen = true) (hok : PhaseOk key records s p ph)
    (hinserted : ph.isInserted = true → (s.phase (!p)).isInserted = true → ∃ q, records q = [])
    (hids : ∀ i ∈ ph.ids, i ∈ (s.phase p).ids) (hnew : ∀ r ∈ ph.new, r.1.1 = some p) :
    Inv key records (s.setPhase p ph) :=
  h.setPhase (ne_of_isOpen hold).1 (ne_of_isOpen hph).1 hok (fun _ => (ne_of_isOpen hph).2)
    (fun _ hother => h.both_open (forall_run hold hother)) hinserted
    (fun i hi => h.ids_written p i (hids i hi)) hnew

/-- A transaction that fails leaves another one that has begun and has not failed. -/
theorem Inv.fail (h : Inv key records s) (hold : (s.phase p).isOpen = true)
    (hother : s.phase (!p) ≠ .idle ∧ s.phase (!p) ≠ .failed) :
    Inv key records (s.setPhase p .failed) := by
  refine h.setPhase (ne_of_isOpen hold).1 ?_ hother (fun hf => absurd hf hother.2) ?_ ?_ ?_ ?_
  · exact nofun
  · exact nofun
  · exact nofun
  · exact fun i hi => absurd hi List.not_mem_nil
  · exact fun r hr => absurd hr List.not_mem_nil

theorem inv_finishInsert (h : Inv key records s) {marked : List RowId}
    (hp : s.phase p = .inserting marked) (hc : ¬ Conflicts key records s p marked) :
    Inv key records (s.setPhase p (.inserted marked (rowsOf (some p) (records p)))) := by
  have hok := h.phases p
  rw [hp] at hok
  have hopen : (s.phase p).isOpen = true := by
    rw [hp]
    rfl
  refine h.stayOpen hopen rfl ⟨hok, rowsOf_map _ _, fun hmissed => ?_⟩ (fun _ hother => ?_)
    (fun i hi => ?_) (fun r hr => rowsOf_writer hr)
  · -- A shared key is that of a row which is committed and not deleted here.
    refine (hmissed.compatible.shared p).resolve_left (fun ⟨a, ha, b, hb, hab⟩ => hc ?_)
    rw [← hmissed.rows] at hb
    obtain ⟨r, hr, rfl⟩ := List.mem_map.1 hb
    exact ⟨a, ha, Or.inl ⟨r, hr, hmissed.unseen r hr, hab⟩⟩
  · have hcompatible := h.both_open (forall_run hopen (isOpen_of_isInserted hother))
    have hotherOk := h.phases (!p)
    revert hotherOk hother
    cases hph : s.phase (!p) with
    | inserted m n =>
        intro _ hotherOk
        refine (hcompatible.shared p).resolve_left (fun ⟨a, ha, b, hb, hab⟩ => hc ?_)
        rw [← hotherOk.2.1] at hb
        obtain ⟨r, hr, rfl⟩ := List.mem_map.1 hb
        refine ⟨a, ha, Or.inr ⟨r, ?_, hab⟩⟩
        rw [hph]
        exact hr
    | _ => exact fun hother => by cases hother
  · rw [hp]
    exact hi

/-- After a commit, an open transaction knows none of the rows, which are those of the other. -/
theorem missed_of_commit (h : Inv key records s) {marked : List RowId} {new : List (RowId × α)}
    (hp : s.phase p = .inserted marked new) (hother : (s.phase (!p)).isOpen = true) :
    Missed key records ((s.replace marked new).setPhase p .committed) (!p)
      (s.phase (!p)).ids := by
  have hopen : (s.phase p).isOpen = true := by
    rw [hp]
    rfl
  have hrows : (s.replace marked new).rows = new := by
    refine (replace_rows h hp).resolve_right (fun hmiss => ?_)
    exact absurd hmiss.1 (ne_of_isOpen hother).1
  have hok := h.phases p
  have hwritten := h.new_written p
  rw [hp] at hok hwritten
  refine ⟨?_, ?_, h.both_open (forall_run hopen hother), fun r hr hid => ?_⟩
  · rw [Bool.not_not, setPhase_self]
  · rw [Bool.not_not]
    exact (congrArg (List.map Prod.snd) hrows).trans hok.2.1
  · have hr : r ∈ (s.replace marked new).rows := hr
    rw [hrows] at hr
    exact (ne_of_isOpen hopen).1 (h.ids_written (!p) r.1 hid p (hwritten r hr))

theorem phaseOk_of_commit (h : Inv key records s) {marked : List RowId}
    {new : List (RowId × α)} (hp : s.phase p = .inserted marked new) :
    PhaseOk key records ((s.replace marked new).setPhase p .committed) (!p) (s.phase (!p)) := by
  have hmissed := missed_of_commit h hp
  cases hother : s.phase (!p) with
  | idle => trivial
  | committed => trivial
  | failed =>
      simp only [PhaseOk, Bool.not_not, setPhase_self]
      exact ⟨nofun, nofun⟩
  | deleting seen =>
      rw [hother] at hmissed
      exact Or.inr (hmissed rfl)
  | deleted marked =>
      rw [hother] at hmissed
      exact Or.inr (hmissed rfl)
  | inserting marked =>
      rw [hother] at hmissed
      exact Or.inr (hmissed rfl)
  | inserted marked' new' =>
      have hok := h.phases (!p)
      rw [hother] at hmissed hok
      refine ⟨Or.inr (hmissed rfl), hok.2.1, fun _ => h.both_inserted (forall_run (p := p) ?_ ?_)⟩
      · rw [hp]
        rfl
      · rw [hother]
        rfl

theorem Inv.commit (h : Inv key records s) {marked : List RowId} {new : List (RowId × α)}
    (hp : s.phase p = .inserted marked new) :
    Inv key records ((s.replace marked new).setPhase p .committed) := by
  have hok := h.phases p
  have hwritten := h.new_written p
  rw [hp] at hok hwritten
  have hself := setPhase_self (s.replace marked new) p .committed
  have hnot : ((s.replace marked new).setPhase p .committed).phase (!p) = s.phase (!p) :=
    setPhase_not (s.replace marked new) p .committed
  have hkept : ∀ q, s.phase q = .committed →
      ((s.replace marked new).setPhase p .committed).phase q = .committed := by
    intro q hq
    rw [setPhase_phase]
    split_ifs
    · rfl
    · exact hq
  refine ⟨Or.inr ?_, forall_run (p := p) ?_ ?_, fun hboth => ?_, fun hboth => ?_, ?_,
    fun q => ?_, fun q => ?_⟩
  · rcases replace_rows h hp with hrows | ⟨hother, q, hrows, hq⟩
    · exact ⟨p, hself, (congrArg (List.map Prod.snd) hrows).trans hok.2.1⟩
    · refine ⟨q, ?_, hrows⟩
      rcases hq with rfl | rfl
      · exact hself
      · exact hnot.trans hother
  · rw [hself]
    trivial
  · rw [hnot]
    exact phaseOk_of_commit h hp
  · exact absurd hself (ne_of_isOpen (hboth p)).1
  · exact absurd hself (ne_of_isOpen (isOpen_of_isInserted (hboth p))).1
  · intro r hr q hq
    rcases List.mem_append.1 hr with hr | hr
    · exact hkept q (h.rows_written r (List.mem_of_mem_filter hr) q hq)
    · rw [hwritten r hr] at hq
      rw [← Option.some.inj hq]
      exact hself
  · intro i hi q' hq'
    apply hkept
    rw [setPhase_phase] at hi
    split_ifs at hi
    · exact absurd hi List.not_mem_nil
    · exact h.ids_written q i hi q' hq'
  · intro r hr
    rw [setPhase_phase] at hr
    split_ifs at hr
    · exact absurd hr List.not_mem_nil
    · exact h.new_written q r hr

theorem isEnded_iff {ph : Phase α} :
    ph.isEnded = true ↔ ph = .committed ∨ ph = .failed := by
  cases ph <;> simp [Phase.isEnded]

/-- Where both transactions have ended, the table holds the records of one of them. -/
theorem Inv.records_of_ended (h : Inv key records s)
    (hp : s.phase p = .committed ∨ s.phase p = .failed)
    (hnot : s.phase (!p) = .committed ∨ s.phase (!p) = .failed ∨ s.phase (!p) = .idle) :
    ∃ q, s.rows.map Prod.snd = records q := by
  refine h.content.elim (fun hnone => ?_) (fun ⟨q, _, hq⟩ => ⟨q, hq⟩)
  have hfailed := h.phases p
  rw [hp.resolve_left (hnone p)] at hfailed
  rcases hnot.resolve_left (hnone (!p)) with hf | hi
  · exact absurd hf hfailed.2
  · exact absurd hi hfailed.1

end Lemmas

section Steps

variable {α κ : Type} [DecidableEq κ] {key : α → κ} {records : Bool → List α} {s s' : State α}
  {p : Bool}

theorem beginDelete_cases (he : next key records s (.beginDelete p) = some s') :
    s.phase p = .idle ∧ s' = s.setPhase p (.deleting (s.rows.map Prod.fst)) := by
  simp only [next] at he
  split at he
  · next hp => exact ⟨hp, (Option.some.inj he).symm⟩
  · cases he

theorem finishDelete_cases (he : next key records s (.finishDelete p) = some s') :
    ∃ seen, s.phase p = .deleting seen ∧
      s' = s.setPhase p (.deleted (seen.filter (fun i => i ∈ s.rows.map Prod.fst))) := by
  simp only [next] at he
  split at he
  · next seen hp =>
    split_ifs at he
    exact ⟨seen, hp, (Option.some.inj he).symm⟩
  · cases he

theorem beginInsert_cases (he : next key records s (.beginInsert p) = some s') :
    ∃ marked, s.phase p = .deleted marked ∧
      (records p = [] ∧ s' = s.setPhase p (.inserted marked []) ∨
        s' = s.setPhase p (.inserting marked)) := by
  simp only [next] at he
  split at he
  · next marked hp =>
    refine ⟨marked, hp, ?_⟩
    split_ifs at he with hempty
    · exact Or.inl ⟨List.isEmpty_iff.1 hempty, (Option.some.inj he).symm⟩
    · exact Or.inr (Option.some.inj he).symm
  · cases he

theorem finishInsert_cases (he : next key records s (.finishInsert p) = some s') :
    ∃ marked, s.phase p = .inserting marked ∧ ¬ Conflicts key records s p marked ∧
      s' = s.setPhase p (.inserted marked (rowsOf (some p) (records p))) := by
  simp only [next] at he
  split at he
  · next marked hp =>
    split_ifs at he with hc
    exact ⟨marked, hp, hc, (Option.some.inj he).symm⟩
  · cases he

theorem raiseInsert_cases (he : next key records s (.raiseInsert p) = some s') :
    ∃ marked, s.phase p = .inserting marked ∧ (∃ r ∈ s.rows, r.1 ∉ marked) ∧
      s' = s.setPhase p .failed := by
  simp only [next] at he
  split at he
  · next marked hp =>
    split_ifs at he with hrow
    exact ⟨marked, hp, hrow, (Option.some.inj he).symm⟩
  · cases he

theorem commit_cases (he : next key records s (.commit p) = some s') :
    ∃ marked new, s.phase p = .inserted marked new ∧
      s' = (s.replace marked new).setPhase p .committed := by
  simp only [next] at he
  split at he
  · next marked new hp => exact ⟨marked, new, hp, (Option.some.inj he).symm⟩
  · cases he

theorem deadlock_cases (he : next key records s (.deadlock p) = some s') :
    (s.phase p).isUnfinished = true ∧ (s.phase (!p)).isUnfinished = true ∧
      s' = s.setPhase p .failed := by
  simp only [next] at he
  split_ifs at he with hboth
  exact ⟨hboth.1, hboth.2, (Option.some.inj he).symm⟩

theorem phase_of_setPhase {u : State α} {ph : Phase α} (hp : s.phase p = ph)
    (hph : ph ≠ .committed) (hu : u.phase = s.phase) (ph' : Phase α) :
    s.phase p ≠ .committed ∧ ∀ q, q ≠ p → (u.setPhase p ph').phase q = s.phase q := by
  constructor
  · rwa [hp]
  · intro q hq
    rw [setPhase_phase, if_neg hq, hu]

/-- An event changes the phase of its own transaction, which has not committed. -/
theorem next_phase {e : Event} (he : next key records s e = some s') :
    s.phase e.run ≠ .committed ∧ ∀ q, q ≠ e.run → s'.phase q = s.phase q := by
  cases e with
  | beginDelete p =>
      obtain ⟨hp, rfl⟩ := beginDelete_cases he
      exact phase_of_setPhase hp nofun rfl _
  | finishDelete p =>
      obtain ⟨seen, hp, rfl⟩ := finishDelete_cases he
      exact phase_of_setPhase hp nofun rfl _
  | beginInsert p =>
      obtain ⟨marked, hp, ⟨_, rfl⟩ | rfl⟩ := beginInsert_cases he
      · exact phase_of_setPhase hp nofun rfl _
      · exact phase_of_setPhase hp nofun rfl _
  | finishInsert p =>
      obtain ⟨marked, hp, _, rfl⟩ := finishInsert_cases he
      exact phase_of_setPhase hp nofun rfl _
  | raiseInsert p =>
      obtain ⟨marked, hp, _, rfl⟩ := raiseInsert_cases he
      exact phase_of_setPhase hp nofun rfl _
  | commit p =>
      obtain ⟨marked, new, hp, rfl⟩ := commit_cases he
      exact phase_of_setPhase hp nofun rfl _
  | deadlock p =>
      obtain ⟨hp, _, rfl⟩ := deadlock_cases he
      exact phase_of_setPhase rfl (ne_of_isOpen (isOpen_of_isUnfinished hp)).1 rfl _

theorem inv_step {e : Event} (h : Inv key records s) (hsep : Separate key records s e)
    (he : next key records s e = some s') : Inv key records s' := by
  cases e with
  | beginDelete p =>
      obtain ⟨hp, rfl⟩ := beginDelete_cases he
      refine h.setPhase ?_ ?_ (Or.inl (fun r hr => List.mem_map_of_mem hr))
        (fun _ => ⟨?_, ?_⟩) (fun _ hother => ?_) ?_ (fun i hi q hq => ?_) ?_
      · rw [hp]
        exact nofun
      · exact nofun
      · exact nofun
      · exact nofun
      · exact hsep.resolve_left (fun hclosed => by rw [hclosed] at hother; cases hother)
      · exact nofun
      · obtain ⟨r, hr, rfl⟩ := List.mem_map.1 hi
        exact h.rows_written r hr q hq
      · exact fun r hr => absurd hr List.not_mem_nil
  | finishDelete p =>
      obtain ⟨seen, hp, rfl⟩ := finishDelete_cases he
      have hok := h.phases p
      rw [hp] at hok
      refine h.stayOpen (by rw [hp]; rfl) rfl (Or.imp (fun hall r hr => ?_) (fun hm => ?_) hok)
        ?_ (fun i hi => ?_) (fun r hr => absurd hr List.not_mem_nil)
      · exact List.mem_filter.2 ⟨hall r hr, decide_eq_true (List.mem_map_of_mem hr)⟩
      · exact ⟨hm.committed, hm.rows, hm.compatible,
          fun r hr hid => hm.unseen r hr (List.mem_of_mem_filter hid)⟩
      · exact nofun
      · rw [hp]
        exact List.mem_of_mem_filter hi
  | beginInsert p =>
      obtain ⟨marked, hp, hs'⟩ := beginInsert_cases he
      have hok := h.phases p
      rw [hp] at hok
      have hids : ∀ i ∈ marked, i ∈ (s.phase p).ids := by
        rw [hp]
        exact fun _ hi => hi
      rcases hs' with ⟨hempty, rfl⟩ | rfl
      · exact h.stayOpen (by rw [hp]; rfl) rfl ⟨hok, hempty.symm, fun _ => ⟨p, hempty⟩⟩
          (fun _ _ => ⟨p, hempty⟩) hids (fun r hr => absurd hr List.not_mem_nil)
      · exact h.stayOpen (by rw [hp]; rfl) rfl hok (fun hi => by cases hi) hids
          (fun r hr => absurd hr List.not_mem_nil)
  | finishInsert p =>
      obtain ⟨marked, hp, hc, rfl⟩ := finishInsert_cases he
      exact inv_finishInsert h hp hc
  | raiseInsert p =>
      obtain ⟨marked, hp, ⟨r, hr, hunmarked⟩, rfl⟩ := raiseInsert_cases he
      have hok := h.phases p
      rw [hp] at hok
      have hmissed := hok.resolve_left (fun hall => hunmarked (hall r hr))
      apply h.fail (by rw [hp]; rfl)
      rw [hmissed.committed]
      exact ⟨nofun, nofun⟩
  | commit p =>
      obtain ⟨marked, new, hp, rfl⟩ := commit_cases he
      exact h.commit hp
  | deadlock p =>
      obtain ⟨hp, hother, rfl⟩ := deadlock_cases he
      exact h.fail (isOpen_of_isUnfinished hp) (ne_of_isOpen (isOpen_of_isUnfinished hother)).2

end Steps

end ReadCommitted

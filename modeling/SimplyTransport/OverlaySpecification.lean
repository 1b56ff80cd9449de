import SimplyTransport.OverlayOrder

/-!
# What the overlay of a cell is

The rows of a trip decide the overlay of a cell by three levels: a newest row of the very cell, a
latest row before it, a soonest row after it. On the last two levels a row that is not skipped is
preferred.
-/

namespace SimplyTransport
open Selection

def Newest (P : RTStopTimeModel → Prop) (r : RTStopTimeModel) : Prop :=
  P r ∧ ∀ b, P b → b.createdAt ≤ r.createdAt

/-- A row that satisfies `P` with the greatest sequence, and a newest one there. -/
def Latest (P : RTStopTimeModel → Prop) (r : RTStopTimeModel) : Prop :=
  P r ∧ ∀ b, P b → b.stopSequence < r.stopSequence ∨
    b.stopSequence = r.stopSequence ∧ b.createdAt ≤ r.createdAt

def Soonest (P : RTStopTimeModel → Prop) (r : RTStopTimeModel) : Prop :=
  P r ∧ ∀ b, P b → r.stopSequence < b.stopSequence ∨
    b.stopSequence = r.stopSequence ∧ b.createdAt ≤ r.createdAt

/-- What `C` picks among the rows that are not skipped, if any, else among the skipped ones. -/
def AmongNotSkipped (C : (RTStopTimeModel → Prop) → RTStopTimeModel → Prop)
    (P : RTStopTimeModel → Prop) (r : RTStopTimeModel) : Prop :=
  ((∃ b, P b ∧ isNotSkipped b) → C (fun b => P b ∧ isNotSkipped b) r) ∧
    ((¬ ∃ b, P b ∧ isNotSkipped b) → C (fun b => P b ∧ ¬ isNotSkipped b) r)

/-- The specification of the overlay `o` that `rows` give to the cell of `tripId` at `stopId` and
`sequence`. -/
structure OverlaySpec (rows : List RTStopTimeModel) (tripId stopId : String) (sequence : ℤ)
    (o : Option RTStopTimeOverlay) : Prop where
  exact_iff : (∃ r, o = some ⟨r, true⟩) ↔ ∃ r ∈ rows, r.triple = (tripId, stopId, sequence)
  exact_newest : ∀ r, o = some ⟨r, true⟩ →
    Newest (fun b => b ∈ rows ∧ b.triple = (tripId, stopId, sequence)) r
  predecessor : ∀ r, o = some ⟨r, false⟩ →
    (∃ b ∈ rows, b.tripId = tripId ∧ b.stopSequence ≤ sequence) →
    AmongNotSkipped Latest
      (fun b => b ∈ rows ∧ b.tripId = tripId ∧ b.stopSequence ≤ sequence) r
  successor : ∀ r, o = some ⟨r, false⟩ →
    (¬ ∃ b ∈ rows, b.tripId = tripId ∧ b.stopSequence ≤ sequence) →
    AmongNotSkipped Soonest
      (fun b => b ∈ rows ∧ b.tripId = tripId ∧ sequence < b.stopSequence) r
  none_iff : o = none ↔ ¬ ∃ r ∈ rows, r.tripId = tripId
  not_same : ∀ r, o = some ⟨r, false⟩ → ¬ (r.stopId = stopId ∧ r.stopSequence = sequence)

theorem latest_of_greatest {rows : List RTStopTimeModel} {r : RTStopTimeModel}
    (h : Greatest sequenceThenCreated rows r) : Latest (fun b => b ∈ rows) r := by
  refine ⟨h.1, fun b hb => ?_⟩
  have hle := h.2 b hb
  rw [sequenceThenCreated, sequenceThenCreated, Prod.Lex.toLex_le_toLex] at hle
  exact hle

theorem soonest_of_earliest {rows : List RTStopTimeModel} {r : RTStopTimeModel}
    (h : Earliest rows r) : Soonest (fun b => b ∈ rows) r := by
  refine ⟨h.1, fun b hb => ?_⟩
  obtain ⟨hle, hnew⟩ := h.2 b hb
  rcases hle.lt_or_eq with hlt | heq
  · exact Or.inl hlt
  · exact Or.inr ⟨heq.symm, hnew heq.symm⟩

/-- The preference of the code, which looks at all rows where none but skipped ones are left. -/
theorem PreferNotSkipped.among {C : List RTStopTimeModel → RTStopTimeModel → Prop}
    {D : (RTStopTimeModel → Prop) → RTStopTimeModel → Prop} {rows : List RTStopTimeModel}
    {P : RTStopTimeModel → Prop} {r : RTStopTimeModel}
    (hmem : ∀ rows r, C rows r → r ∈ rows) (hex : ∀ rows, rows ≠ [] → ∃ r, C rows r)
    (hC : ∀ rows r, C rows r → D (fun b => b ∈ rows) r)
    (hP : ∀ b, b ∈ rows ↔ P b) (h : PreferNotSkipped C rows r) : AmongNotSkipped D P r := by
  have hfilter : ∀ b, b ∈ rows.filter isNotSkipped ↔ P b ∧ isNotSkipped b := by
    intro b
    rw [List.mem_filter, hP]
  constructor
  · rintro ⟨b, hb⟩
    have hne : rows.filter isNotSkipped ≠ [] := List.ne_nil_of_mem ((hfilter b).2 hb)
    rcases h with h | ⟨hnone, _⟩
    · rw [← funext fun b => propext (hfilter b)]
      exact hC _ r h
    · obtain ⟨a, ha⟩ := hex _ hne
      exact absurd ha (hnone a)
  · intro hnone
    rcases h with h | ⟨_, h⟩
    · exact absurd ⟨r, (hfilter r).1 (hmem _ r h)⟩ hnone
    · have hskipped : ∀ b, b ∈ rows ↔ P b ∧ ¬ isNotSkipped b := by
        intro b
        rw [hP]
        exact ⟨fun hb => ⟨hb, fun hskip => hnone ⟨b, hb, hskip⟩⟩, fun hb => hb.1⟩
      rw [← funext fun b => propext (hskipped b)]
      exact hC _ r h

theorem exists_earliest {rows : List RTStopTimeModel} (h : rows ≠ []) : ∃ r, Earliest rows r := by
  obtain ⟨r, hr⟩ := exists_pickEarliest h
  exact ⟨r, decides_earliest.sound rows r hr⟩

theorem exists_greatest {rows : List RTStopTimeModel} (h : rows ≠ []) :
    ∃ r, Greatest sequenceThenCreated rows r := by
  obtain ⟨r, hr⟩ := exists_argmax sequenceThenCreated h
  exact ⟨r, (decides_argmax sequenceThenCreated).sound rows r hr⟩

section Cell

variable {rows : List RTStopTimeModel} {stopId : String} {sequence : ℤ}

theorem resolveCell_of_exact {row : RTStopTimeModel}
    (h : (exactRows rows stopId sequence).argmax (fun r => r.createdAt) = some row) :
    resolveCell rows stopId sequence = some ⟨row, true⟩ := by
  rw [resolveCell, h]

theorem resolveCell_of_not_exact (h : exactRows rows stopId sequence = []) :
    resolveCell rows stopId sequence =
      (carryForward rows sequence).map (fun row => ⟨row, false⟩) := by
  rw [resolveCell, h, List.argmax_nil]

theorem mem_exactRows {r : RTStopTimeModel} :
    r ∈ exactRows rows stopId sequence ↔
      r ∈ rows ∧ r.stopId = stopId ∧ r.stopSequence = sequence := by
  rw [exactRows, List.mem_filter, decide_eq_true_eq]

theorem newest_of_resolveCell {r : RTStopTimeModel}
    (h : resolveCell rows stopId sequence = some ⟨r, true⟩) :
    Newest (fun b => b ∈ rows ∧ b.stopId = stopId ∧ b.stopSequence = sequence) r := by
  by_cases hnil : exactRows rows stopId sequence = []
  · rw [resolveCell_of_not_exact hnil] at h
    obtain ⟨row, _, hrow⟩ := Option.map_eq_some_iff.1 h
    cases hrow
  · obtain ⟨row, hrow⟩ := exists_argmax (fun r : RTStopTimeModel => r.createdAt) hnil
    rw [resolveCell_of_exact hrow] at h
    cases h
    obtain ⟨hmem, hnew⟩ := (decides_argmax _).sound _ _ hrow
    exact ⟨mem_exactRows.1 hmem, fun b hb => hnew b (mem_exactRows.2 hb)⟩

theorem exactRows_eq_nil_of_resolveCell {r : RTStopTimeModel}
    (h : resolveCell rows stopId sequence = some ⟨r, false⟩) :
    exactRows rows stopId sequence = [] := by
  by_contra hnil
  obtain ⟨row, hrow⟩ := exists_argmax (fun r : RTStopTimeModel => r.createdAt) hnil
  rw [resolveCell_of_exact hrow] at h
  cases h

theorem carryForward_of_resolveCell {r : RTStopTimeModel}
    (h : resolveCell rows stopId sequence = some ⟨r, false⟩) :
    CarryForward rows sequence r := by
  rw [resolveCell_of_not_exact (exactRows_eq_nil_of_resolveCell h)] at h
  obtain ⟨row, hrow, heq⟩ := Option.map_eq_some_iff.1 h
  cases heq
  exact (decides_carryForward sequence).sound rows r hrow

end Cell

theorem exists_preferNotSkipped {C : List RTStopTimeModel → RTStopTimeModel → Prop}
    (hex : ∀ rows, rows ≠ [] → ∃ r, C rows r) {rows : List RTStopTimeModel} (h : rows ≠ []) :
    ∃ r, PreferNotSkipped C rows r := by
  by_cases hnone : ∃ b, C (rows.filter isNotSkipped) b
  · obtain ⟨b, hb⟩ := hnone
    exact ⟨b, Or.inl hb⟩
  · obtain ⟨r, hr⟩ := hex rows h
    exact ⟨r, Or.inr ⟨fun b hb => hnone ⟨b, hb⟩, hr⟩⟩

/-- A row carried forward to a cell with earlier rows is a latest of them. -/
theorem CarryForward.latest {rows : List RTStopTimeModel} {sequence : ℤ} {r : RTStopTimeModel}
    (h : CarryForward rows sequence r) (hpred : ∃ b ∈ rows, b.stopSequence ≤ sequence) :
    AmongNotSkipped Latest (fun b => b ∈ rows ∧ b.stopSequence ≤ sequence) r := by
  have hmem : ∀ b, b ∈ predecessors rows sequence ↔ b ∈ rows ∧ b.stopSequence ≤ sequence := by
    intro b
    rw [predecessors, List.mem_filter, decide_eq_true_eq]
  obtain ⟨b, hb⟩ := hpred
  obtain ⟨a, ha⟩ := exists_preferNotSkipped (fun _ => exists_greatest)
    (List.ne_nil_of_mem ((hmem b).2 hb))
  rcases h with h | ⟨hnone, _⟩
  · exact h.among (fun _ _ hr => hr.1) (fun _ => exists_greatest)
      (fun _ _ => latest_of_greatest) hmem
  · exact absurd ha (hnone a)

/-- Without an earlier row it is a soonest of the later ones. -/
theorem CarryForward.soonest {rows : List RTStopTimeModel} {sequence : ℤ} {r : RTStopTimeModel}
    (h : CarryForward rows sequence r) (hpred : ¬ ∃ b ∈ rows, b.stopSequence ≤ sequence) :
    AmongNotSkipped Soonest (fun b => b ∈ rows ∧ sequence < b.stopSequence) r := by
  have hmem : ∀ b, b ∈ successors rows sequence ↔ b ∈ rows ∧ sequence < b.stopSequence := by
    intro b
    rw [successors, List.mem_filter, decide_eq_true_eq]
    refine and_congr_right fun hb => ⟨fun hle => ?_, fun hlt => hlt.le⟩
    by_contra hlt
    exact hpred ⟨b, hb, not_lt.1 hlt⟩
  rcases h with h | ⟨_, h⟩
  · have hr : r ∈ predecessors rows sequence := by
      rcases h with h | ⟨_, h⟩
      · exact List.mem_of_mem_filter h.1
      · exact h.1
    rw [predecessors, List.mem_filter, decide_eq_true_eq] at hr
    exact absurd ⟨r, hr⟩ hpred
  · exact h.among (fun _ _ hr => hr.1) (fun _ => exists_earliest)
      (fun _ _ => soonest_of_earliest) hmem

/-- The overlay of a cell meets its specification, for every list of rows in every order. -/
theorem overlay_meets_spec (rows : List RTStopTimeModel) (tripId stopId : String)
    (sequence : ℤ) :
    OverlaySpec rows tripId stopId sequence
      (overlayForStaticScheduleRow tripId stopId sequence
        (OrderedDict.newestBy RTStopTimeModel.triple (fun r => r.createdAt) rows)
        ((OrderedDict.groupBy (fun r => r.tripId) rows).getD tripId [])) := by
  rw [overlay_eq_resolveCell]
  have hmem : ∀ b, b ∈ rows.filter (fun r => r.tripId = tripId) ↔
      b ∈ rows ∧ b.tripId = tripId := by
    intro b
    rw [List.mem_filter, decide_eq_true_eq]
  have htriple : ∀ b, (b ∈ rows.filter (fun r => r.tripId = tripId) ∧ b.stopId = stopId ∧
      b.stopSequence = sequence) ↔ b ∈ rows ∧ b.triple = (tripId, stopId, sequence) := by
    intro b
    rw [hmem, and_assoc]
    simp only [RTStopTimeModel.triple, Prod.mk.injEq]
  have hpred : (∃ b ∈ rows.filter (fun r => r.tripId = tripId), b.stopSequence ≤ sequence) ↔
      ∃ b ∈ rows, b.tripId = tripId ∧ b.stopSequence ≤ sequence := by
    simp only [hmem, and_assoc]
  generalize rows.filter (fun r => r.tripId = tripId) = tripRows at *
  constructor
  · constructor
    · rintro ⟨r, hr⟩
      exact ⟨r, (htriple r).1 (newest_of_resolveCell hr).1⟩
    · rintro ⟨b, hb⟩
      have hne : exactRows tripRows stopId sequence ≠ [] :=
        List.ne_nil_of_mem (mem_exactRows.2 ((htriple b).2 hb))
      obtain ⟨r, hr⟩ := exists_argmax (fun r : RTStopTimeModel => r.createdAt) hne
      exact ⟨r, resolveCell_of_exact hr⟩
  · intro r hr
    rw [← funext fun b => propext (htriple b)]
    exact newest_of_resolveCell hr
  · intro r hr hex
    have h := (carryForward_of_resolveCell hr).latest (hpred.2 hex)
    simp only [hmem, and_assoc] at h
    exact h
  · intro r hr hnone
    have h := (carryForward_of_resolveCell hr).soonest (mt hpred.1 hnone)
    simp only [hmem, and_assoc] at h
    exact h
  · rw [resolveCell_eq_none_iff, List.eq_nil_iff_forall_not_mem]
    simp only [hmem, not_exists]
  · intro r hr hsame
    have hmemr := (carryForward_of_resolveCell hr).mem
    have hexact := mem_exactRows.2 ⟨hmemr, hsame⟩
    rw [exactRows_eq_nil_of_resolveCell hr] at hexact
    exact List.not_mem_nil hexact

end SimplyTransport

import SimplyTransport.ScheduleRepo

/-!
# Windows of the day that may go past midnight

A window is a directed arc of the clock. Its times are those whose distance from the start, going
forward, is at most the distance of the end.
-/

namespace SimplyTransport

def Time.since (t s : Time) : ℤ := ((t.micros : ℤ) - s.micros) % dayMicros

def Time.advance (s : Time) (n : ℤ) : Time :=
  ⟨((s.micros + n) % dayMicros).toNat, by unfold dayMicros; omega⟩

section Arcs

variable {s t u : Time}

theorem since_nonneg : 0 ≤ t.since s := Int.emod_nonneg _ (by decide)

theorem since_advance (s : Time) {n : ℤ} (h0 : 0 ≤ n) (hn : n < dayMicros) :
    (s.advance n).since s = n := by
  have hs := s.lt_day
  simp only [Time.since, Time.advance]
  unfold dayMicros at hs hn ⊢
  omega

theorem since_eq : t.since s =
    if s ≤ t then (t.micros : ℤ) - s.micros else (t.micros : ℤ) - s.micros + dayMicros := by
  have hs := s.lt_day
  have ht := t.lt_day
  simp only [Time.since, Time.le_iff]
  unfold dayMicros at hs ht ⊢
  split_ifs <;> omega

/-- The query matches the times of the window. -/
theorem arrivalTimeConditions_iff_since (startTime endTime : Time) (st : StopTimeModel) :
    arrivalTimeConditions (some startTime) (some endTime) st = true ↔
      st.arrivalTime.since startTime ≤ endTime.since startTime := by
  have hs := startTime.lt_day
  have he := endTime.lt_day
  have ha := st.arrivalTime.lt_day
  simp only [arrivalTimeConditions, since_eq, ge_iff_le, gt_iff_lt, Time.le_iff, Time.lt_iff]
  split_ifs <;> simp only [decide_eq_true_eq] <;> omega

/-- The times that satisfy `p` lie within `length` microseconds from one of the day. -/
def SpansAtMost (p : Time → Prop) (length : ℤ) : Prop :=
  ∃ s : Time, ∀ t, p t → t.since s ≤ length

/-- A window lies in an arc of a given length exactly where its own length is not greater. -/
theorem spansAtMost_window_iff {length : ℤ} (h : length < dayMicros - 1) :
    SpansAtMost (fun t => t.since s ≤ u.since s) length ↔ u.since s ≤ length := by
  constructor
  · rintro ⟨a, ha⟩
    by_contra hlong
    -- The last time before `a` is not in the window, and the window goes from `s` to `u`.
    have hs := ha s (by simp only [Time.since, sub_self]; exact since_nonneg)
    have hu := ha u le_rfl
    have hlast := mt (ha (a.advance (dayMicros - 1)))
    rw [since_advance a (by decide) (by decide)] at hlast
    have hgap := hlast (by omega)
    have hsd := s.lt_day
    have had := a.lt_day
    have hud := u.lt_day
    simp only [Time.since, Time.advance] at hs hu hgap hlong
    unfold dayMicros at h hs hu hgap hlong hsd had hud
    omega
  · exact fun hu => ⟨s, fun t ht => ht.trans hu⟩

end Arcs

end SimplyTransport

import SimplyTransport.GtfsDataset

/-!
# The year, month and day of a date

A date is its ordinal. Its year is found by the cycles of 400, 100, 4 and 1 years and its month by
the days that pass before each. They give the date back, so the texts of a date and of a time are
read back by the importers.
-/

namespace SimplyTransport

namespace Date

/-- The cycles of the Gregorian calendar; the last day of a cycle of 4 or of 400 years would start
another year of its cycle. -/
def year (d : Date) : ℤ :=
  let n := d.ordinal - 1
  let n400 := n / 146097
  let n100 := n % 146097 / 36524
  let n4 := n % 146097 % 36524 / 1461
  let n1 := n % 146097 % 36524 % 1461 / 365
  if n1 = 4 ∨ n100 = 4 then 400 * n400 + 100 * n100 + 4 * n4 + n1
  else 400 * n400 + 100 * n100 + 4 * n4 + n1 + 1

def dayOfYear (d : Date) : ℤ := d.ordinal - daysBeforeYear d.year

def monthFrom (y n : ℤ) : ℕ → ℤ → ℤ
  | 0, m => m
  | k + 1, m => if n ≤ daysBeforeMonth y (m + 1) then m else monthFrom y n k (m + 1)

def monthOfDay (y n : ℤ) : ℤ := monthFrom y n 11 1

def month (d : Date) : ℤ := monthOfDay d.year d.dayOfYear

def day (d : Date) : ℤ := d.dayOfYear - daysBeforeMonth d.year d.month

theorem isLeap_iff (y : ℤ) : isLeap y = true ↔ y % 4 = 0 ∧ (y % 100 ≠ 0 ∨ y % 400 = 0) :=
  decide_eq_true_iff

def daysInYear (y : ℤ) : ℤ := 365 + if isLeap y then 1 else 0

theorem daysBeforeYear_cycles {a b c d : ℤ} (hb : 0 ≤ b ∧ b ≤ 3) (hc : 0 ≤ c ∧ c ≤ 24)
    (hd : 0 ≤ d ∧ d ≤ 3) : daysBeforeYear (400 * a + 100 * b + 4 * c + d + 1) =
      146097 * a + 36524 * b + 1461 * c + 365 * d := by
  unfold daysBeforeYear
  omega

theorem dayOfYear_bounds (d : Date) : 1 ≤ d.dayOfYear ∧ d.dayOfYear ≤ daysInYear d.year := by
  obtain ⟨ordinal⟩ := d
  have hcommon : ∀ y, 365 ≤ daysInYear y := by
    intro y
    unfold daysInYear
    split_ifs <;> omega
  unfold dayOfYear year
  simp only
  generalize ha : (ordinal - 1) / 146097 = a
  generalize hb : (ordinal - 1) % 146097 / 36524 = b
  generalize hc : (ordinal - 1) % 146097 % 36524 / 1461 = c
  generalize he : (ordinal - 1) % 146097 % 36524 % 1461 / 365 = e
  by_cases hlast : e = 4 ∨ b = 4
  · rw [if_pos hlast]
    by_cases hb4 : b = 4
    · -- the last day of 400 years
      have hyear : 400 * a + 100 * b + 4 * c + e = 400 * a + 100 * 3 + 4 * 24 + 3 + 1 := by omega
      have hleap : isLeap (400 * a + 100 * 3 + 4 * 24 + 3 + 1) = true := by
        rw [isLeap_iff]
        omega
      rw [hyear, daysBeforeYear_cycles (by omega) (by omega) (by omega), daysInYear, if_pos hleap]
      omega
    · -- the last day of 4 years
      have hyear : 400 * a + 100 * b + 4 * c + e = 400 * a + 100 * b + 4 * c + 3 + 1 := by omega
      have hleap : isLeap (400 * a + 100 * b + 4 * c + 3 + 1) = true := by
        rw [isLeap_iff]
        omega
      rw [hyear, daysBeforeYear_cycles (by omega) (by omega) (by omega), daysInYear, if_pos hleap]
      omega
  · rw [if_neg hlast, daysBeforeYear_cycles (by omega) (by omega) (by omega)]
    have h365 := hcommon (400 * a + 100 * b + 4 * c + e + 1)
    omega

theorem monthFrom_spec {y n : ℤ} {k : ℕ} {m : ℤ} (hm : m + k = 12)
    (hn : daysBeforeMonth y m < n) :
    (m ≤ monthFrom y n k m ∧ monthFrom y n k m ≤ 12) ∧
      daysBeforeMonth y (monthFrom y n k m) < n ∧
      (monthFrom y n k m = 12 ∨ n ≤ daysBeforeMonth y (monthFrom y n k m + 1)) := by
  induction k generalizing m with
  | zero =>
      obtain rfl : m = 12 := by simpa using hm
      exact ⟨⟨le_rfl, le_rfl⟩, hn, Or.inl rfl⟩
  | succ k ih =>
      rw [monthFrom]
      by_cases hnext : n ≤ daysBeforeMonth y (m + 1)
      · rw [if_pos hnext]
        exact ⟨⟨le_rfl, by omega⟩, hn, Or.inr hnext⟩
      · rw [if_neg hnext]
        obtain ⟨⟨hlow, hhigh⟩, hspec⟩ := ih (m := m + 1) (by omega) (not_le.1 hnext)
        exact ⟨⟨by omega, hhigh⟩, hspec⟩

theorem daysBeforeMonth_add {y m : ℤ} (hm : 1 ≤ m ∧ m ≤ 11) :
    daysBeforeMonth y (m + 1) = daysBeforeMonth y m + daysInMonth y m := by
  obtain ⟨hlow, hhigh⟩ := hm
  unfold daysBeforeMonth daysInMonth
  interval_cases m <;> cases isLeap y <;> decide

theorem daysInYear_eq (y : ℤ) : daysInYear y = daysBeforeMonth y 12 + daysInMonth y 12 := by
  unfold daysBeforeMonth daysInMonth daysInYear
  cases isLeap y <;> decide

theorem daysBeforeMonth_one (y : ℤ) : daysBeforeMonth y 1 = 0 := by
  simp [daysBeforeMonth]

theorem monthOfDay_spec {y n : ℤ} (hn : 1 ≤ n ∧ n ≤ daysInYear y) :
    (1 ≤ monthOfDay y n ∧ monthOfDay y n ≤ 12) ∧
      1 ≤ n - daysBeforeMonth y (monthOfDay y n) ∧
      n - daysBeforeMonth y (monthOfDay y n) ≤ daysInMonth y (monthOfDay y n) := by
  have hfirst : daysBeforeMonth y 1 < n := by
    rw [daysBeforeMonth_one]
    omega
  obtain ⟨hbounds, hstart, hend⟩ := monthFrom_spec (k := 11) rfl hfirst
  refine ⟨hbounds, Int.sub_pos_of_lt hstart, ?_⟩
  unfold monthOfDay
  generalize monthFrom y n 11 1 = m at hbounds hstart hend ⊢
  rw [daysInYear_eq] at hn
  by_cases hm : m = 12
  · subst hm
    omega
  · have hnext := hend.resolve_left hm
    rw [daysBeforeMonth_add ⟨hbounds.1, by omega⟩] at hnext
    omega

theorem month_day_bounds (d : Date) : (1 ≤ d.month ∧ d.month ≤ 12) ∧
    1 ≤ d.day ∧ d.day ≤ daysInMonth d.year d.month :=
  monthOfDay_spec d.dayOfYear_bounds

/-- The dates of the years 1 to 9999. -/
def InRange (d : Date) : Prop := 1 ≤ d.ordinal ∧ d.ordinal ≤ 3652059

theorem InRange.year_bounds {d : Date} (h : d.InRange) : 1 ≤ d.year ∧ d.year ≤ 9999 := by
  obtain ⟨hlow, hhigh⟩ := h
  unfold year
  simp only
  split_ifs <;> omega

theorem ordinal_eq (d : Date) :
    daysBeforeYear d.year + daysBeforeMonth d.year d.month + d.day = d.ordinal := by
  simp only [day, dayOfYear]
  omega

/-- The year, month and day of a date are those of the date. -/
theorem ofYmd_eq {d : Date} (h : d.InRange) : ofYmd d.year d.month d.day = .ok d := by
  obtain ⟨hmonth, hday⟩ := d.month_day_bounds
  rw [ofYmd, if_pos ⟨h.year_bounds, hmonth, hday⟩, d.ordinal_eq]

def strftimeYmd (d : Date) : String :=
  String.ofList (twoDigits (d.year.toNat / 100) ++ twoDigits (d.year.toNat % 100) ++
    twoDigits d.month.toNat ++ twoDigits d.day.toNat)

theorem InRange.toNat_bounds {d : Date} (h : d.InRange) :
    (1 ≤ d.year.toNat ∧ d.year.toNat ≤ 9999) ∧ (1 ≤ d.month.toNat ∧ d.month.toNat ≤ 12) ∧
      1 ≤ d.day.toNat := by
  have hyear := h.year_bounds
  obtain ⟨hmonth, hday⟩ := d.month_day_bounds
  omega

theorem InRange.toNat_cast {d : Date} (h : d.InRange) :
    (d.year.toNat : ℤ) = d.year ∧ (d.month.toNat : ℤ) = d.month ∧ (d.day.toNat : ℤ) = d.day := by
  have hyear := h.year_bounds
  obtain ⟨hmonth, hday⟩ := d.month_day_bounds
  omega

theorem InRange.day_toNat_le {d : Date} (h : d.InRange) :
    (d.day.toNat : ℤ) ≤ daysInMonth d.year.toNat d.month.toNat := by
  obtain ⟨hyear, hmonth, hday⟩ := h.toNat_cast
  rw [hyear, hmonth, hday]
  exact d.month_day_bounds.2.2

end Date

namespace Time

def strftimeHms (t : Time) : String :=
  String.ofList (twoDigits t.hour ++ ':' :: (twoDigits t.minute ++ ':' :: twoDigits t.second))

theorem fields_lt (t : Time) : t.hour < 24 ∧ t.minute < 60 ∧ t.second < 60 := by
  have ht := t.lt_day
  unfold dayMicros at ht
  unfold hour minute second
  omega

end Time

end SimplyTransport

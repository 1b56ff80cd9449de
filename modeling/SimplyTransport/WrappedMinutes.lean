import SimplyTransport.RealtimeScheduleModel
import Mathlib.Tactic.Linarith

/-!
# Differences of times of day across midnight

Minutes between two instants are computed from their times of day on one date. Where the instants
lie on two consecutive dates, the day between them is put back at the hours 23 and 0 only: there,
and on one date, the minutes are the true ones.
-/

namespace SimplyTransport

/-- The instant `e` lies on the date of `b`, or in the hour after the midnight that follows the
hour of `b`, or in the hour before the midnight that precedes it. -/
def WrapsFrom (b e : DateTime) : Prop :=
  e.date = b.date ∨ (e.date = b.date.addDays 1 ∧ b.time.hour = 23 ∧ e.time.hour = 0) ∨
    (b.date = e.date.addDays 1 ∧ b.time.hour = 0 ∧ e.time.hour = 23)

instance (b e : DateTime) : Decidable (WrapsFrom b e) := by
  unfold WrapsFrom
  infer_instance

namespace DateTime

theorem date_micros_add_time_micros (d : DateTime) :
    d.micros = d.date.ordinal * dayMicros + d.time.micros := by
  rw [time_micros, date]
  exact (Int.ediv_mul_add_emod d.micros dayMicros).symm

theorem time_combine (d : Date) (t : Time) : (combine d t).time = t := by
  apply Time.ext
  zify
  rw [time_micros]
  have ht := t.lt_day
  simp only [combine, dayMicros] at ht ⊢
  omega

theorem combine_date_time (d : DateTime) : combine d.date d.time = d :=
  DateTime.ext d.date_micros_add_time_micros.symm

/-- On the date of `b`, the time of day of `e` is off by the days between them. -/
theorem minutesSince_combine (b e : DateTime) :
    (combine b.date e.time).minutesSince b =
      e.minutesSince b - 1440 * ((e.date.ordinal - b.date.ordinal : ℤ) : ℚ) := by
  have hsub : (combine b.date e.time).sub b =
      e.sub b - (e.date.ordinal - b.date.ordinal) * 86400000000 := by
    have he := e.date_micros_add_time_micros
    simp only [sub, combine, dayMicros] at he ⊢
    omega
  rw [minutesSince, minutesSince, hsub]
  push_cast
  ring

theorem minutesSince_lt_iff {a b : DateTime} {c : ℤ} :
    a.minutesSince b < c ↔ a.sub b < c * 60000000 := by
  rw [minutesSince, div_lt_iff₀ (by norm_num)]
  norm_cast

theorem lt_minutesSince_iff {a b : DateTime} {c : ℤ} :
    (c : ℚ) < a.minutesSince b ↔ c * 60000000 < a.sub b := by
  rw [minutesSince, lt_div_iff₀ (by norm_num)]
  norm_cast

end DateTime

section Wrapped

variable {b e : DateTime}

theorem hour_zero_iff (t : Time) : t.hour = 0 ↔ t.micros < 3600000000 := by
  unfold Time.hour
  omega

theorem hour_twentyThree_iff (t : Time) : t.hour = 23 ↔ 82800000000 ≤ t.micros := by
  have ht := t.lt_day
  unfold Time.hour
  unfold dayMicros at ht
  omega

/-- The minutes to an instant less than 22 hours away are the true ones on the sides of midnight
that the wrapping knows, else they are off by whole days. -/
theorem wrappedMinutes_combine (hlo : -79200000000 < e.sub b) (hhi : e.sub b < 79200000000) :
    wrappedMinutes (DateTime.combine b.date e.time) b =
      if WrapsFrom b e then e.minutesSince b
      else e.minutesSince b - 1440 * ((e.date.ordinal - b.date.ordinal : ℤ) : ℚ) := by
  have he := e.date_micros_add_time_micros
  have hb := b.date_micros_add_time_micros
  have het := e.time.lt_day
  have hbt := b.time.lt_day
  simp only [DateTime.sub] at hlo hhi
  simp only [wrappedMinutes, DateTime.time_combine, DateTime.minutesSince_combine, WrapsFrom,
    Date.ext_iff, Date.addDays, hour_zero_iff, hour_twentyThree_iff]
  unfold dayMicros at he hb het hbt
  have hdays : e.date.ordinal = b.date.ordinal ∨ e.date.ordinal = b.date.ordinal + 1 ∨
      b.date.ordinal = e.date.ordinal + 1 := by omega
  rcases hdays with hday | hday | hday
  · rw [if_neg (by omega), if_neg (by omega), if_pos (Or.inl hday), hday, sub_self]
    ring
  · rw [if_neg (by omega), hday, add_sub_cancel_left]
    by_cases hhours : e.time.micros < 3600000000 ∧ 82800000000 ≤ b.time.micros
    · rw [if_pos hhours, if_pos (Or.inr (Or.inl ⟨rfl, hhours.2, hhours.1⟩))]
      push_cast
      ring
    · rw [if_neg hhours, if_neg (by omega)]
  · rw [hday, sub_add_cancel_left]
    by_cases hhours : 82800000000 ≤ e.time.micros ∧ b.time.micros < 3600000000
    · rw [if_pos hhours, if_pos (Or.inr (Or.inr ⟨rfl, hhours.2, hhours.1⟩))]
      push_cast
      ring
    · rw [if_neg hhours, if_neg (by omega), if_neg (by omega)]

/-- Where the wrapping misses a later date, the minutes look like more than two hours ago. -/
theorem wrappedMinutes_lt_of_later (hlo : -79200000000 < e.sub b) (hhi : e.sub b < 79200000000)
    (h : ¬ WrapsFrom b e) (hbe : b ≤ e) :
    wrappedMinutes (DateTime.combine b.date e.time) b < -120 := by
  rw [wrappedMinutes_combine hlo hhi, if_neg h]
  have hdate : b.date.ordinal + 1 ≤ e.date.ordinal :=
    lt_of_le_of_ne (DateTime.date_mono hbe) (fun heq => h (Or.inl heq.symm))
  have hdays : (1 : ℚ) ≤ ((e.date.ordinal - b.date.ordinal : ℤ) : ℚ) := by
    exact_mod_cast (by omega : (1 : ℤ) ≤ e.date.ordinal - b.date.ordinal)
  have hlt : e.minutesSince b < (1320 : ℤ) := DateTime.minutesSince_lt_iff.2 hhi
  push_cast at hlt
  linarith

/-- Where it misses an earlier date, they look like more than two hours to come. -/
theorem lt_wrappedMinutes_of_earlier (hlo : -79200000000 < e.sub b)
    (hhi : e.sub b < 79200000000) (h : ¬ WrapsFrom b e) (hbe : e < b) :
    120 < wrappedMinutes (DateTime.combine b.date e.time) b := by
  rw [wrappedMinutes_combine hlo hhi, if_neg h]
  have hdate : e.date.ordinal + 1 ≤ b.date.ordinal :=
    lt_of_le_of_ne (DateTime.date_mono hbe.le) (fun heq => h (Or.inl heq))
  have hdays : ((e.date.ordinal - b.date.ordinal : ℤ) : ℚ) ≤ -1 := by
    exact_mod_cast (by omega : e.date.ordinal - b.date.ordinal ≤ (-1 : ℤ))
  have hlt : ((-1320 : ℤ) : ℚ) < e.minutesSince b := DateTime.lt_minutesSince_iff.2 hlo
  push_cast at hlt
  linarith

end Wrapped

/-- The delayed time of day, on whichever date it is computed. -/
theorem realArrivalTime_eq_time (scheduled : Time) (d : ℤ) (now : DateTime) (date : Date) :
    realArrivalTime scheduled d now =
      ((DateTime.combine date scheduled).addSeconds d).time := by
  apply Time.ext
  zify
  rw [realArrivalTime, DateTime.time_micros, DateTime.time_micros]
  simp only [DateTime.addSeconds, DateTime.addMicros, DateTime.combine, dayMicros]
  omega

theorem sub_addSeconds (b : DateTime) (d : ℤ) : (b.addSeconds d).sub b = d * 1000000 :=
  add_sub_cancel_left b.micros (d * 1000000)

end SimplyTransport

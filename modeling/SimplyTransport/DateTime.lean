import SimplyTransport.Traversal
import Mathlib.Order.Basic
import Mathlib.Order.Lattice
import Mathlib.Tactic.Common
import Mathlib.Tactic.Ring

/-!
# Times of day, dates and naive datetimes

A time of day is a number of microseconds below a day, a date is its proleptic ordinal and a
datetime counts the microseconds from midnight of the day with ordinal 0. Dates are not bounded
by the years 1 and 9999.
-/

namespace SimplyTransport

inductive PyError
  | valueError
  | typeError
  | attributeError
  | keyError
  | indexError
  | stopIteration
  | integrityError
  | overflowError
  | osError
  | dataError
  deriving DecidableEq, Repr

def dayMicros : ℕ := 86400000000

structure Time where
  micros : ℕ
  lt_day : micros < dayMicros
  deriving DecidableEq

@[ext] structure Date where
  ordinal : ℤ
  deriving DecidableEq

@[ext] structure DateTime where
  micros : ℤ
  deriving DecidableEq

theorem Time.ext {t u : Time} (h : t.micros = u.micros) : t = u := by
  cases t; cases u; cases h; rfl

instance : LinearOrder Time := LinearOrder.lift' Time.micros (fun _ _ => Time.ext)

instance : LinearOrder Date := LinearOrder.lift' Date.ordinal (fun _ _ => Date.ext)

instance : LinearOrder DateTime := LinearOrder.lift' DateTime.micros (fun _ _ => DateTime.ext)

theorem Time.le_iff {t u : Time} : t ≤ u ↔ t.micros ≤ u.micros := Iff.rfl

theorem Time.lt_iff {t u : Time} : t < u ↔ t.micros < u.micros := Iff.rfl

theorem Date.le_iff {d e : Date} : d ≤ e ↔ d.ordinal ≤ e.ordinal := Iff.rfl

theorem DateTime.le_iff {d e : DateTime} : d ≤ e ↔ d.micros ≤ e.micros := Iff.rfl

theorem DateTime.lt_iff {d e : DateTime} : d < e ↔ d.micros < e.micros := Iff.rfl

namespace Time

def midnight : Time := ⟨0, by decide⟩

def hour (t : Time) : ℕ := t.micros / 3600000000

def minute (t : Time) : ℕ := t.micros / 60000000 % 60

def second (t : Time) : ℕ := t.micros / 1000000 % 60

/-- `time(hour, minute, second)`, whose arguments are C integers. -/
def ofHms (hour minute second : ℤ) : Except PyError Time :=
  if h : (0 ≤ hour ∧ hour ≤ 23) ∧ (0 ≤ minute ∧ minute ≤ 59) ∧ 0 ≤ second ∧ second ≤ 59 then
    .ok ⟨((hour * 3600 + minute * 60 + second) * 1000000).toNat, by unfold dayMicros; omega⟩
  else if [hour, minute, second].all (fun n => -2 ^ 31 ≤ n ∧ n < 2 ^ 31) then
    .error .valueError
  else
    .error .overflowError

end Time

namespace Date

/-- Monday is 0. -/
def weekday (d : Date) : ℤ := (d.ordinal + 6) % 7

def addDays (d : Date) (n : ℤ) : Date := ⟨d.ordinal + n⟩

def isLeap (y : ℤ) : Bool := y % 4 = 0 ∧ (y % 100 ≠ 0 ∨ y % 400 = 0)

def daysBeforeMonth (y m : ℤ) : ℤ :=
  [0, 31, 59, 90, 120, 151, 181, 212, 243, 273, 304, 334].getD (m - 1).toNat 0 +
    if 2 < m ∧ isLeap y then 1 else 0

def daysInMonth (y m : ℤ) : ℤ :=
  if m = 2 ∧ isLeap y then 29
  else [31, 28, 31, 30, 31, 30, 31, 31, 30, 31, 30, 31].getD (m - 1).toNat 0

def daysBeforeYear (y : ℤ) : ℤ := (y - 1) * 365 + (y - 1) / 4 - (y - 1) / 100 + (y - 1) / 400

def ofYmd (y m d : ℤ) : Except PyError Date :=
  if (1 ≤ y ∧ y ≤ 9999) ∧ (1 ≤ m ∧ m ≤ 12) ∧ 1 ≤ d ∧ d ≤ daysInMonth y m then
    .ok ⟨daysBeforeYear y + daysBeforeMonth y m + d⟩
  else
    .error .valueError

theorem weekday_lt (d : Date) : 0 ≤ d.weekday ∧ d.weekday < 7 := by
  unfold weekday
  omega

theorem weekday_addDays (d : Date) (n : ℤ) : (d.addDays n).weekday = (d.weekday + n) % 7 := by
  simp only [weekday, addDays]
  omega

end Date

namespace DateTime

def date (d : DateTime) : Date := ⟨d.micros / dayMicros⟩

def time (d : DateTime) : Time := ⟨(d.micros % dayMicros).toNat, by unfold dayMicros; omega⟩

def combine (d : Date) (t : Time) : DateTime := ⟨d.ordinal * dayMicros + t.micros⟩

def addMicros (d : DateTime) (n : ℤ) : DateTime := ⟨d.micros + n⟩

def addSeconds (d : DateTime) (n : ℤ) : DateTime := d.addMicros (n * 1000000)

def addMinutes (d : DateTime) (n : ℤ) : DateTime := d.addSeconds (n * 60)

def sub (d e : DateTime) : ℤ := d.micros - e.micros

theorem time_micros (d : DateTime) : (d.time.micros : ℤ) = d.micros % dayMicros := by
  simp only [time, dayMicros]
  omega

theorem date_combine (d : Date) (t : Time) : (combine d t).date = d := by
  have ht := t.lt_day
  ext
  simp only [combine, date, dayMicros] at ht ⊢
  omega

theorem le_addMicros (d : DateTime) (n : ℕ) : d ≤ d.addMicros n :=
  le_add_of_nonneg_right (Int.natCast_nonneg n)

theorem date_mono {d e : DateTime} (h : d ≤ e) : d.date ≤ e.date :=
  Int.ediv_le_ediv (by decide) h

end DateTime

end SimplyTransport

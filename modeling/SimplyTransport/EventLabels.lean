import SimplyTransport.CivilDate
import Mathlib.Data.List.GetD

/-!
# The labels of events

The pages show when an event was created as a day and a time without its year. The day is `Today`,
`Yesterday` or a day of a month, which no two days of less than a year have in common.
-/

namespace SimplyTransport

namespace Date

/-- A year after a leap year begins 366 days later, any other one 365. -/
theorem daysBeforeYear_succ (y : ℤ) :
    daysBeforeYear (y + 1) = daysBeforeYear y + 365 + if isLeap y then 1 else 0 := by
  have hleap := isLeap_iff y
  have h4 : y / 4 = (y - 1) / 4 + if y % 4 = 0 then 1 else 0 := by split_ifs <;> omega
  have h100 : y / 100 = (y - 1) / 100 + if y % 100 = 0 then 1 else 0 := by split_ifs <;> omega
  have h400 : y / 400 = (y - 1) / 400 + if y % 400 = 0 then 1 else 0 := by split_ifs <;> omega
  unfold daysBeforeYear
  rw [Int.add_sub_cancel, h4, h100, h400]
  by_cases hy : isLeap y = true
  · have hmod := hleap.1 hy
    rw [if_pos hy, if_pos hmod.1]
    split_ifs <;> omega
  · have hmod := mt hleap.2 hy
    rw [if_neg hy]
    split_ifs <;> omega

theorem daysBeforeYear_lt {y y' : ℤ} (h : y < y') :
    daysBeforeYear y + 365 + (if isLeap y then 1 else 0) ≤ daysBeforeYear y' := by
  obtain ⟨k, rfl⟩ : ∃ k : ℕ, y' = y + 1 + k := ⟨(y' - y - 1).toNat, by omega⟩
  clear h
  induction k with
  | zero => rw [Nat.cast_zero, add_zero, daysBeforeYear_succ]
  | succ k ih =>
      have hk := daysBeforeYear_succ (y + 1 + k)
      rw [Nat.cast_succ, ← add_assoc, hk]
      have hleap : (0 : ℤ) ≤ if isLeap (y + 1 + k) then 1 else 0 := by split_ifs <;> decide
      omega

theorem daysBeforeMonth_sub (y y' m : ℤ) :
    daysBeforeMonth y m ≤ daysBeforeMonth y' m + if isLeap y then 1 else 0 := by
  unfold daysBeforeMonth
  rw [add_assoc]
  apply Int.add_le_add_left
  by_cases h : 2 < m ∧ isLeap y
  · rw [if_pos h, if_pos h.2]
    split_ifs <;> decide
  · rw [if_neg h]
    split_ifs <;> decide

/-- The days that have one name are years apart. -/
theorem ordinal_le_of_year_lt {d e : Date} (hmonth : d.month = e.month) (hday : d.day = e.day)
    (h : d.year < e.year) : d.ordinal + 365 ≤ e.ordinal := by
  have hd := d.ordinal_eq
  have he := e.ordinal_eq
  have hyears := daysBeforeYear_lt h
  have hmonths := daysBeforeMonth_sub d.year e.year d.month
  rw [hmonth, hday] at hd
  rw [hmonth] at hmonths
  omega

theorem eq_of_day_month {d e : Date} (hmonth : d.month = e.month) (hday : d.day = e.day)
    (hlow : d.ordinal < e.ordinal + 365) (hhigh : e.ordinal < d.ordinal + 365) : d = e := by
  rcases lt_trichotomy d.year e.year with h | h | h
  · have hle := ordinal_le_of_year_lt hmonth hday h
    omega
  · ext
    rw [← d.ordinal_eq, ← e.ordinal_eq, hmonth, hday, h]
  · have hle := ordinal_le_of_year_lt hmonth.symm hday.symm h
    omega

def monthNames : List (List Char) :=
  ["Jan".toList, "Feb".toList, "Mar".toList, "Apr".toList, "May".toList, "Jun".toList,
    "Jul".toList, "Aug".toList, "Sep".toList, "Oct".toList, "Nov".toList, "Dec".toList]

def monthName (d : Date) : List Char := monthNames.getD (d.month - 1).toNat []

theorem monthName_length (d : Date) : d.monthName.length = 3 := by
  obtain ⟨⟨hlow, hhigh⟩, -⟩ := d.month_day_bounds
  unfold monthName
  interval_cases d.month <;> rfl

theorem month_eq_of_monthName {d e : Date} (h : d.monthName = e.monthName) : d.month = e.month := by
  obtain ⟨hd, -⟩ := d.month_day_bounds
  obtain ⟨he, -⟩ := e.month_day_bounds
  have hnodup : monthNames.Nodup := by decide
  have hlength : monthNames.length = 12 := rfl
  unfold monthName at h
  rw [List.getD_eq_getElem _ _ (by omega), List.getD_eq_getElem _ _ (by omega),
    hnodup.getElem_inj_iff] at h
  omega

end Date

theorem twoDigits_inj {m n : ℕ} (hm : m < 100) (hn : n < 100) (h : twoDigits m = twoDigits n) :
    m = n := by
  have hread := (pyInt_twoDigits hm).symm.trans ((congrArg pyInt h).trans (pyInt_twoDigits hn))
  exact Int.ofNat_inj.1 (Except.ok.inj hread)

namespace EventLabels

def hourMinute (t : Time) : List Char := twoDigits t.hour ++ ':' :: twoDigits t.minute

def dayMonth (d : Date) : List Char := twoDigits d.day.toNat ++ ' ' :: d.monthName

def createdAtPretty (currentTime createdAt : DateTime) : List Char :=
  if createdAt.date = currentTime.date then "Today - ".toList ++ hourMinute createdAt.time
  else if createdAt.date = currentTime.date.addDays (-1) then
    "Yesterday - ".toList ++ hourMinute createdAt.time
  else dayMonth createdAt.date ++ " - ".toList ++ hourMinute createdAt.time

theorem hourMinute_inj {t u : Time} (h : hourMinute t = hourMinute u) :
    t.hour = u.hour ∧ t.minute = u.minute := by
  obtain ⟨hthour, htminute, -⟩ := t.fields_lt
  obtain ⟨huhour, huminute, -⟩ := u.fields_lt
  obtain ⟨hhour, hminute⟩ := List.append_inj h rfl
  refine ⟨twoDigits_inj (by omega) (by omega) hhour, twoDigits_inj (by omega) (by omega) ?_⟩
  exact (List.cons.inj hminute).2

theorem day_toNat_le (d : Date) : (d.day.toNat : ℤ) = d.day ∧ d.day.toNat < 100 := by
  obtain ⟨-, hlow, hhigh⟩ := d.month_day_bounds
  have hdays : Date.daysInMonth d.year d.month ≤ 31 := by
    unfold Date.daysInMonth
    split_ifs
    · decide
    · generalize (d.month - 1).toNat = k
      rcases lt_or_ge k 12 with hk | hk
      · interval_cases k <;> decide
      · rw [List.getD_eq_default _ _ hk]
        decide
  omega

theorem dayMonth_inj {d e : Date} {rest rest' : List Char}
    (h : dayMonth d ++ rest = dayMonth e ++ rest') :
    d.month = e.month ∧ d.day = e.day ∧ rest = rest' := by
  obtain ⟨hd, hd'⟩ := day_toNat_le d
  obtain ⟨he, he'⟩ := day_toNat_le e
  have hlength : (dayMonth d).length = (dayMonth e).length := by
    simp only [dayMonth, List.length_append, List.length_cons, Date.monthName_length, twoDigits]
  obtain ⟨hname, hrest⟩ := List.append_inj h hlength
  obtain ⟨hday, hmonth⟩ := List.append_inj hname rfl
  have hnum := twoDigits_inj hd' he' hday
  exact ⟨Date.month_eq_of_monthName (List.cons.inj hmonth).2, by omega, hrest⟩

/-- The day of a month begins with a digit. -/
theorem dayMonth_head (d : Date) (rest : List Char) :
    ∃ c cs, dayMonth d ++ rest = c :: cs ∧ c.isDigit = true := by
  obtain ⟨-, hlt⟩ := day_toNat_le d
  exact ⟨(d.day.toNat / 10).digitChar, _, rfl,
    twoDigits_isDigit hlt _ List.mem_cons_self⟩

/-- An event that was created on this day or on one of the 366 days before. -/
def WithinYear (currentTime createdAt : DateTime) : Prop :=
  currentTime.date.ordinal - 366 ≤ createdAt.date.ordinal ∧ createdAt.date ≤ currentTime.date

/-- The first character tells the three kinds of day apart. -/
theorem head_createdAtPretty (now a : DateTime) :
    (a.date = now.date ∧ (createdAtPretty now a).head? = some 'T') ∨
      (a.date = now.date.addDays (-1) ∧ (createdAtPretty now a).head? = some 'Y') ∨
        (a.date ≠ now.date ∧ a.date ≠ now.date.addDays (-1)) ∧
          ∃ c, (createdAtPretty now a).head? = some c ∧ c.isDigit = true := by
  unfold createdAtPretty
  split_ifs with htoday hyesterday
  · exact Or.inl ⟨htoday, rfl⟩
  · exact Or.inr (Or.inl ⟨hyesterday, rfl⟩)
  · obtain ⟨c, cs, hcs, hc⟩ := dayMonth_head a.date (" - ".toList ++ hourMinute a.time)
    rw [List.append_assoc, hcs]
    exact Or.inr (Or.inr ⟨⟨htoday, hyesterday⟩, c, rfl, hc⟩)

theorem date_eq_of_head {now a b : DateTime} (ha : WithinYear now a) (hb : WithinYear now b)
    (h : createdAtPretty now a = createdAtPretty now b) : a.date = b.date := by
  have hhead := congrArg List.head? h
  rcases head_createdAtPretty now a with ⟨hda, hca⟩ | ⟨hda, hca⟩ | ⟨hda, c, hca, hc⟩
  · rcases head_createdAtPretty now b with ⟨hdb, hcb⟩ | ⟨hdb, hcb⟩ | ⟨hdb, c', hcb, hc'⟩
    · exact hda.trans hdb.symm
    · exact absurd (hca.symm.trans (hhead.trans hcb)) (by decide)
    · obtain rfl := Option.some.inj (hca.symm.trans (hhead.trans hcb))
      exact absurd hc' (by decide)
  · rcases head_createdAtPretty now b with ⟨hdb, hcb⟩ | ⟨hdb, hcb⟩ | ⟨hdb, c', hcb, hc'⟩
    · exact absurd (hca.symm.trans (hhead.trans hcb)) (by decide)
    · exact hda.trans hdb.symm
    · obtain rfl := Option.some.inj (hca.symm.trans (hhead.trans hcb))
      exact absurd hc' (by decide)
  · rcases head_createdAtPretty now b with ⟨hdb, hcb⟩ | ⟨hdb, hcb⟩ | ⟨hdb, c', hcb, hc'⟩
    · obtain rfl := Option.some.inj (hcb.symm.trans (hhead.symm.trans hca))
      exact absurd hc (by decide)
    · obtain rfl := Option.some.inj (hcb.symm.trans (hhead.symm.trans hca))
      exact absurd hc (by decide)
    · unfold createdAtPretty at h
      rw [if_neg hda.1, if_neg hda.2, if_neg hdb.1, if_neg hdb.2, List.append_assoc,
        List.append_assoc] at h
      obtain ⟨hmonth, hday, -⟩ := dayMonth_inj h
      -- neither day is one of the last two, so that less than a year lies between them
      have hfar : ∀ d : Date, d ≤ now.date → d ≠ now.date → d ≠ now.date.addDays (-1) →
          d.ordinal ≤ now.date.ordinal - 2 := by
        intro d hle hne hne'
        have hle' := Date.le_iff.1 hle
        have h₁ : d.ordinal ≠ now.date.ordinal := fun heq => hne (Date.ext heq)
        have h₂ : d.ordinal ≠ now.date.ordinal + -1 := fun heq => hne' (Date.ext heq)
        omega
      have hfa := hfar a.date ha.2 hda.1 hda.2
      have hfb := hfar b.date hb.2 hdb.1 hdb.2
      obtain ⟨hla, -⟩ := ha
      obtain ⟨hlb, -⟩ := hb
      exact Date.eq_of_day_month hmonth hday (by omega) (by omega)

theorem hourMinute_eq_of_pretty {now a b : DateTime} (hdate : a.date = b.date)
    (h : createdAtPretty now a = createdAtPretty now b) :
    hourMinute a.time = hourMinute b.time := by
  unfold createdAtPretty at h
  rw [hdate] at h
  split_ifs at h
  · exact List.append_cancel_left h
  · exact List.append_cancel_left h
  · exact List.append_cancel_left h

theorem micros_date_time (d : DateTime) :
    d.micros = d.date.ordinal * 86400000000 + d.time.micros := by
  rw [d.time_micros]
  unfold DateTime.date dayMicros
  dsimp only
  omega

/-- On one page no two events of different minutes have one label, back to 366 days ago. -/
theorem createdAtPretty_inj (now a b : DateTime) (ha : WithinYear now a) (hb : WithinYear now b) :
    createdAtPretty now a = createdAtPretty now b ↔
      a.micros / 60000000 = b.micros / 60000000 := by
  constructor
  · intro h
    have hdate := date_eq_of_head ha hb h
    obtain ⟨hhour, hminute⟩ := hourMinute_inj (hourMinute_eq_of_pretty hdate h)
    unfold Time.hour at hhour
    unfold Time.minute at hminute
    rw [micros_date_time a, micros_date_time b, hdate]
    omega
  · intro h
    have hdate : a.date = b.date := by
      ext
      unfold DateTime.date dayMicros
      dsimp only
      omega
    have htime : hourMinute a.time = hourMinute b.time := by
      have ha' := micros_date_time a
      have hb' := micros_date_time b
      rw [hdate] at ha'
      have hmin : a.time.micros / 60000000 = b.time.micros / 60000000 := by omega
      unfold hourMinute Time.hour Time.minute
      rw [hmin]
      congr 2
      omega
    unfold createdAtPretty
    rw [hdate, htime]

/-- On 10 March 2023, two events of the day before and of 9 March 2022. -/
theorem createdAtPretty_inj_sample :
    createdAtPretty ⟨63814132800000000⟩ ⟨63814046400000000⟩ =
        createdAtPretty ⟨63814132800000000⟩ ⟨63782510400000000⟩ ↔
      (63814046400000000 : ℤ) / 60000000 = 63782510400000000 / 60000000 :=
  createdAtPretty_inj ⟨63814132800000000⟩ ⟨63814046400000000⟩ ⟨63782510400000000⟩
    ⟨by decide, by decide⟩ ⟨by decide, by decide⟩

-- a day earlier the year is missed: the events of 8 March 2023 and of 8 March 2022
example : createdAtPretty ⟨63814132800000000⟩ ⟨63813960000000000⟩ =
    createdAtPretty ⟨63814132800000000⟩ ⟨63782424000000000⟩ := by decide +kernel

end EventLabels

end SimplyTransport

import SimplyTransport.BinaryRounding
import SimplyTransport.DatabaseStatistics
import SimplyTransport.StableSort
import Mathlib.Algebra.Order.BigOperators.Group.List

/-!
# The pages of the statistics

A page lists the statistics of a type by their values, with the percentage that each is of a total
and a row for the total itself. A percentage is computed in double precision, by a division, a
product and a rounding to some decimal places, each of which is monotone.
-/

namespace SimplyTransport.StatisticsPages

open BinaryRounding

structure DatabaseStatisticWithPercentage where
  key : String
  value : ℕ
  percentage : ℚ
  deriving DecidableEq

section Doubles

def double (x : ℚ) : ℚ := round 53 (-1074) x

def divide (value total : ℕ) : ℚ := double (value / total)

def roundTo (places : ℕ) (x : ℚ) : ℚ := double (roundHalfEven (x * 10 ^ places) / 10 ^ places)

end Doubles

section Service

variable (decimalsPlacesToRound : ℕ)

def percentageOf (totalRows value : ℕ) : ℚ :=
  if totalRows = 0 then 0
  else roundTo decimalsPlacesToRound (double (divide value totalRows * 100))

def convertStatsToStatsWithPercentageTotals (stats : List DatabaseStatisticModel)
    (addTotalsRow : Bool) (totalRowKey : String) (totalOverride : Option ℕ) :
    List DatabaseStatisticWithPercentage :=
  let totalRows :=
    match totalOverride with
    | none => (stats.map (fun stat => stat.value)).sum
    | some total => total
  let statForTotals : List DatabaseStatisticWithPercentage :=
    if addTotalsRow then [⟨totalRowKey, totalRows, if totalRows ≠ 0 then 100 else 0⟩] else []
  statForTotals ++ stats.map (fun stat =>
    ⟨stat.key, stat.value, percentageOf decimalsPlacesToRound totalRows stat.value⟩)

/-- `sorted` keeps the order of equal values, also in reverse. -/
def sortStatsByValue (stats : List DatabaseStatisticWithPercentage) (descending : Bool) :
    List DatabaseStatisticWithPercentage :=
  if descending then stats.mergeSort (fun a b => b.value ≤ a.value)
  else stats.mergeSort (fun a b => a.value ≤ b.value)

/-- The handlers of the pages, which differ in the name of the total and in what it is of. -/
def statisticsPage (totalRowKey : String) (totalOverride : Option ℕ)
    (stats : List DatabaseStatisticModel) : List DatabaseStatisticWithPercentage :=
  sortStatsByValue (convertStatsToStatsWithPercentageTotals 2 stats true totalRowKey totalOverride)
    true

def staticStats (stats : List DatabaseStatisticModel) : List DatabaseStatisticWithPercentage :=
  statisticsPage "Total Rows" none stats

def operatorRouteStats (routes : List DatabaseStatisticModel) :
    List DatabaseStatisticWithPercentage := statisticsPage "Total Routes" none routes

def operatorTripStats (trips : List DatabaseStatisticModel) :
    List DatabaseStatisticWithPercentage := statisticsPage "Total Trips" none trips

def stopFeatureStats (totalStopCount : ℕ) (stats : List DatabaseStatisticModel) :
    List DatabaseStatisticWithPercentage := statisticsPage "Total Stops" (some totalStopCount) stats

def delayStats (totalDelayCount : ℕ) (stats : List DatabaseStatisticModel) :
    List DatabaseStatisticWithPercentage :=
  statisticsPage "Total Delay Records" (some totalDelayCount) stats

end Service

section Percentages

variable {decimalsPlacesToRound totalRows value : ℕ}

theorem double_mono {x y : ℚ} (hx : 0 ≤ x) (h : x ≤ y) : double x ≤ double y :=
  round_mono_of_nonneg (by decide) hx h

theorem double_nonneg {x : ℚ} (hx : 0 ≤ x) : 0 ≤ double x := round_nonneg hx

theorem double_natCast {n : ℕ} (h : n ≤ 2 ^ 53) : double n = n := by
  have hround : double ((n : ℤ) : ℚ) = (n : ℤ) :=
    round_intCast (Int.natCast_nonneg n) (by exact_mod_cast h) (by decide) (by decide)
  exact_mod_cast hround

theorem abs_double_sub_le {x : ℚ} (hx : 0 ≤ x) : |double x - x| ≤ x / 2 ^ 53 + 1 / 2 ^ 60 := by
  rcases hx.lt_or_eq with hpos | rfl
  · have hround : |double x - x| ≤ x / 2 ^ 53 + 2 ^ (-1074 : ℤ) := abs_round_sub_le hpos
    have htiny : (2 : ℚ) ^ (-1074 : ℤ) ≤ 1 / 2 ^ 60 := by
      rw [one_div, ← zpow_natCast, ← zpow_neg]
      exact zpow_le_zpow_right₀ one_le_two (by norm_num)
    exact hround.trans (add_le_add_right htiny _)
  · rw [double, round_zero]
    norm_num

theorem roundTo_mono {places : ℕ} {x y : ℚ} (hx : 0 ≤ x) (h : x ≤ y) :
    roundTo places x ≤ roundTo places y := by
  have hpow : (0 : ℚ) < 10 ^ places := by positivity
  have hmul : x * 10 ^ places ≤ y * 10 ^ places := mul_le_mul_of_nonneg_right h hpow.le
  have hnonneg : (0 : ℤ) ≤ roundHalfEven (x * 10 ^ places) :=
    le_roundHalfEven (by exact_mod_cast mul_nonneg hx hpow.le)
  apply double_mono
  · exact div_nonneg (by exact_mod_cast hnonneg) hpow.le
  · exact div_le_div_of_nonneg_right (by exact_mod_cast roundHalfEven_mono hmul) hpow.le

theorem percentageOf_mono {value' : ℕ} (h : value ≤ value') :
    percentageOf decimalsPlacesToRound totalRows value ≤
      percentageOf decimalsPlacesToRound totalRows value' := by
  unfold percentageOf divide
  split_ifs
  · exact le_rfl
  · have hquotient : (value : ℚ) / totalRows ≤ value' / totalRows :=
      div_le_div_of_nonneg_right (by exact_mod_cast h) (Nat.cast_nonneg _)
    have hnonneg : (0 : ℚ) ≤ value / totalRows := by positivity
    have hdivide := double_mono hnonneg hquotient
    have hzero := double_nonneg hnonneg
    exact roundTo_mono (double_nonneg (by linarith)) (double_mono (by linarith) (by linarith))

theorem percentageOf_zero : percentageOf decimalsPlacesToRound totalRows 0 = 0 := by
  have hzero : double 0 = 0 := round_zero
  have hround : roundHalfEven 0 = 0 := by exact_mod_cast roundHalfEven_intCast 0
  unfold percentageOf divide roundTo
  rw [Nat.cast_zero, zero_div, hzero, zero_mul, hzero, zero_mul, hround, Int.cast_zero, zero_div,
    hzero, ite_self]

theorem percentageOf_nonneg : 0 ≤ percentageOf decimalsPlacesToRound totalRows value := by
  have hmono : percentageOf decimalsPlacesToRound totalRows 0 ≤ _ :=
    percentageOf_mono (Nat.zero_le value)
  rwa [percentageOf_zero] at hmono

/-- The total is all of itself. -/
theorem percentageOf_total (h : totalRows ≠ 0) :
    percentageOf decimalsPlacesToRound totalRows totalRows = 100 := by
  have hone : double 1 = 1 := by exact_mod_cast double_natCast (n := 1) (by norm_num)
  have hhundred : double 100 = 100 := by exact_mod_cast double_natCast (n := 100) (by norm_num)
  have hpow : (10 : ℚ) ^ decimalsPlacesToRound ≠ 0 := by positivity
  have hround : roundHalfEven (100 * 10 ^ decimalsPlacesToRound) =
      100 * 10 ^ decimalsPlacesToRound := by
    have hcast := roundHalfEven_intCast (100 * 10 ^ decimalsPlacesToRound)
    push_cast at hcast
    exact hcast
  unfold percentageOf divide roundTo
  rw [if_neg h, div_self (by exact_mod_cast h), hone, one_mul, hhundred, hround]
  push_cast
  rw [mul_div_cancel_right₀ _ hpow, hhundred]

theorem percentageOf_le (h : value ≤ totalRows) :
    percentageOf decimalsPlacesToRound totalRows value ≤ 100 := by
  by_cases hzero : totalRows = 0
  · rw [percentageOf, if_pos hzero]
    norm_num
  · rw [← percentageOf_total hzero]
    exact percentageOf_mono h

/-- Half of the last decimal place, and what the three doubles are off by. -/
def tolerance (places : ℕ) : ℚ := 1 / (2 * 10 ^ places) + 1 / 2 ^ 44

theorem abs_roundTo_sub_le {places : ℕ} {x : ℚ} (hx : 0 ≤ x) (hle : x ≤ 100) :
    |roundTo places x - x| ≤ 1 / (2 * 10 ^ places) + 100 / 2 ^ 53 + 1 / 2 ^ 60 := by
  have hpow : (0 : ℚ) < 10 ^ places := by positivity
  obtain ⟨r, hr⟩ : ∃ r : ℚ, r = roundHalfEven (x * 10 ^ places) / 10 ^ places := ⟨_, rfl⟩
  have hscaled : r * 10 ^ places = roundHalfEven (x * 10 ^ places) := by
    rw [hr, div_mul_cancel₀ _ hpow.ne']
  have hlow := sub_half_le_roundHalfEven (x * 10 ^ places)
  have hhigh := roundHalfEven_le_add_half (x * 10 ^ places)
  have hnonneg : (0 : ℤ) ≤ roundHalfEven (x * 10 ^ places) :=
    le_roundHalfEven (by exact_mod_cast mul_nonneg hx hpow.le)
  have hr0 : 0 ≤ r := by
    rw [hr]
    exact div_nonneg (by exact_mod_cast hnonneg) hpow.le
  have hr100 : r ≤ 100 := by
    have hmul : x * 10 ^ places ≤ ((100 * 10 ^ places : ℤ) : ℚ) := by
      push_cast
      exact mul_le_mul_of_nonneg_right hle hpow.le
    have hround : (roundHalfEven (x * 10 ^ places) : ℚ) ≤ ((100 * 10 ^ places : ℤ) : ℚ) := by
      exact_mod_cast roundHalfEven_le hmul
    rw [hr, div_le_iff₀ hpow]
    push_cast at hround
    exact hround
  have hdecimal : |r - x| ≤ 1 / (2 * 10 ^ places) := by
    have hhalf : 1 / (2 * 10 ^ places) * 10 ^ places = (1 / 2 : ℚ) := by
      field_simp
    rw [abs_le]
    constructor
    · apply le_of_mul_le_mul_right _ hpow
      rw [sub_mul, hscaled, neg_mul, hhalf]
      linarith
    · apply le_of_mul_le_mul_right _ hpow
      rw [sub_mul, hscaled, hhalf]
      linarith
  have hdouble := abs_double_sub_le hr0
  have hpart : r / 2 ^ 53 ≤ 100 / 2 ^ 53 := div_le_div_of_nonneg_right hr100 (by positivity)
  have hsum := abs_sub_le (double r) r x
  unfold roundTo
  rw [← hr]
  linarith

theorem abs_percentageOf_sub_le (hvalue : value ≤ totalRows) (htotal : totalRows ≠ 0) :
    |percentageOf decimalsPlacesToRound totalRows value - 100 * (value / totalRows)| ≤
      tolerance decimalsPlacesToRound := by
  obtain ⟨q, hq⟩ : ∃ q : ℚ, q = value / totalRows := ⟨_, rfl⟩
  have hq0 : 0 ≤ q := by
    rw [hq]
    positivity
  have hq1 : q ≤ 1 := by
    rw [hq]
    exact div_le_one_of_le₀ (by exact_mod_cast hvalue) (Nat.cast_nonneg _)
  have hone : double 1 = 1 := by exact_mod_cast double_natCast (n := 1) (by norm_num)
  have hhundred : double 100 = 100 := by exact_mod_cast double_natCast (n := 100) (by norm_num)
  have hd := abs_double_sub_le hq0
  have hd0 := double_nonneg hq0
  have hd1 : double q ≤ 1 := (double_mono hq0 hq1).trans hone.le
  have hm0 : 0 ≤ double q * 100 := by linarith
  have hm := abs_double_sub_le hm0
  have hm100 : double (double q * 100) ≤ 100 :=
    (double_mono hm0 (by linarith)).trans hhundred.le
  have hround := @abs_roundTo_sub_le decimalsPlacesToRound _ (double_nonneg hm0) hm100
  unfold percentageOf divide tolerance
  rw [if_neg htotal, ← hq]
  rw [abs_le] at *
  constructor <;> norm_num at * <;> linarith

end Percentages

section Pages

def totalOf (totalOverride : Option ℕ) (stats : List DatabaseStatisticModel) : ℕ :=
  match totalOverride with
  | none => (stats.map (fun stat => stat.value)).sum
  | some total => total

def rowOf (totalRows : ℕ) (key : String) (value : ℕ) : DatabaseStatisticWithPercentage :=
  ⟨key, value, percentageOf 2 totalRows value⟩

/-- A page for a total: a row for each statistic and the total's, ordered by values and by
percentages at once. -/
structure PageConsistent (totalRowKey : String) (totalRows : ℕ)
    (stats : List DatabaseStatisticModel) (rows : List DatabaseStatisticWithPercentage) : Prop where
  perm : rows.Perm (rowOf totalRows totalRowKey totalRows ::
    stats.map (fun stat => rowOf totalRows stat.key stat.value))
  sorted : rows.Pairwise (fun a b => b.value ≤ a.value ∧ b.percentage ≤ a.percentage)
  total_first : (∃ rest, rows = rowOf totalRows totalRowKey totalRows :: rest) ↔
    ∀ stat ∈ stats, stat.value ≤ totalRows
  bounds : ∀ row ∈ rows, 0 ≤ row.percentage ∧ (row.value ≤ totalRows → row.percentage ≤ 100)
  accurate : totalRows ≠ 0 → ∀ row ∈ rows, row.value ≤ totalRows →
    |row.percentage - 100 * (row.value / totalRows)| ≤ tolerance 2

def percentages (totalRows : ℕ) (stats : List DatabaseStatisticModel) : List ℚ :=
  stats.map (fun stat => percentageOf 2 totalRows stat.value)

variable {totalRowKey : String} {totalRows : ℕ} {stats : List DatabaseStatisticModel}

theorem convert_eq (totalOverride : Option ℕ) :
    convertStatsToStatsWithPercentageTotals 2 stats true totalRowKey totalOverride =
      rowOf (totalOf totalOverride stats) totalRowKey (totalOf totalOverride stats) ::
        stats.map (fun stat => rowOf (totalOf totalOverride stats) stat.key stat.value) := by
  have htotal : (if totalOf totalOverride stats ≠ 0 then (100 : ℚ) else 0) =
      percentageOf 2 (totalOf totalOverride stats) (totalOf totalOverride stats) := by
    split_ifs with h
    · exact (percentageOf_total h).symm
    · rw [not_not.1 h, percentageOf_zero]
  unfold rowOf
  rw [← htotal]
  rfl

theorem mem_page {rows : List DatabaseStatisticWithPercentage}
    (h : rows.Perm (rowOf totalRows totalRowKey totalRows ::
      stats.map (fun stat => rowOf totalRows stat.key stat.value)))
    {row : DatabaseStatisticWithPercentage} (hrow : row ∈ rows) :
    row.percentage = percentageOf 2 totalRows row.value := by
  rcases List.mem_cons.1 (h.mem_iff.1 hrow) with rfl | hrow
  · rfl
  · obtain ⟨stat, -, rfl⟩ := List.mem_map.1 hrow
    rfl

theorem statisticsPage_consistent (totalOverride : Option ℕ) :
    PageConsistent totalRowKey (totalOf totalOverride stats) stats
      (statisticsPage totalRowKey totalOverride stats) := by
  obtain ⟨total, htotal⟩ : ∃ total, total = totalOf totalOverride stats := ⟨_, rfl⟩
  have hpage : statisticsPage totalRowKey totalOverride stats =
      (rowOf total totalRowKey total :: stats.map (fun stat => rowOf total stat.key stat.value)).mergeSort
        (fun a b => b.value ≤ a.value) := by
    rw [statisticsPage, convert_eq, ← htotal]
    rfl
  have hperm := List.mergeSort_perm (rowOf total totalRowKey total ::
    stats.map (fun stat => rowOf total stat.key stat.value)) (fun a b => b.value ≤ a.value)
  have hsorted := StableSort.sorted_mergeSort
    (fun row : DatabaseStatisticWithPercentage => OrderDual.toDual row.value)
    (rowOf total totalRowKey total :: stats.map (fun stat => rowOf total stat.key stat.value))
  rw [hpage, ← htotal]
  refine ⟨hperm, ?_, ?_, fun row hrow => ?_, fun hne row hrow hle => ?_⟩
  · refine hsorted.imp_of_mem (fun {a b} ha hb hab => ⟨hab, ?_⟩)
    rw [mem_page hperm ha, mem_page hperm hb]
    exact percentageOf_mono hab
  · -- the stable sort puts before the total exactly the rows of a greater value
    obtain ⟨before, after, hcons, htail, hbefore, hafter⟩ := StableSort.mergeSort_cons_split
      (StableSort.key_trans (fun row : DatabaseStatisticWithPercentage => OrderDual.toDual row.value))
      (StableSort.key_total (fun row : DatabaseStatisticWithPercentage => OrderDual.toDual row.value))
      (rowOf total totalRowKey total) (stats.map (fun stat => rowOf total stat.key stat.value))
    have hrest : ∀ row, row ∈ before ++ after ↔
        row ∈ stats.map (fun stat => rowOf total stat.key stat.value) := fun row => by
      rw [← htail, List.mem_mergeSort]
    constructor
    · rintro ⟨rest, hfirst⟩ stat hstat
      have hnil : before = [] := by
        cases hb : before with
        | nil => rfl
        | cons row before' =>
            have hhead : row = rowOf total totalRowKey total := by
              have heq := hcons.symm.trans hfirst
              rw [hb] at heq
              exact (List.cons.inj heq).1
            have hlt := hbefore row (by rw [hb]; exact List.mem_cons_self)
            rw [hhead] at hlt
            exact absurd le_rfl (of_decide_eq_false hlt)
      rw [hnil, List.nil_append] at hrest
      exact of_decide_eq_true (hafter _ ((hrest _).2 (List.mem_map_of_mem hstat)))
    · intro hall
      have hnil : before = [] := by
        rw [List.eq_nil_iff_forall_not_mem]
        intro row hrow
        obtain ⟨stat, hstat, rfl⟩ := List.mem_map.1 ((hrest row).1 (List.mem_append_left _ hrow))
        exact of_decide_eq_false (hbefore _ hrow) (hall stat hstat)
      rw [hnil, List.nil_append] at hcons
      exact ⟨after, hcons⟩
  · rw [mem_page hperm hrow]
    exact ⟨percentageOf_nonneg, percentageOf_le⟩
  · rw [mem_page hperm hrow]
    exact abs_percentageOf_sub_le hle hne

/-- What is off by a tolerance in each term is off by as many tolerances in the sum. -/
theorem abs_sum_sub_le (total : ℕ) (values : List ℕ) (hle : ∀ value ∈ values, value ≤ total)
    (hne : total ≠ 0) :
    |(values.map (percentageOf 2 total)).sum - 100 * (values.sum / total)| ≤
      values.length * tolerance 2 := by
  induction values with
  | nil => simp
  | cons value values ih =>
      have hhead : |percentageOf 2 total value - 100 * (value / total)| ≤ tolerance 2 :=
        abs_percentageOf_sub_le (hle value List.mem_cons_self) hne
      have htail := ih (fun value' hvalue' => hle value' (List.mem_cons_of_mem _ hvalue'))
      rw [List.map_cons, List.sum_cons, List.sum_cons, List.length_cons, Nat.cast_add, Nat.cast_add,
        Nat.cast_one, add_div, mul_add, add_mul, one_mul]
      rw [abs_le] at *
      constructor <;> linarith

theorem sum_percentages {total : ℕ} (htotal : total = totalOf none stats) (hne : total ≠ 0) :
    |(percentages total stats).sum - 100| ≤ stats.length * tolerance 2 := by
  have hsum := abs_sum_sub_le total (stats.map (fun stat => stat.value))
    (fun value hvalue => htotal ▸ List.single_le_sum (fun _ _ => Nat.zero_le _) value hvalue) hne
  have hcast : (((stats.map (fun stat => stat.value)).sum : ℕ) : ℚ) / total = 1 := by
    have heq : (stats.map (fun stat => stat.value)).sum = total := htotal.symm
    rw [heq, div_self (by exact_mod_cast hne)]
  rw [List.map_map, hcast, mul_one, List.length_map] at hsum
  exact hsum

/-- Of every page, and of those whose total is the sum of their statistics. -/
theorem statistics_pages_consistent (totalRowKey : String) (totalOverride : Option ℕ)
    (stats : List DatabaseStatisticModel) :
    PageConsistent totalRowKey (totalOf totalOverride stats) stats
        (statisticsPage totalRowKey totalOverride stats) ∧
      (totalOverride = none → (∀ stat ∈ stats, stat.value ≤ totalOf none stats) ∧
        (totalOf none stats ≠ 0 →
          |(percentages (totalOf none stats) stats).sum - 100| ≤ stats.length * tolerance 2)) := by
  refine ⟨statisticsPage_consistent totalOverride, fun _ => ⟨fun stat hstat => ?_, fun hne => ?_⟩⟩
  · exact List.single_le_sum (fun _ _ => Nat.zero_le _) stat.value
      (List.mem_map_of_mem (f := fun stat : DatabaseStatisticModel => stat.value) hstat)
  · exact sum_percentages rfl hne

end Pages

end SimplyTransport.StatisticsPages

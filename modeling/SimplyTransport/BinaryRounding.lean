import Mathlib.Data.Int.Log
import Mathlib.Data.Rat.Floor
import Mathlib.Tactic.Linarith
import Mathlib.Tactic.NormNum

/-!
# Rounding to binary floating-point numbers

A positive rational is rounded to the nearest multiple of a power of two that leaves it `digits`
binary digits, to the even multiple of two nearest ones. No power below `minExponent` is used.
Rounding does not pass a whole number of at most `digits` digits.
-/

namespace BinaryRounding

/-- The nearest whole number, the even one of two. -/
def roundHalfEven (x : ℚ) : ℤ :=
  if x - ⌊x⌋ < 1 / 2 then ⌊x⌋
  else if 1 / 2 < x - ⌊x⌋ then ⌊x⌋ + 1
  else if Even ⌊x⌋ then ⌊x⌋ else ⌊x⌋ + 1

section Whole

variable {x : ℚ} {n : ℤ}

theorem roundHalfEven_le_floor_add_one (x : ℚ) : roundHalfEven x ≤ ⌊x⌋ + 1 := by
  unfold roundHalfEven
  split_ifs <;> omega

theorem roundHalfEven_intCast (n : ℤ) : roundHalfEven n = n := by
  unfold roundHalfEven
  rw [Int.floor_intCast, sub_self, if_pos one_half_pos]

theorem roundHalfEven_le (h : x ≤ n) : roundHalfEven x ≤ n := by
  rcases h.eq_or_lt with rfl | hlt
  · rw [roundHalfEven_intCast]
  · have hfloor : ⌊x⌋ < n := Int.floor_lt.2 hlt
    have hround := roundHalfEven_le_floor_add_one x
    omega

theorem sub_half_le_roundHalfEven (x : ℚ) : x - 1 / 2 ≤ roundHalfEven x := by
  have hfloor := Int.lt_floor_add_one x
  unfold roundHalfEven
  split_ifs with hlow hhigh heven
  · linarith
  · push_cast
    linarith
  · linarith
  · push_cast
    linarith

theorem roundHalfEven_le_add_half (x : ℚ) : (roundHalfEven x : ℚ) ≤ x + 1 / 2 := by
  have hfloor := Int.floor_le x
  unfold roundHalfEven
  split_ifs with hlow hhigh heven
  · linarith
  · push_cast
    linarith
  · linarith
  · push_cast
    linarith

theorem floor_le_roundHalfEven (x : ℚ) : ⌊x⌋ ≤ roundHalfEven x := by
  unfold roundHalfEven
  split_ifs <;> omega

theorem le_roundHalfEven (h : (n : ℚ) ≤ x) : n ≤ roundHalfEven x :=
  (Int.le_floor.2 h).trans (floor_le_roundHalfEven x)

theorem roundHalfEven_mono {x y : ℚ} (h : x ≤ y) : roundHalfEven x ≤ roundHalfEven y := by
  rcases (Int.floor_mono h).lt_or_eq with hlt | heq
  · have hx := roundHalfEven_le_floor_add_one x
    have hy := floor_le_roundHalfEven y
    omega
  · -- the fractions decide, and an exact half rounds alike in both
    unfold roundHalfEven
    rw [heq]
    split_ifs <;> first | omega | (exfalso; linarith)

end Whole

section Round

variable (digits : ℕ) (minExponent : ℤ)

def lastExponent (x : ℚ) : ℤ := max (Int.log 2 x + 1 - digits) minExponent

def round (x : ℚ) : ℚ :=
  roundHalfEven (x / 2 ^ lastExponent digits minExponent x) *
    2 ^ lastExponent digits minExponent x

variable {digits minExponent} {x : ℚ} {n : ℤ}

/-- What is a whole multiple of the last digit is not passed. -/
theorem round_le_of_multiple {k : ℤ} (h : x ≤ k * 2 ^ lastExponent digits minExponent x) :
    round digits minExponent x ≤ k * 2 ^ lastExponent digits minExponent x := by
  have hpos : (0 : ℚ) < 2 ^ lastExponent digits minExponent x := zpow_pos two_pos _
  unfold round
  rw [mul_le_mul_iff_left₀ hpos, Int.cast_le]
  exact roundHalfEven_le ((div_le_iff₀ hpos).2 h)

theorem lastExponent_nonpos (hx : 0 < x) (hlt : x < 2 ^ digits) (hmin : minExponent ≤ 0) :
    lastExponent digits minExponent x ≤ 0 := by
  have hlog : Int.log 2 x < digits := by
    rw [← Int.lt_zpow_iff_log_lt one_lt_two hx]
    exact_mod_cast hlt
  exact max_le (by omega) hmin

theorem lastExponent_two_pow (hmin : minExponent ≤ 0) :
    lastExponent digits minExponent (2 ^ digits) = 1 := by
  have hlog : Int.log 2 (2 ^ digits : ℚ) = digits := by
    exact_mod_cast Int.log_zpow (R := ℚ) one_lt_two (digits : ℤ)
  rw [lastExponent, hlog, add_sub_cancel_left]
  exact max_eq_left (hmin.trans zero_le_one)

theorem exists_multiple (hx : 0 < x) (hxn : x ≤ n) (hn : (n : ℚ) ≤ 2 ^ digits)
    (hdigits : 0 < digits) (hmin : minExponent ≤ 0) :
    ∃ k : ℤ, (n : ℚ) = k * 2 ^ lastExponent digits minExponent x := by
  rcases (hxn.trans hn).lt_or_eq with hlt | rfl
  · obtain ⟨e, he⟩ := Int.eq_ofNat_of_zero_le (neg_nonneg.2 (lastExponent_nonpos hx hlt hmin))
    refine ⟨n * 2 ^ e, ?_⟩
    rw [← neg_neg (lastExponent digits minExponent x), he, zpow_neg]
    push_cast
    rw [zpow_natCast]
    exact (mul_inv_cancel_right₀ (pow_ne_zero e two_ne_zero) (n : ℚ)).symm
  · obtain ⟨d, rfl⟩ := Nat.exists_eq_succ_of_ne_zero hdigits.ne'
    refine ⟨2 ^ d, ?_⟩
    rw [lastExponent_two_pow hmin, hn.antisymm hxn, zpow_one, pow_succ]
    push_cast
    rfl

/-- Whole numbers that have few enough digits are not passed. -/
theorem round_le (hx : 0 < x) (hxn : x ≤ n) (hn : (n : ℚ) ≤ 2 ^ digits) (hdigits : 0 < digits)
    (hmin : minExponent ≤ 0) : round digits minExponent x ≤ n := by
  obtain ⟨k, hk⟩ := exists_multiple hx hxn hn hdigits hmin
  have hround := round_le_of_multiple (hxn.trans hk.le)
  rwa [← hk] at hround

theorem sub_half_le_round (x : ℚ) :
    x - 2 ^ lastExponent digits minExponent x / 2 ≤ round digits minExponent x := by
  have hpos : (0 : ℚ) < 2 ^ lastExponent digits minExponent x := zpow_pos two_pos _
  have hhalf := mul_le_mul_of_nonneg_right
    (sub_half_le_roundHalfEven (x / 2 ^ lastExponent digits minExponent x)) hpos.le
  rw [sub_mul, div_mul_cancel₀ _ hpos.ne'] at hhalf
  unfold round
  linarith

/-- Where the least exponent does not matter, half of the last digit is a small part of the number. -/
theorem half_lastDigit_le (hx : 0 < x) (hmin : minExponent ≤ Int.log 2 x + 1 - digits) :
    (2 : ℚ) ^ lastExponent digits minExponent x / 2 ≤ x / 2 ^ digits := by
  have hlog : (2 : ℚ) ^ Int.log 2 x ≤ x := by
    exact_mod_cast Int.zpow_log_le_self one_lt_two hx
  have heq : (2 : ℚ) ^ lastExponent digits minExponent x / 2 = 2 ^ Int.log 2 x / 2 ^ digits := by
    rw [lastExponent, max_eq_left hmin, zpow_sub₀ two_ne_zero, zpow_add₀ two_ne_zero, zpow_one,
      zpow_natCast, div_right_comm, mul_div_cancel_right₀ _ two_ne_zero]
  rw [heq]
  exact div_le_div_of_nonneg_right hlog (by positivity)

theorem zpow_lastExponent_pos (digits : ℕ) (minExponent : ℤ) (x : ℚ) :
    (0 : ℚ) < 2 ^ lastExponent digits minExponent x := zpow_pos two_pos _

theorem le_round_of_multiple {k : ℤ} (h : k * 2 ^ lastExponent digits minExponent x ≤ x) :
    k * 2 ^ lastExponent digits minExponent x ≤ round digits minExponent x := by
  have hpos := zpow_lastExponent_pos digits minExponent x
  unfold round
  rw [mul_le_mul_iff_left₀ hpos, Int.cast_le]
  exact le_roundHalfEven ((le_div_iff₀ hpos).2 h)

theorem round_nonneg (hx : 0 ≤ x) : 0 ≤ round digits minExponent x := by
  have hmultiple : (0 : ℤ) * 2 ^ lastExponent digits minExponent x ≤ x := by simpa using hx
  simpa using le_round_of_multiple hmultiple

/-- A power of two that is not below the last digit is a multiple of it. -/
theorem two_zpow_eq_multiple {e k : ℤ} (h : e ≤ k) : ∃ m : ℤ, (2 : ℚ) ^ k = m * 2 ^ e := by
  obtain ⟨n, hn⟩ := Int.eq_ofNat_of_zero_le (Int.sub_nonneg.2 h)
  refine ⟨2 ^ n, ?_⟩
  rw [← Int.sub_add_cancel k e, hn, zpow_add₀ two_ne_zero]
  push_cast
  rw [zpow_natCast]

/-- Two numbers of different last digits are on different sides of a power of two. -/
theorem round_mono (hdigits : 0 < digits) {x y : ℚ} (hx : 0 < x) (h : x ≤ y) :
    round digits minExponent x ≤ round digits minExponent y := by
  have hy : 0 < y := hx.trans_le h
  have hlog : Int.log 2 x ≤ Int.log 2 y := Int.log_mono_right hx h
  rcases (show lastExponent digits minExponent x ≤ lastExponent digits minExponent y by
    unfold lastExponent; omega).lt_or_eq with hlt | heq
  · have hpower : x ≤ 2 ^ Int.log 2 y := by
      have hsucc : x < 2 ^ (Int.log 2 x + 1) := by
        exact_mod_cast Int.lt_zpow_succ_log_self one_lt_two x
      refine hsucc.le.trans (zpow_le_zpow_right₀ one_le_two ?_)
      unfold lastExponent at hlt
      omega
    have hpower' : (2 : ℚ) ^ Int.log 2 y ≤ y := by
      exact_mod_cast Int.zpow_log_le_self one_lt_two hy
    have hexp : lastExponent digits minExponent y ≤ Int.log 2 y := by
      unfold lastExponent at hlt ⊢
      omega
    obtain ⟨k, hk⟩ := two_zpow_eq_multiple (hlt.le.trans hexp)
    obtain ⟨k', hk'⟩ := two_zpow_eq_multiple hexp
    calc round digits minExponent x ≤ k * 2 ^ lastExponent digits minExponent x :=
          round_le_of_multiple (hpower.trans hk.le)
      _ = k' * 2 ^ lastExponent digits minExponent y := by rw [← hk, hk']
      _ ≤ round digits minExponent y := le_round_of_multiple (hk'.symm.le.trans hpower')
  · unfold round
    rw [heq, mul_le_mul_iff_left₀ (zpow_lastExponent_pos digits minExponent y), Int.cast_le]
    exact roundHalfEven_mono (div_le_div_of_nonneg_right h
      (zpow_lastExponent_pos digits minExponent y).le)

theorem round_zero : round digits minExponent 0 = 0 := by
  have h : roundHalfEven 0 = 0 := by exact_mod_cast roundHalfEven_intCast 0
  rw [round, zero_div, h, Int.cast_zero, zero_mul]

theorem round_mono_of_nonneg (hdigits : 0 < digits) {x y : ℚ} (hx : 0 ≤ x) (h : x ≤ y) :
    round digits minExponent x ≤ round digits minExponent y := by
  rcases hx.lt_or_eq with hpos | rfl
  · exact round_mono hdigits hpos h
  · rw [round_zero]
    exact round_nonneg h

theorem round_intCast (hn : 0 ≤ n) (hle : (n : ℚ) ≤ 2 ^ digits) (hdigits : 0 < digits)
    (hmin : minExponent ≤ 0) : round digits minExponent n = n := by
  rcases hn.lt_or_eq with hpos | rfl
  · have hpos' : (0 : ℚ) < n := by exact_mod_cast hpos
    obtain ⟨k, hk⟩ := exists_multiple hpos' le_rfl hle hdigits hmin
    apply le_antisymm (round_le hpos' le_rfl hle hdigits hmin)
    have hge := le_round_of_multiple hk.symm.le
    rwa [← hk] at hge
  · exact_mod_cast round_zero

theorem round_le_add_half (x : ℚ) :
    round digits minExponent x ≤ x + 2 ^ lastExponent digits minExponent x / 2 := by
  have hpos := zpow_lastExponent_pos digits minExponent x
  have hhalf := mul_le_mul_of_nonneg_right
    (roundHalfEven_le_add_half (x / 2 ^ lastExponent digits minExponent x)) hpos.le
  rw [add_mul, div_mul_cancel₀ _ hpos.ne'] at hhalf
  unfold round
  linarith

/-- The error is a small part of the number, or of the least one that has all its digits. -/
theorem abs_round_sub_le (hx : 0 < x) :
    |round digits minExponent x - x| ≤ x / 2 ^ digits + 2 ^ minExponent := by
  have hdiff : |round digits minExponent x - x| ≤ 2 ^ lastExponent digits minExponent x / 2 := by
    rw [abs_le]
    have hlow := @sub_half_le_round digits minExponent x
    have hhigh := @round_le_add_half digits minExponent x
    constructor <;> linarith
  have hmin : (0 : ℚ) < 2 ^ minExponent := zpow_pos two_pos _
  rcases le_or_gt minExponent (Int.log 2 x + 1 - digits) with h | h
  · have hhalf := half_lastDigit_le hx h
    linarith
  · rw [lastExponent, max_eq_right h.le] at hdiff
    have hpart : (0 : ℚ) ≤ x / 2 ^ digits := by positivity
    linarith

end Round

end BinaryRounding

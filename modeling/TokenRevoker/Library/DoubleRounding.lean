import Mathlib.Algebra.Order.Round
import Mathlib.Data.Nat.Log
import Mathlib.Tactic

/-! Rounding of an exact rational to a double: to the nearest multiple of the last place,
ties to even. It is exact for numbers that are zero or at least one in absolute value and
far below the largest double. Between zero and one the last place stays that of one, which
is coarser than a double's; what is rounded to there still lies between zero and one. -/
namespace DoubleRounding

/-- The nearest integer, ties to even. -/
def roundEven (y : ℚ) : ℤ :=
  if y - ⌊y⌋ < 1 / 2 then ⌊y⌋
  else if 1 / 2 < y - ⌊y⌋ then ⌊y⌋ + 1
  else ⌊y⌋ + ⌊y⌋ % 2

theorem abs_roundEven_sub (y : ℚ) : |(roundEven y : ℚ) - y| ≤ 1 / 2 := by
  have hFloor := Int.floor_le y
  have hNext := Int.lt_floor_add_one y
  have hMod : (0 : ℚ) ≤ (⌊y⌋ % 2 : ℤ) ∧ ((⌊y⌋ % 2 : ℤ) : ℚ) ≤ 1 := by
    constructor <;> norm_cast <;> omega
  unfold roundEven
  split_ifs <;> push_cast at hMod ⊢ <;> rw [abs_le] <;> constructor <;> linarith

/-- An integer stays on its side of what is rounded. -/
theorem le_roundEven {y : ℚ} {n : ℤ} (h : (n : ℚ) ≤ y) : n ≤ roundEven y := by
  have hAbs := abs_le.mp (abs_roundEven_sub y)
  have hLt : (n : ℚ) - 1 < roundEven y := by linarith
  have : n - 1 < roundEven y := by exact_mod_cast hLt
  omega

/-- The exponent of a number from one on. -/
def exponent (x : ℚ) : Nat := Nat.log 2 ⌊x⌋₊

/-- The unit in the last place of 53 significant bits. It is a power of two, so the quotient by
it is exact. -/
def ulp (x : ℚ) : ℚ := 2 ^ exponent x / 2 ^ 52

def roundMagnitude (x : ℚ) : ℚ := roundEven (x / ulp x) * ulp x

/-- The double nearest to a number. -/
def round (x : ℚ) : ℚ := if x < 0 then -roundMagnitude (-x) else roundMagnitude x

variable {x : ℚ}

theorem ulp_pos (x : ℚ) : 0 < ulp x := by
  unfold ulp
  positivity

theorem round_of_nonneg (h : 0 ≤ x) : round x = roundMagnitude x := if_neg (not_lt.mpr h)

/-- Rounding moves a number by half a unit at most. -/
theorem abs_round_sub (h : 0 ≤ x) : |round x - x| ≤ ulp x / 2 := by
  have hUlp := ulp_pos x
  have hEq : round x - x = (roundEven (x / ulp x) - x / ulp x) * ulp x := by
    rw [round_of_nonneg h, roundMagnitude, sub_mul, div_mul_cancel₀ _ hUlp.ne']
  rw [hEq, abs_mul, abs_of_pos hUlp]
  have := mul_le_mul_of_nonneg_right (abs_roundEven_sub (x / ulp x)) hUlp.le
  linarith

theorem two_pow_exponent_le (h : 1 ≤ x) : (2 : ℚ) ^ exponent x ≤ x := by
  have hFloor : ⌊x⌋₊ ≠ 0 := (Nat.floor_pos.mpr h).ne'
  calc (2 : ℚ) ^ exponent x ≤ (⌊x⌋₊ : ℚ) := by exact_mod_cast Nat.pow_log_le_self 2 hFloor
    _ ≤ x := Nat.floor_le (by linarith)

/-- A number is not rounded below the power of two under it. -/
theorem two_pow_exponent_le_round (h : 1 ≤ x) : (2 : ℚ) ^ exponent x ≤ round x := by
  have hUlp := ulp_pos x
  have hBits : ((2 ^ 52 : ℤ) : ℚ) ≤ x / ulp x := by
    rw [le_div_iff₀ hUlp, ulp]
    have := two_pow_exponent_le h
    push_cast
    linarith
  have hRound : ((2 ^ 52 : ℤ) : ℚ) ≤ roundEven (x / ulp x) := by exact_mod_cast le_roundEven hBits
  rw [round_of_nonneg (by linarith), roundMagnitude]
  calc (2 : ℚ) ^ exponent x = ((2 ^ 52 : ℤ) : ℚ) * ulp x := by
        rw [ulp]
        push_cast
        ring
    _ ≤ _ := mul_le_mul_of_nonneg_right hRound hUlp.le

theorem one_le_round (h : 1 ≤ x) : 1 ≤ round x :=
  (one_le_pow₀ one_le_two).trans (two_pow_exponent_le_round h)

theorem round_nonpos (h : x ≤ 0) : round x ≤ 0 := by
  rcases h.lt_or_eq with h | rfl
  · have hUlp := ulp_pos (-x)
    have hRound : (0 : ℚ) ≤ roundEven (-x / ulp (-x)) := by
      exact_mod_cast le_roundEven (n := 0) (by
        rw [Int.cast_zero]
        exact div_nonneg (by linarith) hUlp.le)
    rw [round, if_pos h, roundMagnitude, neg_nonpos]
    exact mul_nonneg hRound hUlp.le
  · simp [round, roundMagnitude, roundEven]

/-- Where the last place is no larger than one, no integer lies between a number and what
it is rounded to. -/
theorem le_of_round_lt (hPos : 1 ≤ x) (hExponent : exponent x ≤ 52) {n : ℤ} (hRound : round x < n) :
    x ≤ n := by
  by_contra hLess
  have hUlp := ulp_pos x
  -- in units of the last place the integer is an integer again
  have hUnits : (n : ℚ) = ((n * 2 ^ (52 - exponent x) : ℤ) : ℚ) * ulp x := by
    have hPow : (2 : ℚ) ^ 52 = 2 ^ (52 - exponent x) * 2 ^ exponent x := by
      rw [← pow_add, Nat.sub_add_cancel hExponent]
    rw [ulp, hPow]
    push_cast
    field_simp
  have hBelow : ((n * 2 ^ (52 - exponent x) : ℤ) : ℚ) ≤ x / ulp x := by
    rw [le_div_iff₀ hUlp, ← hUnits]
    linarith
  have hLe : (((n * 2 ^ (52 - exponent x) : ℤ)) : ℚ) ≤ roundEven (x / ulp x) := by
    exact_mod_cast le_roundEven hBelow
  rw [round_of_nonneg (by linarith), roundMagnitude, hUnits] at hRound
  exact absurd (mul_le_mul_of_nonneg_right hLe hUlp.le) (not_le.mpr hRound)

end DoubleRounding

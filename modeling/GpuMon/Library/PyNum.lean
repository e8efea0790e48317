import Mathlib.Tactic
import Mathlib.Data.Rat.Floor

/-!
# Python's rounding, over exact rationals

`round(x, n)` rounds to the nearest multiple of `10 ^ -n`, ties to the even neighbour;
`int(x)` drops the fractional part.
-/

namespace PyNum

/-- `round(x)`: the nearest integer, the even one when two are equally near. -/
def roundHalfEven (x : ℚ) : Int :=
  let low := ⌊x⌋
  let frac := x - low
  if frac < 1 / 2 then low
  else if 1 / 2 < frac then low + 1
  else if low % 2 = 0 then low else low + 1

/-- `round(x, digits)`. -/
def roundTo (digits : Nat) (x : ℚ) : ℚ := roundHalfEven (x * 10 ^ digits) / 10 ^ digits

theorem floor_le_roundHalfEven (x : ℚ) : ⌊x⌋ ≤ roundHalfEven x := by
  unfold roundHalfEven
  dsimp only
  split_ifs <;> omega

theorem roundHalfEven_le_ceil (x : ℚ) : roundHalfEven x ≤ ⌈x⌉ := by
  unfold roundHalfEven
  dsimp only
  have hFloor := Int.floor_le_ceil x
  -- without a fraction the number is its own floor; with one the ceiling is the next integer
  have hNext : ¬x - ⌊x⌋ < 1 / 2 → ⌊x⌋ + 1 ≤ ⌈x⌉ := by
    intro h
    refine Int.lt_ceil.mpr ?_
    linarith
  split_ifs <;> first | omega | exact hNext ‹_›

theorem roundHalfEven_intCast (n : Int) : roundHalfEven n = n := by
  apply le_antisymm
  · exact (roundHalfEven_le_ceil n).trans_eq (Int.ceil_intCast n)
  · exact (Int.floor_intCast n).symm.trans_le (floor_le_roundHalfEven n)

/-- The rounded number is at most a half away. -/
theorem abs_roundHalfEven_sub_le (x : ℚ) : |(roundHalfEven x : ℚ) - x| ≤ 1 / 2 := by
  have hFloor : (⌊x⌋ : ℚ) ≤ x := Int.floor_le x
  have hNext : x < ⌊x⌋ + 1 := Int.lt_floor_add_one x
  rw [abs_le]
  unfold roundHalfEven
  dsimp only
  split_ifs <;> push_cast <;> constructor <;> linarith

/-- Numbers more than one apart are rounded to different ones. -/
theorem roundHalfEven_lt_of_add_one_lt {x y : ℚ} (h : x + 1 < y) :
    roundHalfEven x < roundHalfEven y := by
  have hx := abs_le.mp (abs_roundHalfEven_sub_le x)
  have hy := abs_le.mp (abs_roundHalfEven_sub_le y)
  have hLt : (roundHalfEven x : ℚ) < roundHalfEven y := by linarith [hx.2, hy.1]
  exact_mod_cast hLt

/-- Rounding does not leave an interval between integers. -/
theorem roundTo_mem {digits : Nat} {x : ℚ} (lo hi : Int) (hLo : lo ≤ x) (hHi : x ≤ hi) :
    lo ≤ roundTo digits x ∧ roundTo digits x ≤ hi := by
  have hPow : (0 : ℚ) < 10 ^ digits := by positivity
  unfold roundTo
  rw [le_div_iff₀ hPow, div_le_iff₀ hPow]
  constructor
  · have hScaled : ((lo * 10 ^ digits : Int) : ℚ) ≤ x * 10 ^ digits := by
      push_cast
      exact mul_le_mul_of_nonneg_right hLo hPow.le
    have := (Int.le_floor.mpr hScaled).trans (floor_le_roundHalfEven _)
    exact_mod_cast this
  · have hScaled : x * 10 ^ digits ≤ ((hi * 10 ^ digits : Int) : ℚ) := by
      push_cast
      exact mul_le_mul_of_nonneg_right hHi hPow.le
    have := (roundHalfEven_le_ceil _).trans (Int.ceil_le.mpr hScaled)
    exact_mod_cast this

/-- What rounds to zero from below is not negative. -/
theorem roundHalfEven_nonneg_iff {x : ℚ} : 0 ≤ roundHalfEven x ↔ -(1 / 2) ≤ x := by
  have hFloor : (⌊x⌋ : ℚ) ≤ x := Int.floor_le x
  have hNext : x < ⌊x⌋ + 1 := Int.lt_floor_add_one x
  rcases lt_trichotomy ⌊x⌋ (-1) with hLow | hLow | hLow
  · have hLt : x < -1 := by
      have : (⌊x⌋ : ℚ) ≤ -2 := by exact_mod_cast Int.le_sub_one_of_lt hLow
      linarith
    have hLe := roundHalfEven_le_ceil x
    have hCeil : ⌈x⌉ ≤ -1 := Int.ceil_le.mpr (by exact_mod_cast hLt.le)
    exact iff_of_false (by omega) (by linarith)
  · -- between -1 and 0 the fraction decides; the tie goes to the even 0
    have hCast : (⌊x⌋ : ℚ) = -1 := by exact_mod_cast hLow
    unfold roundHalfEven
    dsimp only
    rw [hCast, hLow]
    by_cases hHalf : x - -1 < 1 / 2
    · rw [if_pos hHalf]
      exact iff_of_false (by decide) (by linarith)
    · rw [if_neg hHalf]
      refine iff_of_true ?_ (by linarith)
      split_ifs <;> simp_all
  · have hZero : 0 ≤ ⌊x⌋ := by omega
    have hPos : (0 : ℚ) ≤ ⌊x⌋ := by exact_mod_cast hZero
    exact iff_of_true (hZero.trans (floor_le_roundHalfEven x)) (by linarith)

theorem roundTo_nonneg_iff {digits : Nat} {x : ℚ} :
    0 ≤ roundTo digits x ↔ -(1 / 2) ≤ x * 10 ^ digits := by
  have hPow : (0 : ℚ) < 10 ^ digits := by positivity
  rw [roundTo, le_div_iff₀ hPow, zero_mul, ← roundHalfEven_nonneg_iff]
  exact Int.cast_nonneg_iff

/-- What is rounded is not rounded again. -/
theorem roundTo_roundTo (digits : Nat) (x : ℚ) :
    roundTo digits (roundTo digits x) = roundTo digits x := by
  have hPow : (10 : ℚ) ^ digits ≠ 0 := by positivity
  have hScaled : roundTo digits x * 10 ^ digits = roundHalfEven (x * 10 ^ digits) :=
    div_mul_cancel₀ _ hPow
  rw [roundTo, hScaled, roundHalfEven_intCast]
  rfl

theorem roundTo_intCast (digits : Nat) (n : Int) : roundTo digits n = n := by
  have hPow : (10 : ℚ) ^ digits ≠ 0 := by positivity
  have hScaled : (n : ℚ) * 10 ^ digits = ((n * 10 ^ digits : Int) : ℚ) := by push_cast; rfl
  rw [roundTo, hScaled, roundHalfEven_intCast, ← hScaled]
  exact mul_div_cancel_right₀ _ hPow

/-- `int(x)`: truncation towards zero. -/
def truncate (x : ℚ) : Int := if 0 ≤ x then ⌊x⌋ else ⌈x⌉

end PyNum

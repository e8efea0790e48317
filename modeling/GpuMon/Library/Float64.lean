import GpuMon.Library.PyFloat
import Mathlib.Data.Int.Log

/-!
# Arithmetic in binary64

A number is the rational it stands for, an infinity or `nan`; the two zeros are one. Results are
rounded to the nearest number of the format, ties to the even one.

* `le_greatest`: a rounded number is at most the greatest of the format.
* `isSome_average?`: so the average of rounded numbers is in range again.
-/

open PyNum

namespace PyFloat

/-! ## Rounding -/

/-- The distance of the numbers around `x`: 53 binary digits, fewer for the smallest. -/
def ulp (x : ℚ) : ℚ := 2 ^ max (Int.log 2 |x| - 52) (-1074)

def roundBinary (x : ℚ) : ℚ := roundHalfEven (x / ulp x) * ulp x

def nearest (x : ℚ) : PyFloat :=
  if overflow ≤ x then .infinite false
  else if x ≤ -overflow then .infinite true
  else .finite (roundBinary x)

/-- The number for a literal. -/
def binary64 : PyFloat → PyFloat
  | finite x => nearest x
  | y => y

def greatest : ℚ := (2 ^ 53 - 1) * 2 ^ 971

def isFinite : PyFloat → Bool
  | finite _ => true
  | _ => false

theorem isSome_truncate? (x : PyFloat) : (truncate? x).isSome = x.isFinite := by
  cases x <;> rfl

/-! ## Operations -/

def add : PyFloat → PyFloat → PyFloat
  | finite x, finite y => nearest (x + y)
  | nan, _ => nan
  | _, nan => nan
  | infinite a, infinite b => if a = b then infinite a else nan
  | infinite a, finite _ => infinite a
  | finite _, infinite b => infinite b

def sub (x y : PyFloat) : PyFloat := add x (neg y)

/-- Whether the sign is negative; zero counts as positive. -/
def isNegative : PyFloat → Bool
  | finite x => x < 0
  | infinite negative => negative
  | nan => false

def mul : PyFloat → PyFloat → PyFloat
  | finite x, finite y => nearest (x * y)
  | nan, _ => nan
  | _, nan => nan
  | x, y => if x = 0 ∨ y = 0 then nan else infinite (x.isNegative != y.isNegative)

/-- `x / q` for a number `q` that is not zero. -/
def divBy (q : ℚ) : PyFloat → PyFloat
  | finite x => nearest (x / q)
  | infinite negative => infinite (negative != (q < 0))
  | nan => nan

/-- `x / y`; `none` is a `ZeroDivisionError`. -/
def div? : PyFloat → PyFloat → Option PyFloat
  | x, finite y => if y = 0 then none else some (divBy y x)
  | finite _, infinite _ => some 0
  | _, _ => some nan

/-- `x / y` for a number `y` that is not zero. -/
def div (x y : PyFloat) : PyFloat := (div? x y).getD nan

/-- `x < y`, false where one of them is `nan`. -/
def lt : PyFloat → PyFloat → Bool
  | nan, _ => false
  | _, nan => false
  | finite x, finite y => x < y
  | infinite a, infinite b => a && !b
  | infinite a, finite _ => a
  | finite _, infinite b => !b

/-- `x <= y`. -/
def le : PyFloat → PyFloat → Bool
  | nan, _ => false
  | _, nan => false
  | x, y => !lt y x

/-- `max(x, y)` keeps the first unless the second is greater. -/
def maxOf (x y : PyFloat) : PyFloat := if lt x y then y else x

def minOf (x y : PyFloat) : PyFloat := if lt y x then y else x

def abs : PyFloat → PyFloat
  | finite x => finite |x|
  | infinite _ => infinite false
  | nan => nan

/-- `round(x, digits)`. -/
def roundDigits (digits : Nat) : PyFloat → PyFloat
  | finite x => nearest (roundTo digits x)
  | y => y

/-- `round(x)`; `none` is an `OverflowError` or a `ValueError`. -/
def roundInt? : PyFloat → Option Int
  | finite x => some (roundHalfEven x)
  | _ => none

theorem isSome_roundInt? (x : PyFloat) : (roundInt? x).isSome = x.isFinite := by
  cases x <;> rfl

/-- A step of `sum`: the sum so far, and what its roundings lost. -/
def sumStep (s : PyFloat × PyFloat) (x : PyFloat) : PyFloat × PyFloat :=
  let t := add s.1 x
  (t, add s.2 (if le (abs x) (abs s.1) then add (sub s.1 t) x else add (sub x t) s.1))

/-- `sum` of floats, with compensation. -/
def sum : List PyFloat → PyFloat
  | [] => 0
  | x :: rest =>
    let (total, lost) := rest.foldl sumStep (x, 0)
    if lost ≠ 0 ∧ lost.isFinite then add total lost else total

theorem ne_zero_of_not_le {x : PyFloat} (h : le x 0 = false) : x ≠ 0 := by
  rintro rfl
  exact absurd h (by decide)

theorem isSome_div? {y : PyFloat} (h : y ≠ 0) (x : PyFloat) : (div? x y).isSome = true := by
  cases y with
  | finite y =>
    have hy : y ≠ 0 := fun hy => h (congrArg finite hy)
    cases x <;> simp [div?, hy]
  | infinite => cases x <;> rfl
  | nan => cases x <;> rfl

/-! ## The range -/

theorem ulp_pos (x : ℚ) : 0 < ulp x := zpow_pos (by norm_num) _

theorem roundHalfEven_le {x : ℚ} {n : Int} (h : x ≤ n) : roundHalfEven x ≤ n :=
  (roundHalfEven_le_ceil x).trans (Int.ceil_le.mpr h)

theorem roundHalfEven_le_of_lt {x : ℚ} {n : Int} (h : x < n + 1 / 2) : roundHalfEven x ≤ n := by
  have hFloor : (⌊x⌋ : ℚ) ≤ x := Int.floor_le x
  have hLe : ⌊x⌋ ≤ n := by
    have : (⌊x⌋ : ℚ) < n + 1 := by linarith
    exact Int.lt_add_one_iff.mp (by exact_mod_cast this)
  rcases hLe.lt_or_eq with hLess | hSame
  · unfold roundHalfEven
    dsimp only
    split_ifs <;> omega
  · -- the fraction is less than a half
    have hCast : (⌊x⌋ : ℚ) = n := by exact_mod_cast hSame
    unfold roundHalfEven
    dsimp only
    rw [if_pos (by rw [hCast]; linarith)]
    exact hLe

/-- The last unit before overflow, halved. -/
def halfUnit : ℚ := 2 ^ 970

theorem halfUnit_pos : 0 < halfUnit := pow_pos (by norm_num) _

theorem two_pow_halfUnit (k : ℕ) : (2 : ℚ) ^ ((970 + k : ℕ) : Int) = 2 ^ k * halfUnit := by
  rw [zpow_natCast, pow_add, mul_comm, halfUnit]

theorem greatest_eq : greatest = (2 ^ 54 - 2) * halfUnit := by
  have hUnit : (2 : ℚ) ^ 971 = halfUnit * 2 := pow_succ 2 970
  rw [greatest, hUnit]
  ring

theorem overflow_eq : overflow = (2 ^ 54 - 1) * halfUnit := rfl

theorem greatest_lt_overflow : greatest < overflow := by
  rw [greatest_eq, overflow_eq]
  exact mul_lt_mul_of_pos_right (by norm_num) halfUnit_pos

theorem greatest_integer : ∃ g : Int, greatest = g := by
  refine ⟨(2 ^ 53 - 1) * 2 ^ 971, ?_⟩
  simp only [greatest, Int.cast_mul, Int.cast_sub, Int.cast_pow, Int.cast_ofNat, Int.cast_one]

/-- Below the last half of a unit nothing is rounded up out of range. -/
theorem roundBinary_le_greatest {x : ℚ} (h : x < overflow) : roundBinary x ≤ greatest := by
  have hHalf := halfUnit_pos
  have hGreatest : (2 : ℚ) ^ ((970 + 53 : ℕ) : Int) ≤ greatest := by
    rw [two_pow_halfUnit, greatest_eq]
    exact mul_le_mul_of_nonneg_right (by norm_num) hHalf.le
  rcases le_or_gt x 0 with hNeg | hPos
  · have hQuotient : x / ulp x ≤ (0 : Int) := by
      rw [Int.cast_zero]
      exact div_nonpos_of_nonpos_of_nonneg hNeg (ulp_pos x).le
    have hRound : (roundHalfEven (x / ulp x) : ℚ) ≤ 0 := by
      exact_mod_cast roundHalfEven_le hQuotient
    have hProduct := mul_nonpos_of_nonpos_of_nonneg hRound (ulp_pos x).le
    exact hProduct.trans (le_trans (by positivity) hGreatest)
  · have hAbs : |x| = x := abs_of_pos hPos
    have hLow := Int.zpow_log_le_self (b := 2) one_lt_two hPos
    have hHigh := Int.lt_zpow_succ_log_self (b := 2) one_lt_two x
    rw [Nat.cast_ofNat] at hLow hHigh
    have hLog : Int.log 2 x < 1024 := by
      have hTop : overflow < (2 : ℚ) ^ ((970 + 54 : ℕ) : Int) := by
        rw [two_pow_halfUnit, overflow_eq]
        exact mul_lt_mul_of_pos_right (by norm_num) hHalf
      exact (zpow_lt_zpow_iff_right₀ (a := (2 : ℚ)) one_lt_two).mp (hLow.trans_lt (h.trans hTop))
    unfold roundBinary ulp
    rw [hAbs]
    rcases lt_or_ge (Int.log 2 x) 1023 with hSmall | hLarge
    · -- the next power of two is a multiple of the unit
      generalize hUnit : max (Int.log 2 x - 52) (-1074) = e
      have he : e ≤ 970 := by omega
      have hPow : x ≤ 2 ^ ((970 + 53 : ℕ) : Int) :=
        hHigh.le.trans (zpow_le_zpow_right₀ one_le_two (by omega))
      have hSplit : (2 : ℚ) ^ ((970 + 53 : ℕ) : Int) =
          ((2 ^ (1023 - e).toNat : Int) : ℚ) * 2 ^ e := by
        rw [Int.cast_pow, Int.cast_ofNat, ← zpow_natCast (2 : ℚ) (1023 - e).toNat,
          Int.toNat_of_nonneg (by omega), ← zpow_add₀ two_ne_zero]
        exact congrArg (fun n : Int => (2 : ℚ) ^ n) (by omega)
      have hQuotient : x / 2 ^ e ≤ ((2 ^ (1023 - e).toNat : Int) : ℚ) := by
        rw [div_le_iff₀ (by positivity), ← hSplit]
        exact hPow
      have hRound : (roundHalfEven (x / 2 ^ e) : ℚ) ≤ ((2 ^ (1023 - e).toNat : Int) : ℚ) := by
        exact_mod_cast roundHalfEven_le hQuotient
      calc (roundHalfEven (x / 2 ^ e) : ℚ) * 2 ^ e
          ≤ ((2 ^ (1023 - e).toNat : Int) : ℚ) * 2 ^ e := by gcongr
        _ = 2 ^ ((970 + 53 : ℕ) : Int) := hSplit.symm
        _ ≤ greatest := hGreatest
    · have hExact : Int.log 2 x = 1023 := by omega
      rw [hExact]
      have hUnit : max ((1023 : Int) - 52) (-1074) = ((970 + 1 : ℕ) : Int) := by decide
      rw [hUnit, two_pow_halfUnit, pow_one]
      have hQuotient : x / (2 * halfUnit) < ((2 ^ 53 - 1 : Int) : ℚ) + 1 / 2 := by
        rw [div_lt_iff₀ (by positivity)]
        refine h.trans_le (le_of_eq ?_)
        rw [overflow_eq]
        push_cast
        ring
      have hRound : (roundHalfEven (x / (2 * halfUnit)) : ℚ) ≤ ((2 ^ 53 - 1 : Int) : ℚ) := by
        exact_mod_cast roundHalfEven_le_of_lt hQuotient
      calc (roundHalfEven (x / (2 * halfUnit)) : ℚ) * (2 * halfUnit)
          ≤ ((2 ^ 53 - 1 : Int) : ℚ) * (2 * halfUnit) := by gcongr
        _ = greatest := by
          rw [greatest_eq]
          push_cast
          ring

theorem le_greatest {x y : ℚ} (h : nearest x = finite y) : y ≤ greatest := by
  unfold nearest at h
  split_ifs at h with hHigh hLow
  cases h
  exact roundBinary_le_greatest (not_le.mp hHigh)

theorem isFinite_nearest {x : ℚ} (hLow : -overflow < x) (hHigh : x < overflow) :
    (nearest x).isFinite = true := by
  rw [nearest, if_neg (not_le.mpr hHigh), if_neg (not_le.mpr hLow)]
  rfl

/-- A literal that is a number of the format, rounded to an integer. -/
theorem roundInt?_le_greatest {y : PyFloat} {n : Int} (h : roundInt? (binary64 y) = some n) :
    (n : ℚ) ≤ greatest := by
  cases y with
  | finite x =>
    rw [binary64] at h
    cases hRound : nearest x with
    | finite z =>
      rw [hRound] at h
      obtain rfl := Option.some.inj h
      obtain ⟨g, hInteger⟩ := greatest_integer
      have hLe := le_greatest hRound
      rw [hInteger] at hLe ⊢
      exact_mod_cast roundHalfEven_le hLe
    | infinite => rw [hRound] at h; cases h
    | nan => rw [hRound] at h; cases h
  | infinite => cases h
  | nan => cases h

/-- `round(sum(values) / len(values))` for integers. -/
def average? (values : List Int) : Option Int :=
  roundInt? (nearest ((values.sum : ℚ) / values.length))

/-- The average of positive integers in range is in range. -/
theorem isSome_average? {values : List Int} (hne : values ≠ [])
    (hPos : ∀ n ∈ values, 0 < n) (hRange : ∀ n ∈ values, (n : ℚ) ≤ greatest) :
    (average? values).isSome = true := by
  have hLength : (0 : ℚ) < values.length := by
    exact_mod_cast List.length_pos_iff.mpr hne
  have hSum : ((values.sum : Int) : ℚ) ≤ values.length * greatest := by
    clear hLength hne hPos
    induction values with
    | nil => simp
    | cons n rest ih =>
      have hRest := ih fun m hm => hRange m (List.mem_cons_of_mem n hm)
      have hHead := hRange n List.mem_cons_self
      rw [List.sum_cons, List.length_cons, Int.cast_add, Nat.cast_succ, add_mul, one_mul]
      linarith
  have hNonneg : (0 : ℚ) ≤ values.sum := by
    exact_mod_cast List.sum_nonneg fun n hn => (hPos n hn).le
  rw [average?, isSome_roundInt?]
  refine isFinite_nearest ?_ ?_
  · have hOverflow : (0 : ℚ) < overflow := by
      rw [overflow_eq]
      exact mul_pos (by norm_num) halfUnit_pos
    exact (neg_neg_of_pos hOverflow).trans_le (div_nonneg hNonneg hLength.le)
  · refine ((div_le_iff₀ hLength).mpr ?_).trans_lt greatest_lt_overflow
    rw [mul_comm]
    exact hSum

end PyFloat

import GpuMon.Library.Float64

/-!
# Order in binary64

A number of the format is an integer of at most 53 binary digits times a power of two.

* `roundBinary_le`, `le_roundBinary`: rounding does not pass over a number of the format.
* `InFormat.sub`: the difference of two numbers that are at most a factor of two apart is one.
* `le_zero_roundDigits_iff`: what `round` takes for zero from below.
* `le_zero_sum`: the compensated sum of numbers that are not negative is not negative.
-/

open PyNum

namespace PyFloat

/-! ## Numbers of the format -/

/-- The value of a number in range, or beyond it. -/
def InFormat (x : ℚ) : Prop := ∃ m e : Int, |m| ≤ 2 ^ 53 ∧ -1074 ≤ e ∧ x = m * 2 ^ e

theorem inFormat_intCast {n : Int} (h : |n| ≤ 2 ^ 53) : InFormat n :=
  ⟨n, 0, h, by norm_num, by rw [zpow_zero, mul_one]⟩

theorem inFormat_zero : InFormat 0 := by
  have hZero := inFormat_intCast (n := 0) (by norm_num)
  rwa [Int.cast_zero] at hZero

theorem InFormat.neg {x : ℚ} (h : InFormat x) : InFormat (-x) := by
  obtain ⟨m, e, hm, he, rfl⟩ := h
  refine ⟨-m, e, by rwa [abs_neg], he, ?_⟩
  push_cast
  ring

theorem InFormat.two_mul {x : ℚ} (h : InFormat x) : InFormat (2 * x) := by
  obtain ⟨m, e, hm, he, rfl⟩ := h
  refine ⟨m, e + 1, hm, by omega, ?_⟩
  rw [zpow_add_one₀ two_ne_zero]
  ring

/-- A power of two on a smaller one. -/
theorem two_zpow_split {d e : Int} (h : d ≤ e) :
    (2 : ℚ) ^ e = ((2 ^ (e - d).toNat : Int) : ℚ) * 2 ^ d := by
  rw [Int.cast_pow, Int.cast_ofNat, ← zpow_natCast (2 : ℚ) (e - d).toNat,
    Int.toNat_of_nonneg (by omega), ← zpow_add₀ two_ne_zero]
  congr 1
  omega

theorem inFormat_of_le {m n e : Int} (hn : |n| ≤ 2 ^ 53) (he : -1074 ≤ e)
    (hNonneg : (0 : ℚ) ≤ m * 2 ^ e) (hLe : (m : ℚ) * 2 ^ e ≤ n * 2 ^ e) : InFormat (m * 2 ^ e) := by
  have hUnit : (0 : ℚ) < 2 ^ e := by positivity
  have hm : 0 ≤ m := by exact_mod_cast nonneg_of_mul_nonneg_left hNonneg hUnit
  have hmn : m ≤ n := by exact_mod_cast le_of_mul_le_mul_right hLe hUnit
  refine ⟨m, e, ?_, he, rfl⟩
  rw [abs_of_nonneg hm]
  exact hmn.trans ((le_abs_self n).trans hn)

/-- The difference of two numbers that are at most a factor of two apart is exact. -/
theorem InFormat.sub {x y : ℚ} (hx : InFormat x) (hy : InFormat y) (hLow : x ≤ y)
    (hHigh : y ≤ 2 * x) : InFormat (y - x) := by
  obtain ⟨m, e, hm, he, rfl⟩ := hx
  obtain ⟨n, f, hn, hf, rfl⟩ := hy
  rcases le_total e f with hef | hfe
  · have hScale : (n : ℚ) * 2 ^ f - m * 2 ^ e =
        ((n * 2 ^ (f - e).toNat - m : Int) : ℚ) * 2 ^ e := by
      rw [two_zpow_split hef]
      push_cast
      ring
    rw [hScale]
    refine inFormat_of_le hm he ?_ ?_ <;> rw [← hScale] <;> linarith
  · have hScale : (n : ℚ) * 2 ^ f - m * 2 ^ e =
        ((n - m * 2 ^ (e - f).toNat : Int) : ℚ) * 2 ^ f := by
      rw [two_zpow_split hfe]
      push_cast
      ring
    rw [hScale]
    refine inFormat_of_le hn hf ?_ ?_ <;> rw [← hScale] <;> linarith

/-! ## Rounding -/

theorem le_roundHalfEven {x : ℚ} {n : Int} (h : n ≤ x) : n ≤ roundHalfEven x :=
  (Int.le_floor.mpr h).trans (floor_le_roundHalfEven x)

theorem roundHalfEven_neg (x : ℚ) : roundHalfEven (-x) = -roundHalfEven x := by
  by_cases hInteger : (⌊x⌋ : ℚ) = x
  · rw [← hInteger, ← Int.cast_neg, roundHalfEven_intCast, roundHalfEven_intCast]
  · have hBelow : (⌊x⌋ : ℚ) < x := lt_of_le_of_ne (Int.floor_le x) hInteger
    have hAbove : x < ⌊x⌋ + 1 := Int.lt_floor_add_one x
    have hFloor : ⌊-x⌋ = -⌊x⌋ - 1 := by
      rw [Int.floor_eq_iff]
      push_cast
      constructor <;> linarith
    unfold roundHalfEven
    dsimp only
    rw [hFloor]
    push_cast
    split_ifs <;> first | omega | (exfalso; linarith)

theorem ulp_neg (x : ℚ) : ulp (-x) = ulp x := by
  rw [ulp, abs_neg, ulp]

theorem roundBinary_neg (x : ℚ) : roundBinary (-x) = -roundBinary x := by
  unfold roundBinary
  rw [ulp_neg, neg_div, roundHalfEven_neg]
  push_cast
  ring

theorem roundBinary_le_grid {x : ℚ} {n : Int} (h : x ≤ n * ulp x) :
    roundBinary x ≤ n * ulp x := by
  have hPos := ulp_pos x
  have hQuotient : x / ulp x ≤ n := (div_le_iff₀ hPos).mpr h
  have hRound : (roundHalfEven (x / ulp x) : ℚ) ≤ n := by exact_mod_cast roundHalfEven_le hQuotient
  exact mul_le_mul_of_nonneg_right hRound hPos.le

/-- A number of the format is a multiple of the unit of `x`, or it is nearer to zero. -/
theorem InFormat.on_grid {x y : ℚ} (hy : InFormat y) (hx : x ≠ 0) :
    (∃ n : Int, y = n * ulp x) ∨ (|y| ≤ 2 ^ 52 * ulp x ∧ 2 ^ 52 * ulp x ≤ |x|) := by
  obtain ⟨m, e, hm, he, rfl⟩ := hy
  unfold ulp
  generalize hUnit : max (Int.log 2 |x| - 52) (-1074) = k
  rcases le_or_gt k e with hke | hek
  · refine .inl ⟨m * 2 ^ (e - k).toNat, ?_⟩
    rw [two_zpow_split hke]
    push_cast
    ring
  · have hLog : Int.log 2 |x| = k + 52 := by omega
    have hPower : (2 : ℚ) ^ 52 * 2 ^ k = 2 ^ (k + 52) := by
      rw [zpow_add₀ two_ne_zero, mul_comm]
      rfl
    refine .inr ⟨?_, ?_⟩
    · have hMantissa : (|m| : ℚ) ≤ 2 ^ 53 := by exact_mod_cast hm
      have hHalf : (2 : ℚ) ^ e ≤ 2 ^ (k - 1) := zpow_le_zpow_right₀ one_le_two (by omega)
      rw [abs_mul, abs_of_pos (show (0 : ℚ) < 2 ^ e by positivity)]
      calc (|m| : ℚ) * 2 ^ e ≤ 2 ^ 53 * 2 ^ (k - 1) := by gcongr
        _ = 2 ^ 52 * 2 ^ k := by
          rw [zpow_sub_one₀ two_ne_zero]
          ring
    · rw [hPower, ← hLog]
      have hBelow := Int.zpow_log_le_self (b := 2) one_lt_two (abs_pos.mpr hx)
      rwa [Nat.cast_ofNat] at hBelow

/-- Rounding does not pass over a number of the format. -/
theorem roundBinary_le {x y : ℚ} (hy : InFormat y) (h : x ≤ y) : roundBinary x ≤ y := by
  by_cases hx : x = 0
  · subst hx
    have hZero : roundBinary 0 = 0 := by
      rw [roundBinary, zero_div, ← Int.cast_zero, roundHalfEven_intCast, Int.cast_zero, zero_mul]
    rwa [hZero]
  · rcases hy.on_grid hx with ⟨n, rfl⟩ | ⟨hSmall, hLarge⟩
    · exact roundBinary_le_grid h
    · -- the power of two below `x` stands between them
      obtain ⟨hLow, hHigh⟩ := abs_le.mp hSmall
      rcases lt_or_gt_of_ne hx with hNeg | hPos
      · rw [abs_of_neg hNeg] at hLarge
        have hGrid := roundBinary_le_grid (x := x) (n := -2 ^ 52) (by push_cast; linarith)
        push_cast at hGrid
        linarith
      · rw [abs_of_pos hPos] at hLarge
        have hGrid := roundBinary_le_grid (x := x) (n := 2 ^ 52) (by push_cast; linarith)
        push_cast at hGrid
        linarith

theorem le_roundBinary {x y : ℚ} (hy : InFormat y) (h : y ≤ x) : y ≤ roundBinary x := by
  have hNeg := roundBinary_le hy.neg (neg_le_neg h)
  rw [roundBinary_neg] at hNeg
  exact neg_le_neg_iff.mp hNeg

theorem roundBinary_of_inFormat {x : ℚ} (h : InFormat x) : roundBinary x = x :=
  le_antisymm (roundBinary_le h le_rfl) (le_roundBinary h le_rfl)

theorem inFormat_roundBinary (x : ℚ) : InFormat (roundBinary x) := by
  have hPos := ulp_pos x
  refine ⟨roundHalfEven (x / ulp x), _, ?_, le_max_right _ _, rfl⟩
  have hTop : |x| ≤ 2 ^ 53 * ulp x := by
    have hAbove := (Int.lt_zpow_succ_log_self (b := 2) one_lt_two |x|).le
    rw [Nat.cast_ofNat] at hAbove
    refine hAbove.trans ?_
    have hSplit : (2 : ℚ) ^ 53 * ulp x =
        2 ^ (max (Int.log 2 |x| - 52) (-1074) + 53) := by
      rw [zpow_add₀ two_ne_zero, mul_comm]
      rfl
    rw [hSplit]
    exact zpow_le_zpow_right₀ one_le_two (by omega)
  obtain ⟨hLow, hHigh⟩ := abs_le.mp hTop
  rw [abs_le]
  constructor
  · refine le_roundHalfEven ?_
    rw [le_div_iff₀ hPos]
    push_cast
    linarith
  · refine roundHalfEven_le ?_
    rw [div_le_iff₀ hPos]
    push_cast
    linarith

/-! ## Between two numbers of the format -/

section Between

variable {n k : Int} {x : ℚ}

theorem ulp_eq (hk : -1074 ≤ k) (hLow : 2 ^ 52 * 2 ^ k ≤ x) (hHigh : x < 2 ^ 53 * 2 ^ k) :
    ulp x = 2 ^ k := by
  have hPos : 0 < x := lt_of_lt_of_le (by positivity) hLow
  have hLog : Int.log 2 x = 52 + k := by
    apply le_antisymm
    · refine Int.lt_add_one_iff.mp ((Int.lt_zpow_iff_log_lt one_lt_two hPos).mp ?_)
      rw [Nat.cast_ofNat, show 52 + k + 1 = 53 + k by ring, zpow_add₀ two_ne_zero]
      exact hHigh
    · refine (Int.zpow_le_iff_le_log one_lt_two hPos).mp ?_
      rw [Nat.cast_ofNat, zpow_add₀ two_ne_zero]
      exact hLow
  rw [ulp, abs_of_pos hPos, hLog]
  congr 1
  omega

theorem inFormat_mantissa (hLow : 2 ^ 52 ≤ n) (hHigh : n ≤ 2 ^ 53) (hk : -1074 ≤ k) :
    InFormat (n * 2 ^ k) :=
  ⟨n, k, by rw [abs_of_nonneg (by omega)]; exact hHigh, hk, rfl⟩

theorem ulp_between (hLow : 2 ^ 52 ≤ n) (hHigh : n + 1 ≤ 2 ^ 53) (hk : -1074 ≤ k)
    (hAbove : n * 2 ^ k ≤ x) (hBelow : x < (n + 1) * 2 ^ k) : ulp x = 2 ^ k := by
  have hUnit : (0 : ℚ) ≤ 2 ^ k := by positivity
  have hLowCast : (2 : ℚ) ^ 52 ≤ n := by exact_mod_cast hLow
  have hHighCast : (n : ℚ) + 1 ≤ 2 ^ 53 := by exact_mod_cast hHigh
  apply ulp_eq hk
  · exact (mul_le_mul_of_nonneg_right hLowCast hUnit).trans hAbove
  · exact hBelow.trans_le (mul_le_mul_of_nonneg_right hHighCast hUnit)

/-- Below the middle the lower of two neighbours is the nearest. -/
theorem roundBinary_le_of_lt_middle (hLow : 2 ^ 52 ≤ n) (hHigh : n + 1 ≤ 2 ^ 53) (hk : -1074 ≤ k)
    (h : x < (n + 1 / 2) * 2 ^ k) : roundBinary x ≤ n * 2 ^ k := by
  have hUnit : (0 : ℚ) < 2 ^ k := by positivity
  by_cases hx : x ≤ n * 2 ^ k
  · exact roundBinary_le (inFormat_mantissa hLow (by omega) hk) hx
  · have hBelow : x < (n + 1) * 2 ^ k :=
      h.trans_le (mul_le_mul_of_nonneg_right (by linarith) hUnit.le)
    have hUlp := ulp_between hLow hHigh hk (not_le.mp hx).le hBelow
    rw [roundBinary, hUlp]
    refine mul_le_mul_of_nonneg_right ?_ hUnit.le
    exact_mod_cast roundHalfEven_le_of_lt ((div_lt_iff₀ hUnit).mpr h)

/-- From the middle on the upper one is, if the lower one is odd. -/
theorem le_roundBinary_of_middle_le (hLow : 2 ^ 52 ≤ n) (hHigh : n + 1 ≤ 2 ^ 53) (hOdd : n % 2 = 1)
    (hk : -1074 ≤ k) (h : (n + 1 / 2) * 2 ^ k ≤ x) : (n + 1) * 2 ^ k ≤ roundBinary x := by
  have hUnit : (0 : ℚ) < 2 ^ k := by positivity
  by_cases hx : (n + 1) * 2 ^ k ≤ x
  · have hNext := inFormat_mantissa (n := n + 1) (by omega) hHigh hk
    push_cast at hNext
    exact le_roundBinary hNext hx
  · have hBelow := not_le.mp hx
    have hAbove : n * 2 ^ k ≤ x := (mul_le_mul_of_nonneg_right (by linarith) hUnit.le).trans h
    have hUlp := ulp_between hLow hHigh hk hAbove hBelow
    have hMiddle : (n : ℚ) + 1 / 2 ≤ x / 2 ^ k := (le_div_iff₀ hUnit).mpr h
    have hNext : x / 2 ^ k < n + 1 := (div_lt_iff₀ hUnit).mpr hBelow
    have hFloor : ⌊x / 2 ^ k⌋ = n := by
      rw [Int.floor_eq_iff]
      constructor <;> linarith
    have hRound : roundHalfEven (x / 2 ^ k) = n + 1 := by
      unfold roundHalfEven
      dsimp only
      rw [hFloor, if_neg (by linarith)]
      split_ifs <;> omega
    rw [roundBinary, hUlp, hRound]
    push_cast
    exact le_rfl

end Between

/-! ## Signs -/

@[simp] theorem le_zero_finite {x : ℚ} : le 0 (finite x) = true ↔ 0 ≤ x := by
  change (!decide (x < 0)) = true ↔ _
  simp

@[simp] theorem le_zero_infinite {negative : Bool} :
    le 0 (infinite negative) = true ↔ negative = false := by
  cases negative <;> decide

theorem overflow_pos : 0 < overflow := by
  rw [overflow_eq]
  exact mul_pos (by norm_num) halfUnit_pos

theorem le_zero_nearest {x : ℚ} (h : 0 ≤ x) : le 0 (nearest x) = true := by
  have hOverflow := overflow_pos
  unfold nearest
  split_ifs with hHigh hLow
  · rfl
  · exact absurd (h.trans hLow) (by linarith)
  · exact le_zero_finite.mpr (le_roundBinary inFormat_zero h)

/-- Rounding does not take a number for zero that is below one of the format. -/
theorem not_le_zero_nearest {x y : ℚ} (hy : InFormat y) (hNeg : y < 0) (h : x ≤ y) :
    le 0 (nearest x) = false := by
  have hOverflow := overflow_pos
  unfold nearest
  split_ifs with hHigh hLow
  · exact absurd (hHigh.trans h) (by linarith)
  · rfl
  · refine Bool.eq_false_iff.mpr fun hLe => ?_
    have hRound := (le_zero_finite.mp hLe).trans (roundBinary_le hy h)
    linarith

theorem roundTo_nonneg {digits : Nat} {x : ℚ} (h : 0 ≤ x) : 0 ≤ roundTo digits x := by
  have hScaled : 0 ≤ x * 10 ^ digits := by positivity
  rw [roundTo_nonneg_iff]
  linarith

/-- `round` takes for zero from below what is at most half of the last digit away. -/
theorem le_zero_roundDigits_iff {digits : Nat} (hDigits : digits ≤ 250) {x : ℚ} :
    le 0 (roundDigits digits (finite x)) = true ↔ -(1 / 2) ≤ x * 10 ^ digits := by
  rw [← roundTo_nonneg_iff]
  rcases le_or_gt 0 (roundTo digits x) with hNonneg | hNeg
  · exact iff_of_true (le_zero_nearest hNonneg) hNonneg
  · refine iff_of_false ?_ (not_le.mpr hNeg)
    -- a digit is not less than a power of two of the format
    have hPow : (0 : ℚ) < 10 ^ digits := by positivity
    have hDigit : roundTo digits x ≤ -(1 / 10 ^ digits) := by
      have hRound : (roundHalfEven (x * 10 ^ digits) : ℚ) ≤ -1 := by
        have hInteger : roundHalfEven (x * 10 ^ digits) < 0 := by
          have hCast := neg_of_div_neg_left hNeg hPow.le
          exact_mod_cast hCast
        exact_mod_cast Int.le_sub_one_of_lt hInteger
      rw [roundTo, ← neg_div]
      exact div_le_div_of_nonneg_right hRound hPow.le
    have hPower : (2 : ℚ) ^ (-(4 * digits : Int)) ≤ 1 / 10 ^ digits := by
      rw [zpow_neg, one_div, show (4 * digits : Int) = ((4 * digits : Nat) : Int) by push_cast; rfl,
        zpow_natCast, pow_mul]
      exact inv_anti₀ hPow (pow_le_pow_left₀ (by norm_num) (by norm_num) _)
    have hFormat : InFormat (2 ^ (-(4 * digits : Int))) :=
      ⟨1, -(4 * digits : Int), by norm_num, by omega, by rw [Int.cast_one, one_mul]⟩
    have hNot := not_le_zero_nearest hFormat.neg (neg_neg_of_pos (by positivity))
      (hDigit.trans (neg_le_neg hPower))
    rw [roundDigits, hNot]
    exact Bool.false_ne_true

theorem le_zero_roundDigits {digits : Nat} {x : PyFloat} (h : le 0 x = true) :
    le 0 (roundDigits digits x) = true := by
  cases x with
  | finite x => exact le_zero_nearest (roundTo_nonneg (le_zero_finite.mp h))
  | infinite => exact h
  | nan => exact h

@[simp] theorem le_finite_finite {x y : ℚ} : le (finite x) (finite y) = true ↔ x ≤ y := by
  change (!decide (y < x)) = true ↔ _
  simp

/-- A number that is rounded to digits is not above an integer that it was not above. -/
theorem roundDigits_le {digits : Nat} {x : PyFloat} {n : Int} (hn : |n| ≤ 2 ^ 53)
    (hNonneg : le 0 x = true) (h : le x (finite n) = true) :
    le (roundDigits digits x) (finite n) = true := by
  cases x with
  | finite x =>
    rw [le_zero_finite] at hNonneg
    rw [le_finite_finite] at h
    have hCast : ((0 : Int) : ℚ) ≤ x := by rwa [Int.cast_zero]
    obtain ⟨hLow, hHigh⟩ : ((0 : Int) : ℚ) ≤ roundTo digits x ∧ roundTo digits x ≤ n :=
      roundTo_mem 0 n hCast h
    rw [Int.cast_zero] at hLow
    have hRange : (n : ℚ) < overflow := by
      have hSmall : (n : ℚ) ≤ 2 ^ 53 := by exact_mod_cast (le_abs_self n).trans hn
      have hUnit : (1 : ℚ) ≤ halfUnit := one_le_pow₀ one_le_two
      rw [overflow_eq]
      linarith
    have hOverflow := overflow_pos
    rw [roundDigits, nearest, if_neg (by linarith), if_neg (by linarith), le_finite_finite]
    exact roundBinary_le (inFormat_intCast hn) hHigh
  | infinite negative =>
    cases negative
    · cases h
    · cases hNonneg
  | nan => cases h

theorem le_zero_maxOf (x : PyFloat) : le 0 (maxOf 0 x) = true := by
  unfold maxOf
  split
  · rename_i hPos
    cases x with
    | finite x =>
      refine le_zero_finite.mpr ?_
      have hLt : (0 : ℚ) < x := of_decide_eq_true hPos
      exact hLt.le
    | infinite negative => cases negative <;> first | rfl | cases hPos
    | nan => cases hPos
  · rfl

/-- Neither negative nor less than zero: `nan` is neither. -/
theorem not_lt_zero_of_le {x : PyFloat} (h : le 0 x = true) : lt x 0 = false := by
  cases x with
  | nan => rfl
  | finite x => simpa [le] using h
  | infinite negative => simpa [le] using h

theorem not_lt_zero_nearest {x : ℚ} (h : 0 ≤ x) : lt (nearest x) 0 = false :=
  not_lt_zero_of_le (le_zero_nearest h)

theorem le_zero_of_finite {x : ℚ} (h : lt (finite x) 0 = false) : 0 ≤ x :=
  not_lt.mp (of_decide_eq_false h)

theorem negative_eq_false {negative : Bool} (h : lt (infinite negative) 0 = false) :
    negative = false := by
  cases negative
  · rfl
  · cases h

theorem isNegative_of_not_lt {x : PyFloat} (h : lt x 0 = false) : x.isNegative = false := by
  cases x with
  | nan => rfl
  | finite x => exact h
  | infinite negative => exact negative_eq_false h

theorem not_lt_zero_mul {x y : PyFloat} (hx : lt x 0 = false) (hy : lt y 0 = false) :
    lt (mul x y) 0 = false := by
  have hInfinite : lt (if x = 0 ∨ y = 0 then nan else infinite (x.isNegative != y.isNegative)) 0 =
      false := by
    rw [isNegative_of_not_lt hx, isNegative_of_not_lt hy]
    split <;> rfl
  cases x with
  | nan => rfl
  | finite x =>
    cases y with
    | nan => rfl
    | finite y =>
      exact not_lt_zero_nearest (mul_nonneg (le_zero_of_finite hx) (le_zero_of_finite hy))
    | infinite b => exact hInfinite
  | infinite a =>
    cases y with
    | nan => rfl
    | finite y => exact hInfinite
    | infinite b => exact hInfinite

theorem not_lt_zero_divBy {q : ℚ} (hq : 0 ≤ q) {x : PyFloat} (hx : lt x 0 = false) :
    lt (divBy q x) 0 = false := by
  cases x with
  | nan => rfl
  | finite x => exact not_lt_zero_nearest (div_nonneg (le_zero_of_finite hx) hq)
  | infinite a =>
    obtain rfl := negative_eq_false hx
    change (false != decide (q < 0)) = false
    simp [hq]

theorem not_lt_zero_div {x y : PyFloat} (hx : lt x 0 = false) (hy : lt y 0 = false) :
    lt (div x y) 0 = false := by
  cases y with
  | nan => cases x <;> rfl
  | infinite b => cases x <;> rfl
  | finite y =>
    have hQuotient : div? x (finite y) = if y = 0 then none else some (divBy y x) := by
      cases x <;> rfl
    rw [div, hQuotient]
    split
    · rfl
    · exact not_lt_zero_divBy (le_zero_of_finite hy) hx

/-- `min(n, x)` of a number that is not negative, or of `nan`. -/
theorem minOf_mem {q : ℚ} (hq : 0 ≤ q) {x : PyFloat} (hx : lt x 0 = false) :
    le 0 (minOf (finite q) x) = true ∧ le (minOf (finite q) x) (finite q) = true := by
  unfold minOf
  split
  · rename_i hLess
    cases x with
    | nan => cases hLess
    | finite x =>
      have hLt : x < q := of_decide_eq_true hLess
      exact ⟨le_zero_finite.mpr (le_zero_of_finite hx), le_finite_finite.mpr hLt.le⟩
    | infinite negative =>
      obtain rfl := negative_eq_false hx
      cases hLess
  · exact ⟨le_zero_finite.mpr hq, le_finite_finite.mpr le_rfl⟩

/-! ## Sums -/

theorem eq_roundBinary_of_nearest {x y : ℚ} (h : nearest x = finite y) : y = roundBinary x := by
  unfold nearest at h
  split_ifs at h
  exact (PyFloat.finite.inj h).symm

theorem add_eq_finite {x y : PyFloat} {z : ℚ} (h : add x y = finite z) :
    ∃ a b, x = finite a ∧ y = finite b ∧ z = roundBinary (a + b) := by
  unfold add at h
  split at h
  · rename_i a b
    exact ⟨a, b, rfl, rfl, eq_roundBinary_of_nearest h⟩
  · cases h
  · cases h
  · split at h <;> cases h
  · cases h
  · cases h

theorem sub_eq_finite {x y : PyFloat} {z : ℚ} (h : sub x y = finite z) :
    ∃ a b, x = finite a ∧ y = finite b ∧ z = roundBinary (a - b) := by
  obtain ⟨a, b, rfl, hNeg, rfl⟩ := add_eq_finite h
  cases y with
  | nan => cases hNeg
  | infinite => cases hNeg
  | finite y =>
    obtain rfl := PyFloat.finite.inj hNeg
    exact ⟨a, y, rfl, rfl, by rw [sub_eq_add_neg]⟩

/-- A number of the format that is not negative, or infinity. -/
def IsTerm (x : PyFloat) : Prop := x = infinite false ∨ ∃ r, x = finite r ∧ 0 ≤ r ∧ InFormat r

theorem isTerm_of_le_zero {x : ℚ} (h : le 0 (nearest x) = true) : IsTerm (nearest x) := by
  cases hNearest : nearest x with
  | nan =>
    rw [hNearest] at h
    cases h
  | infinite negative =>
    rw [hNearest, le_zero_infinite] at h
    exact .inl (congrArg infinite h)
  | finite y =>
    rw [hNearest, le_zero_finite] at h
    exact .inr ⟨y, rfl, h, eq_roundBinary_of_nearest hNearest ▸ inFormat_roundBinary _⟩

theorem isTerm_nearest {x : ℚ} (h : 0 ≤ x) : IsTerm (nearest x) :=
  isTerm_of_le_zero (le_zero_nearest h)

theorem IsTerm.le_zero {x : PyFloat} (h : IsTerm x) : le 0 x = true := by
  rcases h with rfl | ⟨r, rfl, hr, -⟩
  · rfl
  · exact le_zero_finite.mpr hr

theorem IsTerm.of_finite {r : ℚ} (h : IsTerm (finite r)) : 0 ≤ r ∧ InFormat r := by
  rcases h with hInfinite | ⟨r', hSame, hr, hFormat⟩
  · cases hInfinite
  · cases hSame
    exact ⟨hr, hFormat⟩

theorem IsTerm.add {x y : PyFloat} (hx : IsTerm x) (hy : IsTerm y) : IsTerm (add x y) := by
  rcases hx with rfl | ⟨a, rfl, ha, -⟩
  · rcases hy with rfl | ⟨b, rfl, -⟩ <;> exact .inl rfl
  · rcases hy with rfl | ⟨b, rfl, hb, -⟩
    · exact .inl rfl
    · exact isTerm_nearest (add_nonneg ha hb)

/-- What `round` returns is a term, if it is not negative. -/
theorem isTerm_roundDigits {digits : Nat} {x : PyFloat} (h : le 0 (roundDigits digits x) = true) :
    IsTerm (roundDigits digits x) := by
  cases x with
  | nan => cases h
  | infinite negative => exact .inl (congrArg infinite (le_zero_infinite.mp h))
  | finite x => exact isTerm_of_le_zero h

/-- What is lost of the smaller term is at least the difference of the larger one to the sum. -/
theorem sub_le_lost {a b lost : ℚ} (ha : InFormat a) (hb : 0 ≤ b) (hba : b ≤ a)
    (h : add (sub (finite a) (finite (roundBinary (a + b)))) (finite b) = finite lost) :
    a - roundBinary (a + b) ≤ lost := by
  obtain ⟨d, b', hDiff, hSame, rfl⟩ := add_eq_finite h
  obtain rfl := PyFloat.finite.inj hSame
  obtain ⟨a', t, hLeft, hRight, rfl⟩ := sub_eq_finite hDiff
  obtain rfl := PyFloat.finite.inj hLeft
  obtain rfl := PyFloat.finite.inj hRight
  have hLow : a ≤ roundBinary (a + b) := le_roundBinary ha (by linarith)
  have hHigh : roundBinary (a + b) ≤ 2 * a := roundBinary_le ha.two_mul (by linarith)
  -- the larger term and the sum are close enough for an exact difference
  have hExact : InFormat (a - roundBinary (a + b)) := by
    have hSub := (ha.sub (inFormat_roundBinary (a + b)) hLow hHigh).neg
    rwa [neg_sub] at hSub
  rw [roundBinary_of_inFormat hExact]
  exact le_roundBinary hExact (by linarith)

/-- The sum so far is a term, and what was lost of it does not exceed it. -/
structure Balanced (s : PyFloat × PyFloat) : Prop where
  isTerm : IsTerm s.1
  lost : ∀ total lost, s.1 = finite total → s.2 = finite lost → -total ≤ lost

/-- The error of a step, as `sumStep` computes it. -/
def stepError (s x : PyFloat) : PyFloat :=
  if le (abs x) (abs s) then add (sub s (add s x)) x else add (sub x (add s x)) s

theorem sumStep_eq (s : PyFloat × PyFloat) (x : PyFloat) :
    sumStep s x = (add s.1 x, add s.2 (stepError s.1 x)) := rfl

/-- Where the error is finite the terms are, and it is at least the difference of the old sum to
the new one. -/
theorem sub_le_stepError {s x : PyFloat} (hs : IsTerm s) (hx : IsTerm x) {e : ℚ}
    (h : stepError s x = finite e) :
    ∃ a b, s = finite a ∧ x = finite b ∧ InFormat a ∧ a - roundBinary (a + b) ≤ e := by
  have hFinite : ∃ t, add s x = finite t := by
    unfold stepError at h
    split at h
    · obtain ⟨d, -, hDiff, -⟩ := add_eq_finite h
      obtain ⟨-, t, -, ht, -⟩ := sub_eq_finite hDiff
      exact ⟨t, ht⟩
    · obtain ⟨d, -, hDiff, -⟩ := add_eq_finite h
      obtain ⟨-, t, -, ht, -⟩ := sub_eq_finite hDiff
      exact ⟨t, ht⟩
  obtain ⟨t, ht⟩ := hFinite
  obtain ⟨a, b, rfl, rfl, rfl⟩ := add_eq_finite ht
  obtain ⟨ha, hFormat⟩ := hs.of_finite
  obtain ⟨hb, hFormat'⟩ := hx.of_finite
  refine ⟨a, b, rfl, rfl, hFormat, ?_⟩
  unfold stepError at h
  rw [ht] at h
  split at h
  · rename_i hLe
    have hba : |b| ≤ |a| := le_finite_finite.mp hLe
    rw [abs_of_nonneg hb, abs_of_nonneg ha] at hba
    exact sub_le_lost hFormat hb hba h
  · rename_i hLess
    have hab : ¬ |b| ≤ |a| := fun hLe => hLess (le_finite_finite.mpr hLe)
    rw [abs_of_nonneg hb, abs_of_nonneg ha] at hab
    rw [add_comm a b] at h ⊢
    have hLost := sub_le_lost hFormat' ha (not_le.mp hab).le h
    linarith

theorem balanced_sumStep {s : PyFloat × PyFloat} {x : PyFloat} (hs : Balanced s) (hx : IsTerm x) :
    Balanced (sumStep s x) := by
  rw [sumStep_eq]
  refine ⟨hs.isTerm.add hx, fun total lost hTotal hLost => ?_⟩
  obtain ⟨c, e, hOld, hError, rfl⟩ := add_eq_finite hLost
  obtain ⟨a, b, hSum, rfl, hFormat, hBound⟩ := sub_le_stepError hs.isTerm hx hError
  have hKept := hs.lost a c hSum hOld
  have hNew : add s.1 (finite b) = finite total := hTotal
  rw [hSum] at hNew
  obtain rfl : total = roundBinary (a + b) := eq_roundBinary_of_nearest hNew
  exact le_roundBinary (inFormat_roundBinary (a + b)).neg (by linarith)

theorem balanced_foldl {s : PyFloat × PyFloat} (hs : Balanced s) {terms : List PyFloat}
    (hTerms : ∀ x ∈ terms, IsTerm x) : Balanced (terms.foldl sumStep s) := by
  induction terms generalizing s with
  | nil => exact hs
  | cons x rest ih =>
    exact ih (balanced_sumStep hs (hTerms x List.mem_cons_self))
      fun y hy => hTerms y (List.mem_cons_of_mem x hy)

/-- The compensated sum of numbers that are not negative is not negative. -/
theorem le_zero_sum {terms : List PyFloat} (hTerms : ∀ x ∈ terms, IsTerm x) :
    le 0 (sum terms) = true := by
  cases terms with
  | nil => rfl
  | cons x rest =>
    have hFirst := hTerms x List.mem_cons_self
    have hStart : Balanced (x, 0) := by
      refine ⟨hFirst, fun total lost hTotal hLost => ?_⟩
      obtain rfl : 0 = lost := PyFloat.finite.inj hLost
      have hSign := hFirst.le_zero
      rw [show x = finite total from hTotal, le_zero_finite] at hSign
      linarith
    have hAll := balanced_foldl hStart fun y hy => hTerms y (List.mem_cons_of_mem x hy)
    have hSum : le 0 (rest.foldl sumStep (x, 0)).1 = true := hAll.isTerm.le_zero
    unfold sum
    dsimp only
    split
    · rename_i hLost
      -- what was lost is finite and does not exceed the sum
      cases hFinite : (rest.foldl sumStep (x, 0)).2 with
      | nan => rw [hFinite] at hLost; cases hLost.2
      | infinite => rw [hFinite] at hLost; cases hLost.2
      | finite lost =>
        rcases hAll.isTerm with hInfinite | ⟨total, hTotal, -⟩
        · rw [hInfinite]
          rfl
        · have hKept := hAll.lost total lost hTotal hFinite
          rw [hTotal]
          exact le_zero_nearest (by linarith)
    · exact hSum

end PyFloat

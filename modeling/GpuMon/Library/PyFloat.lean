import GpuMon.Library.PyNum
import GpuMon.Library.PyText

/-!
# `float(s)`

The numbers Python reads from text: a decimal literal with an exponent, underscores between
digits, digits of any script, blanks around it, and the names of the infinities and of `nan`.
A finite value is kept as the exact rational of its literal; only the overflow to infinity of
the binary64 format is kept of its rounding.

* `float?_natText`: the digits of a number read back as that number.
-/

open PyText

inductive PyFloat
  | finite (x : ℚ)
  | infinite (negative : Bool)
  | nan
  deriving DecidableEq

namespace PyFloat

instance : OfNat PyFloat 0 := ⟨.finite 0⟩

/-- The least rational that rounds to infinity in binary64. -/
def overflow : ℚ := (2 ^ 54 - 1) * 2 ^ 970

def ofRat (x : ℚ) : PyFloat :=
  if overflow ≤ x then .infinite false
  else if x ≤ -overflow then .infinite true
  else .finite x

def neg : PyFloat → PyFloat
  | finite x => finite (-x)
  | infinite negative => infinite (!negative)
  | nan => nan

/-- `int(x)`; `none` is an `OverflowError` or a `ValueError`. -/
def truncate? : PyFloat → Option Int
  | finite x => some (PyNum.truncate x)
  | _ => none

/-- A digit or a blank of any script becomes the ASCII one. -/
def asciiChar (c : Char) : Char :=
  match digitValue c with
  | some d => Char.ofNat ('0'.toNat + d)
  | none => if isSpace c then ' ' else c

/-- Underscores may stand between two digits only; `prev` is the character before. -/
def dropUnderscores (prev : Char) : Text → Option Text
  | [] => if prev = '_' then none else some []
  | c :: rest =>
    if c = '_' then if prev.isDigit then dropUnderscores c rest else none
    else if prev = '_' ∧ c.isDigit = false then none
    else (dropUnderscores c rest).map (c :: ·)

/-- `e±digits` up to the end of the text, or nothing. -/
def exponent? : Text → Option Int
  | [] => some 0
  | c :: rest =>
    if c.toLower ≠ 'e' then none
    else
      let (negative, digits) := match rest with
        | '-' :: digits => (true, digits)
        | '+' :: digits => (false, digits)
        | digits => (false, digits)
      if digits = [] ∨ digits.any (fun d => !d.isDigit) then none
      else some (if negative then -(parseNat digits : Int) else parseNat digits)

/-- A literal without a sign. -/
def unsigned? (t : Text) : Option PyFloat :=
  if lower t = ("inf" : Text) ∨ lower t = ("infinity" : Text) then some (.infinite false)
  else if lower t = ("nan" : Text) then some .nan
  else
    let whole := t.takeWhile Char.isDigit
    let (frac, rest) := match t.dropWhile Char.isDigit with
      | '.' :: rest => (rest.takeWhile Char.isDigit, rest.dropWhile Char.isDigit)
      | rest => ([], rest)
    if whole = [] ∧ frac = [] then none
    else (exponent? rest).map fun e =>
      ofRat ((parseNat (whole ++ frac) : ℚ) * 10 ^ (e - (frac.length : Int)))

/-- `float(s)`; `none` is a `ValueError`. -/
def float? (t : Text) : Option PyFloat :=
  (dropUnderscores ' ' (strip (t.map asciiChar))).bind fun
    | '-' :: rest => (unsigned? rest).map neg
    | '+' :: rest => unsigned? rest
    | rest => unsigned? rest

/-! ## Digits -/

theorem dropUnderscores_of_not_mem {t : Text} (ht : '_' ∉ t) :
    ∀ {prev : Char}, prev ≠ '_' → dropUnderscores prev t = some t := by
  induction t with
  | nil =>
    intro prev hPrev
    exact if_neg hPrev
  | cons c rest ih =>
    intro prev hPrev
    have hc : c ≠ '_' := fun h => ht (h ▸ List.mem_cons_self)
    rw [dropUnderscores, if_neg hc, if_neg fun h => hPrev h.1,
      ih (fun h => ht (List.mem_cons_of_mem c h)) hc]
    rfl

theorem toLower_of_isDigit {c : Char} (h : c.isDigit = true) : c.toLower = c := by
  have hRange := toNat_of_isDigit h
  unfold Char.toLower
  split
  · rename_i hUpper
    have hA : 65 ≤ c.toNat := UInt32.le_iff_toNat_le.mp hUpper.1
    omega
  · rfl

theorem asciiChar_of_isDigit {c : Char} (h : c.isDigit = true) : asciiChar c = c := by
  have hSum : '0'.toNat + (c.toNat - '0'.toNat) = c.toNat :=
    Nat.add_sub_cancel' (toNat_of_isDigit h).1
  rw [asciiChar, digitValue_of_isDigit h]
  dsimp only
  rw [hSum, Char.ofNat_toNat]

theorem unsigned?_digits {t : Text} (hDigits : ∀ c ∈ t, c.isDigit = true) (hne : t ≠ []) :
    unsigned? t = some (ofRat (parseNat t)) := by
  obtain ⟨c, rest, rfl⟩ := List.exists_cons_of_ne_nil hne
  have hc : c.isDigit = true := hDigits c List.mem_cons_self
  have hName : ∀ name : Text, name.head?.any Char.isDigit = false → lower (c :: rest) ≠ name := by
    rintro _ hd rfl
    rw [lower, List.map_cons, List.head?_cons, Option.any_some, toLower_of_isDigit hc, hc] at hd
    cases hd
  have hTake : (c :: rest).takeWhile Char.isDigit = c :: rest :=
    List.takeWhile_eq_self_iff.mpr hDigits
  have hDrop : (c :: rest).dropWhile Char.isDigit = [] := List.dropWhile_eq_nil_iff.mpr hDigits
  unfold unsigned?
  rw [if_neg (not_or.mpr ⟨hName _ (by decide), hName _ (by decide)⟩),
    if_neg (hName _ (by decide)), hTake, hDrop]
  simp [exponent?]

/-- The digits of a number read back as that number. -/
theorem float?_natText {n : Nat} (hn : (n : ℚ) < overflow) :
    float? (natText n) = some (.finite n) := by
  have hDigits : ∀ c ∈ natText n, c.isDigit = true := fun c hc => isDigit_of_mem_natText hc
  have hAscii : (natText n).map asciiChar = natText n :=
    (List.map_congr_left fun c hc => asciiChar_of_isDigit (hDigits c hc)).trans (List.map_id' _)
  have hStrip : strip (natText n) = natText n := by
    refine strip_eq_self ⟨fun c hc => ?_, fun c hc => ?_⟩
    · exact isSpace_of_isDigit (hDigits c (List.mem_of_head? hc))
    · exact isSpace_of_isDigit (hDigits c (List.mem_of_getLast? hc))
  have hScore : '_' ∉ natText n := fun h => absurd (hDigits _ h) (by decide)
  have hUnsigned : unsigned? (natText n) = some (.finite n) := by
    have hLow : ¬((n : ℚ) ≤ -overflow) := by
      have hPos : (0 : ℚ) < overflow := by unfold overflow; norm_num
      have hNonneg : (0 : ℚ) ≤ n := Nat.cast_nonneg n
      linarith
    rw [unsigned?_digits hDigits (natText_ne_nil n), parseNat_natText, ofRat,
      if_neg (not_le.mpr hn), if_neg hLow]
  rw [float?, hAscii, hStrip, dropUnderscores_of_not_mem hScore (by decide), Option.bind_some]
  split
  · rename_i rest hEq
    exact absurd (hDigits '-' (hEq ▸ List.mem_cons_self)) (by decide)
  · rename_i rest hEq
    exact absurd (hDigits '+' (hEq ▸ List.mem_cons_self)) (by decide)
  · exact hUnsigned

end PyFloat

import Mathlib.Tactic
import Mathlib.Data.Char
import Mathlib.Data.List.DropRight
import Mathlib.Data.List.Lex

/-!
# Python strings as lists of code points

The string methods that line-oriented parsers use, on `List Char`: `splitlines`, `strip`,
`split(",")`, `join`, `startswith` and the classes behind `\s` and `\d`. A literal is
written `"..."` and coerced.

The laws are the ones a parser proof needs: splitting undoes joining, and stripping does
not touch text that has no blank at its ends.
-/

/-- A Python `str`. -/
abbrev Text := List Char

instance : Coe String Text := ⟨String.toList⟩

/-- Lists of texts are searched by comparing texts. -/
instance : LawfulBEq Text := inferInstance

instance : LawfulBEq (Option Text) := inferInstance

namespace PyText

/-! ## Character classes -/

/-- `str.isspace`, which is also `\s`. -/
def isSpace (c : Char) : Bool :=
  let n := c.toNat
  (9 ≤ n && n ≤ 13) || (28 ≤ n && n ≤ 32) || n == 0x85 || n == 0xa0 || n == 0x1680 ||
    (0x2000 ≤ n && n ≤ 0x200a) || n == 0x2028 || n == 0x2029 || n == 0x202f || n == 0x205f ||
    n == 0x3000

/-- The code points that are a decimal zero; each starts a run of ten digits. -/
def decimalZeros : List Nat :=
  [0x30, 0x660, 0x6f0, 0x7c0, 0x966, 0x9e6, 0xa66, 0xae6, 0xb66, 0xbe6, 0xc66, 0xce6, 0xd66,
    0xde6, 0xe50, 0xed0, 0xf20, 0x1040, 0x1090, 0x17e0, 0x1810, 0x1946, 0x19d0, 0x1a80, 0x1a90,
    0x1b50, 0x1bb0, 0x1c40, 0x1c50, 0xa620, 0xa8d0, 0xa900, 0xa9d0, 0xa9f0, 0xaa50, 0xabf0,
    0xff10, 0x104a0, 0x10d30, 0x11066, 0x110f0, 0x11136, 0x111d0, 0x112f0, 0x11450, 0x114d0,
    0x11650, 0x116c0, 0x11730, 0x118e0, 0x11950, 0x11c50, 0x11d50, 0x11da0, 0x11f50, 0x16a60,
    0x16ac0, 0x16b50, 0x1d7ce, 0x1d7d8, 0x1d7e2, 0x1d7ec, 0x1d7f6, 0x1e140, 0x1e2f0, 0x1e4f0,
    0x1e950, 0x1fbf0]

/-- The value of a decimal digit of any script. -/
def digitValue (c : Char) : Option Nat :=
  (decimalZeros.find? fun z => z ≤ c.toNat && c.toNat < z + 10).map fun z => c.toNat - z

/-- `str.isdecimal` on one character, which is also `\d`. -/
def isDecimal (c : Char) : Bool := (digitValue c).isSome

/-- `int(s)` for a string of digits. -/
def parseNat (t : Text) : Nat := t.foldl (fun n c => 10 * n + (digitValue c).getD 0) 0

/-- `str(n)`. -/
def natText (n : Nat) : Text := Nat.toDigits 10 n

/-- `str(n)` for an `int`. -/
def intText : Int → Text
  | .ofNat n => natText n
  | .negSucc n => '-' :: natText (n + 1)

theorem toNat_of_isDigit {c : Char} (h : c.isDigit = true) : 48 ≤ c.toNat ∧ c.toNat ≤ 57 := by
  simp only [Char.isDigit, Bool.and_eq_true, decide_eq_true_eq, UInt32.le_iff_toNat_le] at h
  exact h

theorem isSpace_of_isDigit {c : Char} (h : c.isDigit = true) : isSpace c = false := by
  have hRange := toNat_of_isDigit h
  simp only [isSpace, Bool.or_eq_false_iff, Bool.and_eq_false_iff, decide_eq_false_iff_not,
    beq_eq_false_iff_ne]
  omega

theorem digitValue_of_isDigit {c : Char} (h : c.isDigit = true) :
    digitValue c = some (c.toNat - '0'.toNat) := by
  have hRange := toNat_of_isDigit h
  have hLow : 0x30 ≤ c.toNat ∧ c.toNat < 0x3a := by omega
  unfold digitValue decimalZeros
  rw [List.find?_cons_of_pos (by simpa using hLow)]
  rfl

theorem isDigit_of_mem_natText {n : Nat} {c : Char} (h : c ∈ natText n) : c.isDigit = true :=
  Nat.isDigit_of_mem_toDigits (by decide) (by decide) h

theorem isDecimal_of_mem_natText {n : Nat} {c : Char} (h : c ∈ natText n) :
    isDecimal c = true := by
  rw [isDecimal, digitValue_of_isDigit (isDigit_of_mem_natText h)]
  rfl

/-- A blank is no digit. -/
theorem isDecimal_of_isSpace {c : Char} (h : isSpace c = true) : isDecimal c = false := by
  have hApart : ∀ z ∈ decimalZeros, ∀ k < 10, isSpace (Char.ofNat (z + k)) = false := by
    decide +kernel
  have hNone : decimalZeros.find? (fun z => z ≤ c.toNat && c.toNat < z + 10) = none := by
    rw [List.find?_eq_none]
    intro z hz hRange
    obtain ⟨hLow, hHigh⟩ := Bool.and_eq_true_iff.mp hRange
    have hLow : z ≤ c.toNat := of_decide_eq_true hLow
    have hHigh : c.toNat < z + 10 := of_decide_eq_true hHigh
    have hOther := hApart z hz (c.toNat - z) (by omega)
    rw [Nat.add_sub_cancel' hLow, Char.ofNat_toNat, h] at hOther
    cases hOther
  rw [isDecimal, digitValue, hNone]
  rfl

theorem natText_ne_nil (n : Nat) : natText n ≠ [] := Nat.toDigits_ne_nil

/-- The digits of a number stand for it. -/
theorem parseNat_natText (n : Nat) : parseNat (natText n) = n := by
  have hFold : ∀ (t : Text) (k : Nat), (∀ c ∈ t, c.isDigit = true) →
      t.foldl (fun n c => 10 * n + (digitValue c).getD 0) k = Nat.ofDigitChars 10 t k := by
    intro t
    induction t with
    | nil =>
      intro k _
      exact Nat.ofDigitChars_nil.symm
    | cons c t ih =>
      intro k hDigits
      rw [List.foldl_cons, Nat.ofDigitChars_cons, digitValue_of_isDigit
        (hDigits c List.mem_cons_self), Option.getD_some]
      exact ih _ fun d hd => hDigits d (List.mem_cons_of_mem c hd)
  rw [parseNat, hFold _ _ fun c hc => isDigit_of_mem_natText hc]
  exact Nat.ofDigitChars_ten_toDigits

/-- The characters at which `splitlines` breaks a line. -/
def isLineBreak (c : Char) : Bool :=
  let n := c.toNat
  (10 ≤ n && n ≤ 13) || (28 ≤ n && n ≤ 30) || n == 0x85 || n == 0x2028 || n == 0x2029

/-- `str.lower` on the ASCII letters; other letters are left alone. -/
def lower (t : Text) : Text := t.map Char.toLower

/-! ## Lines -/

/-- `str.splitlines`. -/
def splitlines : Text → List Text
  | [] => []
  | '\r' :: '\n' :: rest => [] :: splitlines rest
  | c :: rest =>
    if isLineBreak c then [] :: splitlines rest
    else match splitlines rest with
      | [] => [[c]]
      | line :: lines => (c :: line) :: lines

/-- `sep.join(parts)`. -/
def join (sep : Text) (parts : List Text) : Text := sep.intercalate parts

/-- A line without line breaks. -/
def IsLine (line : Text) : Prop := ∀ c ∈ line, isLineBreak c = false

instance (line : Text) : Decidable (IsLine line) :=
  List.decidableBAll (fun c => isLineBreak c = false) line

theorem isLine_append {a b : Text} (ha : IsLine a) (hb : IsLine b) : IsLine (a ++ b) := by
  intro c hc
  rcases List.mem_append.mp hc with h | h
  · exact ha c h
  · exact hb c h

theorem isLine_cons {c : Char} {t : Text} (hc : isLineBreak c = false) (ht : IsLine t) :
    IsLine (c :: t) := by
  intro d hd
  rcases List.mem_cons.mp hd with rfl | h
  · exact hc
  · exact ht d h

theorem isLine_flatMap {α : Type*} {f : α → Text} {l : List α} (h : ∀ x ∈ l, IsLine (f x)) :
    IsLine (l.flatMap f) := by
  intro c hc
  obtain ⟨x, hx, hcx⟩ := List.mem_flatMap.mp hc
  exact h x hx c hcx

theorem isLine_natText (n : Nat) : IsLine (natText n) := by
  intro c hc
  have hRange := toNat_of_isDigit (isDigit_of_mem_natText hc)
  simp only [isLineBreak, Bool.or_eq_false_iff, Bool.and_eq_false_iff, decide_eq_false_iff_not,
    beq_eq_false_iff_ne]
  omega

theorem splitlines_cons_of_not_break {c : Char} (rest : Text) (hc : isLineBreak c = false) :
    splitlines (c :: rest) = match splitlines rest with
      | [] => [[c]]
      | line :: lines => (c :: line) :: lines := by
  rw [splitlines]
  · rw [if_neg (by simp [hc])]
  · rintro rest' rfl rfl
    exact absurd hc (by decide)

theorem splitlines_newline (rest : Text) :
    splitlines ('\n' :: rest) = [] :: splitlines rest := by
  rw [splitlines]
  · rfl
  · rintro _ h
    exact absurd h (by decide)

/-- A line in front of a newline is the first line. -/
theorem splitlines_append_newline {line : Text} (hLine : IsLine line) (rest : Text) :
    splitlines (line ++ '\n' :: rest) = line :: splitlines rest := by
  induction line with
  | nil => exact splitlines_newline rest
  | cons c line ih =>
    rw [List.cons_append, splitlines_cons_of_not_break _ (hLine c List.mem_cons_self),
      ih fun d hd => hLine d (List.mem_cons_of_mem c hd)]

theorem splitlines_flatMap {lines : List Text} (h : ∀ line ∈ lines, IsLine line) :
    splitlines (lines.flatMap fun line => line ++ ['\n']) = lines := by
  induction lines with
  | nil => rfl
  | cons line rest ih =>
    rw [List.flatMap_cons, List.append_assoc, List.singleton_append,
      splitlines_append_newline (h line List.mem_cons_self),
      ih fun l hl => h l (List.mem_cons_of_mem line hl)]

theorem splitlines_break {c : Char} {rest : Text} (hc : isLineBreak c = true)
    (hRest : c = '\r' → rest.head? ≠ some '\n') : splitlines (c :: rest) = [] :: splitlines rest := by
  rw [splitlines]
  · rw [if_pos hc]
  · rintro rest' rfl rfl
    exact hRest rfl rfl

theorem splitlines_ne_nil {t : Text} (h : t ≠ []) : splitlines t ≠ [] := by
  unfold splitlines
  split
  · exact (h rfl).elim
  · simp
  · split
    · simp
    · split <;> simp

theorem getLast?_tail {c : Char} {tail : Text} {P : Char → Prop}
    (h : ∀ d ∈ (c :: tail).getLast?, P d) : ∀ d ∈ tail.getLast?, P d := by
  cases tail with
  | nil => exact fun d hd => nomatch hd
  | cons d tail => exact h

/-- A text that ends with a line break is split apart from what follows. -/
theorem splitlines_append {front rest : Text} (hFront : ∀ c ∈ front.getLast?, isLineBreak c = true)
    (hRest : rest.head? ≠ some '\n') :
    splitlines (front ++ rest) = splitlines front ++ splitlines rest := by
  induction front using splitlines.induct with
  | case1 => rfl
  | case2 tail ih => exact congrArg ([] :: ·) (ih (getLast?_tail (getLast?_tail hFront)))
  | case3 c tail hPair hc ih =>
    have hHead : c = '\r' → tail.head? ≠ some '\n' := by
      intro hReturn hHead
      obtain ⟨rest', hTail⟩ := List.head?_eq_some_iff.mp hHead
      exact hPair rest' hReturn hTail
    have hNext : c = '\r' → (tail ++ rest).head? ≠ some '\n' := by
      intro hReturn
      cases tail with
      | nil => exact hRest
      | cons d tail => exact hHead hReturn
    rw [List.cons_append, splitlines_break hc hNext, splitlines_break hc hHead,
      ih (getLast?_tail hFront)]
    rfl
  | case4 c tail hPair hc hNil ih =>
    have hTail : tail = [] := not_not.mp fun hne => splitlines_ne_nil hne hNil
    exact (hc (hFront c (by rw [hTail]; rfl))).elim
  | case5 c tail hPair hc line lines hLines ih =>
    have hPlain := Bool.eq_false_of_not_eq_true hc
    rw [List.cons_append, splitlines_cons_of_not_break _ hPlain,
      splitlines_cons_of_not_break _ hPlain, ih (getLast?_tail hFront), hLines]
    rfl

theorem splitlines_line {line : Text} (hLine : IsLine line) (hne : line ≠ []) :
    splitlines line = [line] := by
  induction line with
  | nil => exact absurd rfl hne
  | cons c line ih =>
    rw [splitlines_cons_of_not_break _ (hLine c List.mem_cons_self)]
    cases line with
    | nil => rfl
    | cons d rest =>
      rw [ih (fun e he => hLine e (List.mem_cons_of_mem c he)) (List.cons_ne_nil _ _)]

theorem join_cons_cons (sep a b : Text) (rest : List Text) :
    join sep (a :: b :: rest) = a ++ sep ++ join sep (b :: rest) := by
  simp [join, List.intercalate, List.intersperse]

theorem isLine_join {sep : Text} (hSep : IsLine sep) {parts : List Text}
    (h : ∀ p ∈ parts, IsLine p) : IsLine (join sep parts) := by
  induction parts with
  | nil => exact fun _ hc => absurd hc List.not_mem_nil
  | cons a rest ih =>
    cases rest with
    | nil => simpa [join, List.intercalate] using h a List.mem_cons_self
    | cons b rest =>
      rw [join_cons_cons]
      exact isLine_append (isLine_append (h a List.mem_cons_self) hSep)
        (ih fun p hp => h p (List.mem_cons_of_mem a hp))

/-- Splitting what was joined gives the lines back, up to an empty last line. -/
theorem splitlines_join {lines : List Text} (hLines : ∀ l ∈ lines, IsLine l) :
    splitlines (join ['\n'] lines) =
      if lines.getLast? = some [] then lines.dropLast else lines := by
  induction lines with
  | nil => rfl
  | cons a rest ih =>
    cases rest with
    | nil =>
      by_cases ha : a = []
      · subst ha
        rfl
      · have hj : join ['\n'] [a] = a := by simp [join, List.intercalate]
        simp [hj, ha, splitlines_line (hLines a List.mem_cons_self) ha]
    | cons b rest =>
      rw [join_cons_cons, List.append_assoc, List.singleton_append,
        splitlines_append_newline (hLines a List.mem_cons_self),
        ih fun l hl => hLines l (List.mem_cons_of_mem a hl)]
      simp only [List.getLast?_cons_cons, List.dropLast_cons_cons]
      split <;> rfl

/-- A line-by-line parser that ignores empty lines sees exactly the joined lines. -/
theorem filterMap_splitlines_join {β : Type*} (f : Text → Option β) (hf : f [] = none)
    {lines : List Text} (hLines : ∀ l ∈ lines, IsLine l) :
    (splitlines (join ['\n'] lines)).filterMap f = lines.filterMap f := by
  rw [splitlines_join hLines]
  split
  · rename_i hlast
    obtain ⟨front, rfl⟩ := List.getLast?_eq_some_iff.mp hlast
    simp [hf]
  · rfl

/-! ## Blanks at the ends -/

/-- `str.lstrip`. -/
def lstrip (t : Text) : Text := t.dropWhile isSpace

/-- `str.rstrip`. -/
def rstrip (t : Text) : Text := t.rdropWhile isSpace

/-- `str.strip`. -/
def strip (t : Text) : Text := rstrip (lstrip t)

/-- A text with no blank at either end. -/
def IsTrimmed (t : Text) : Prop :=
  (∀ c ∈ t.head?, isSpace c = false) ∧ ∀ c ∈ t.getLast?, isSpace c = false

instance (t : Text) : Decidable (IsTrimmed t) :=
  @instDecidableAnd _ _ (Option.decidableForallMem t.head?) (Option.decidableForallMem t.getLast?)

theorem dropWhile_eq_self_of_head {p : Char → Bool} {t : Text}
    (h : ∀ c ∈ t.head?, p c = false) : t.dropWhile p = t := by
  cases t with
  | nil => rfl
  | cons c rest => rw [List.dropWhile_cons, if_neg (by simpa using h c rfl)]

theorem rstrip_eq_self {t : Text} (h : ∀ c ∈ t.getLast?, isSpace c = false) : rstrip t = t := by
  unfold rstrip List.rdropWhile
  rw [dropWhile_eq_self_of_head (by simpa [List.head?_reverse] using h), List.reverse_reverse]

theorem strip_eq_self {t : Text} (h : IsTrimmed t) : strip t = t := by
  unfold strip lstrip
  rw [dropWhile_eq_self_of_head h.1, rstrip_eq_self h.2]

theorem rstrip_append {a : Text} (b : Text) (h : ∀ c ∈ a.getLast?, isSpace c = false) :
    rstrip (a ++ b) = a ++ rstrip b := by
  have ha : a.reverse.dropWhile isSpace = a.reverse :=
    dropWhile_eq_self_of_head (by simpa [List.head?_reverse] using h)
  unfold rstrip List.rdropWhile
  rw [List.reverse_append, List.dropWhile_append]
  split
  · rename_i hEmpty
    rw [ha, List.reverse_reverse, List.isEmpty_iff.mp hEmpty, List.reverse_nil, List.append_nil]
  · rw [List.reverse_append, List.reverse_reverse]

theorem prefix_rstrip (t : Text) : rstrip t <+: t := List.rdropWhile_prefix isSpace t

theorem dropWhile_head {p : Char → Bool} {t : Text} : ∀ c ∈ (t.dropWhile p).head?, p c = false := by
  intro c hc
  have hNot := List.head?_dropWhile_not p t
  rw [Option.mem_def.mp hc] at hNot
  exact hNot

theorem mem_of_mem_rstrip {t : Text} {c : Char} (h : c ∈ rstrip t) : c ∈ t := by
  have hsub := (List.dropWhile_suffix (l := t.reverse) isSpace).subset
  exact List.mem_reverse.mp (hsub (List.mem_reverse.mp h))

theorem rstrip_append_blank {blank : Text} (t : Text) (h : ∀ c ∈ blank, isSpace c = true) :
    rstrip (t ++ blank) = rstrip t := by
  unfold rstrip List.rdropWhile
  rw [List.reverse_append, List.dropWhile_append_of_pos fun c hc => h c (List.mem_reverse.mp hc)]

/-- What `rstrip` takes away is blank. -/
theorem exists_rstrip_append (t : Text) :
    ∃ blank, rstrip t ++ blank = t ∧ ∀ c ∈ blank, isSpace c = true :=
  ⟨t.rtakeWhile isSpace, List.rdropWhile_append_rtakeWhile, fun _ hc => List.mem_rtakeWhile_imp hc⟩

/-- Blanks at the end do not matter to `strip`. -/
theorem strip_rstrip (t : Text) : strip (rstrip t) = strip t := by
  obtain ⟨blank, hSplit, hBlank⟩ := exists_rstrip_append t
  have hLeft : lstrip t = if (lstrip (rstrip t)).isEmpty then lstrip blank
      else lstrip (rstrip t) ++ blank := by
    conv_lhs => rw [← hSplit]
    exact List.dropWhile_append
  rw [strip, strip, hLeft]
  split
  · rename_i hEmpty
    rw [List.isEmpty_iff.mp hEmpty, lstrip, List.dropWhile_eq_nil_iff.mpr hBlank]
  · rw [rstrip_append_blank _ hBlank]

@[simp] theorem strip_strip (t : Text) : strip (strip t) = strip t := by
  have hLeft : lstrip (lstrip t) = lstrip t := List.dropWhile_idempotent ..
  calc strip (rstrip (lstrip t)) = strip (lstrip t) := strip_rstrip _
    _ = rstrip (lstrip t) := by rw [strip, hLeft]

theorem strip_ne_nil {c : Char} {t : Text} (hc : isSpace c = false) : strip (c :: t) ≠ [] := by
  have hLeft : lstrip (c :: t) = [c] ++ t := dropWhile_eq_self_of_head (by rintro _ ⟨⟩; exact hc)
  rw [strip, hLeft, rstrip_append _ (by rintro _ ⟨⟩; exact hc)]
  exact List.cons_ne_nil c _

@[simp] theorem strip_nil : strip [] = [] := rfl

/-- Nothing is left of a text exactly when it is all blank. -/
theorem strip_eq_nil_iff {t : Text} : strip t = [] ↔ ∀ c ∈ t, isSpace c = true := by
  constructor
  · intro h
    have hBlank : ∀ c ∈ lstrip t, isSpace c = true := List.rdropWhile_eq_nil_iff.mp h
    have hNil : lstrip t = [] := by
      rw [List.eq_nil_iff_forall_not_mem]
      intro c hc
      obtain ⟨d, rest, hLeft⟩ := List.exists_cons_of_ne_nil (List.ne_nil_of_mem hc)
      have hHead : ∀ e ∈ (lstrip t).head?, isSpace e = false := dropWhile_head
      rw [hLeft] at hBlank hHead
      exact absurd (hBlank d List.mem_cons_self) (by rw [hHead d rfl]; decide)
    exact List.dropWhile_eq_nil_iff.mp hNil
  · intro h
    have hLeft : lstrip t = [] := List.dropWhile_eq_nil_iff.mpr h
    rw [strip, hLeft]
    rfl

@[simp] theorem rstrip_nil : rstrip [] = [] := rfl

/-! ## Searching -/

/-- `prefix` test: `t.startswith(head)`. -/
def startsWith (t head : Text) : Bool := head.isPrefixOf t

/-- `needle in t`. -/
def contains (needle t : Text) : Bool := t.tails.any fun s => needle.isPrefixOf s

theorem contains_iff {needle t : Text} : contains needle t = true ↔ needle <:+: t := by
  simp only [contains, List.any_eq_true, List.mem_tails, List.isPrefixOf_iff_prefix]
  exact ⟨fun ⟨s, hs, hp⟩ => hp.isInfix.trans hs.isInfix,
    fun h => (List.infix_iff_prefix_suffix.mp h).imp fun _ hs => ⟨hs.2, hs.1⟩⟩

/-- What does not occur in front of a mark is told from it by the mark. -/
theorem append_mark_inj {α : Type*} {c : α} {a b s t : List α} (ha : c ∉ a) (hb : c ∉ b)
    (h : a ++ c :: s = b ++ c :: t) : a = b ∧ s = t := by
  induction a generalizing b with
  | nil =>
    cases b with
    | nil => exact ⟨rfl, (List.cons.inj h).2⟩
    | cons x b =>
      rw [(List.cons.inj h).1] at hb
      exact absurd List.mem_cons_self hb
  | cons x a ih =>
    cases b with
    | nil =>
      rw [(List.cons.inj h).1] at ha
      exact absurd List.mem_cons_self ha
    | cons y b =>
      obtain ⟨rfl, hRest⟩ := List.cons.inj h
      obtain ⟨rfl, hTail⟩ := ih (fun h => ha (List.mem_cons_of_mem x h))
        (fun h => hb (List.mem_cons_of_mem x h)) hRest
      exact ⟨rfl, hTail⟩

/-! ## Pieces -/

/-- What `t.partition(sep)` finds before the first separator and after it. -/
def partition (sep : Char) (t : Text) : Text × Text :=
  (t.takeWhile (· ≠ sep), (t.dropWhile (· ≠ sep)).drop 1)

theorem mem_of_mem_partition {sep c : Char} {t : Text} (h : c ∈ (partition sep t).2) : c ∈ t :=
  (List.dropWhile_suffix (l := t) (· ≠ sep)).subset (List.mem_of_mem_drop h)

/-- `t.split(sep, n)`. -/
def splitMax (sep : Char) : Nat → Text → List Text
  | 0, t => [t]
  | n + 1, t =>
    if sep ∈ t then (partition sep t).1 :: splitMax sep n (partition sep t).2 else [t]

/-! ## Rows -/

/-- `t.split(sep)` for a one-character separator. -/
def splitOn (sep : Char) (t : Text) : List Text := List.splitOn sep t

/-- The first and the last code point of each run of digits that are not decimal. -/
def otherDigits : List (Nat × Nat) :=
  [(0xb2, 0xb3), (0xb9, 0xb9), (0x1369, 0x1371), (0x19da, 0x19da), (0x2070, 0x2070),
    (0x2074, 0x2079), (0x2080, 0x2089), (0x2460, 0x2468), (0x2474, 0x247c), (0x2488, 0x2490),
    (0x24ea, 0x24ea), (0x24f5, 0x24fd), (0x24ff, 0x24ff), (0x2776, 0x277e), (0x2780, 0x2788),
    (0x278a, 0x2792), (0x10a40, 0x10a43), (0x10e60, 0x10e68), (0x11052, 0x1105a),
    (0x1f100, 0x1f10a)]

/-- `str.isdigit` on one character. -/
def isDigitChar (c : Char) : Bool :=
  isDecimal c || otherDigits.any fun r => r.1 ≤ c.toNat && c.toNat ≤ r.2

/-- `t.isdigit()`. -/
def isDigitText (t : Text) : Bool := t ≠ [] && t.all isDigitChar

/-- The digits that `int(t)` converts at most. -/
def maxStrDigits : Nat := 4300

/-- `int(t)` of a text without sign and underscores; `none` is a `ValueError`. -/
def intOfDigits (digits : Text) : Option Nat :=
  if digits ≠ [] && digits.all isDecimal && digits.length ≤ maxStrDigits then
    some (parseNat digits)
  else none

/-- `int(t)`: an optional sign and digits of any script, with single underscores between them;
`none` is a `ValueError`, also for too many digits. -/
def int? (t : Text) : Option Int :=
  let (negative, digits) := match strip t with
    | '-' :: digits => (true, digits)
    | '+' :: digits => (false, digits)
    | digits => (false, digits)
  let groups := splitOn '_' digits
  let plain := groups.flatten
  if groups.all (fun g => g ≠ [] && g.all isDecimal) && plain.length ≤ maxStrDigits then
    some (if negative then -(parseNat plain : Int) else parseNat plain)
  else none

example : int? " +1_0 " = some 10 ∧ int? "-7" = some (-7) ∧ int? "1__0" = none ∧ int? "" = none := by
  decide +kernel

/-- `t.replace(needle, "")`, from the left; `skip` characters of a match are still to be passed. -/
def removeFrom (needle : Text) : Nat → Text → Text
  | _, [] => []
  | skip + 1, _ :: rest => removeFrom needle skip rest
  | 0, c :: rest =>
    if startsWith (c :: rest) needle then removeFrom needle (needle.length - 1) rest
    else c :: removeFrom needle 0 rest

/-- `t.replace(needle, "")`. -/
def removeAll (needle t : Text) : Text := removeFrom needle 0 t

/-- `t.replace(old, new)`, from the left; `skip` characters of a match are still to be passed. -/
def replaceFrom (old new : Text) : Nat → Text → Text
  | _, [] => []
  | skip + 1, _ :: rest => replaceFrom old new skip rest
  | 0, c :: rest =>
    if startsWith (c :: rest) old then new ++ replaceFrom old new (old.length - 1) rest
    else c :: replaceFrom old new 0 rest

/-- `t.replace(old, new)` for a text `old` that is not empty. -/
def replace (old new t : Text) : Text := replaceFrom old new 0 t

theorem replaceFrom_append (old new passed rest : Text) :
    replaceFrom old new passed.length (passed ++ rest) = replaceFrom old new 0 rest := by
  induction passed with
  | nil => rfl
  | cons c passed ih => exact ih

/-- A match is replaced, and the search goes on behind it. -/
theorem replace_append {old : Text} (hne : old ≠ []) (new rest : Text) :
    replace old new (old ++ rest) = new ++ replace old new rest := by
  obtain ⟨c, tail, rfl⟩ := List.exists_cons_of_ne_nil hne
  have hStart : startsWith (c :: (tail ++ rest)) (c :: tail) = true := by
    simp [startsWith, List.isPrefixOf_iff_prefix]
  rw [replace, List.cons_append, replaceFrom, if_pos hStart]
  exact congrArg (new ++ ·) (replaceFrom_append (c :: tail) new tail rest)

theorem replace_cons {old : Text} {c : Char} {rest : Text} (h : ¬old <+: c :: rest) (new : Text) :
    replace old new (c :: rest) = c :: replace old new rest := by
  rw [replace, replaceFrom, if_neg (by simpa [startsWith, List.isPrefixOf_iff_prefix] using h)]
  rfl

theorem splitOn_join {sep : Char} {parts : List Text} (hne : parts ≠ [])
    (hsep : ∀ p ∈ parts, sep ∉ p) : splitOn sep (join [sep] parts) = parts :=
  List.splitOn_intercalate sep hsep hne

theorem join_concat (sep last : Text) {front : List Text} (hne : front ≠ []) :
    join sep (front ++ [last]) = join sep front ++ sep ++ last := by
  induction front with
  | nil => exact absurd rfl hne
  | cons a rest ih =>
    cases rest with
    | nil => simp [join, List.intercalate]
    | cons b rest =>
      have hRest := ih (List.cons_ne_nil b rest)
      rw [List.cons_append, List.cons_append, join_cons_cons, join_cons_cons, ← List.cons_append,
        hRest]
      simp only [List.append_assoc]

/-- A row of a table: its fields, a comma and a blank between two of them. -/
def row (fields : List Text) : Text := join ", " fields

theorem row_cons (a : Text) (rest : List Text) :
    row (a :: rest) = join [','] (a :: rest.map (' ' :: ·)) := by
  induction rest generalizing a with
  | nil => simp [row, join, List.intercalate]
  | cons b rest ih =>
    have hTail := ih b
    rw [row, join_cons_cons, List.map_cons, join_cons_cons]
    rw [row] at hTail
    rw [hTail]
    cases rest <;> simp [join, List.intercalate]

theorem strip_blank_cons (t : Text) : strip (' ' :: t) = strip t := rfl

/-- The columns of a stripped row are its fields, up to blanks at their ends. -/
theorem columns_row {first : Text} {rest : List Text} (hFirst : first ≠ [])
    (hHead : ∀ c ∈ first.head?, isSpace c = false) (hRest : rest ≠ [])
    (hComma : ∀ f ∈ first :: rest, ',' ∉ f) :
    (splitOn ',' (strip (row (first :: rest)))).map strip = (first :: rest).map strip := by
  obtain ⟨middle, last, rfl⟩ : ∃ middle last, rest = middle ++ [last] :=
    ⟨_, _, (List.dropLast_append_getLast hRest).symm⟩
  have hFront : first :: middle.map (' ' :: ·) ≠ [] := List.cons_ne_nil _ _
  have hRow : row (first :: (middle ++ [last])) =
      join [','] (first :: middle.map (' ' :: ·)) ++ [','] ++ ' ' :: last := by
    rw [row_cons, List.map_append, List.map_singleton, ← List.cons_append, join_concat _ _ hFront]
  have hStrip : strip (row (first :: (middle ++ [last]))) =
      join [','] ((first :: middle.map (' ' :: ·)) ++ [rstrip (' ' :: last)]) := by
    have hLeft : lstrip (row (first :: (middle ++ [last]))) =
        row (first :: (middle ++ [last])) := by
      refine dropWhile_eq_self_of_head ?_
      obtain ⟨c, cs, rfl⟩ := List.exists_cons_of_ne_nil hFirst
      have hc := hHead c rfl
      rw [row, join]
      cases middle <;> simp [List.intercalate, hc]
    rw [strip, hLeft, hRow, rstrip_append _ (by simp; decide), join_concat _ _ hFront]
  rw [hStrip, splitOn_join (by simp)]
  · simp [strip_rstrip, strip_blank_cons]
  · intro f hf
    rcases List.mem_append.mp hf with hf | hf
    · rcases List.mem_cons.mp hf with rfl | hf
      · exact hComma f List.mem_cons_self
      · obtain ⟨g, hg, rfl⟩ := List.mem_map.mp hf
        have hNot := hComma g (List.mem_cons_of_mem _ (List.mem_append_left _ hg))
        simpa using hNot
    · rw [List.mem_singleton.mp hf]
      intro h
      have hLast := hComma last (List.mem_cons_of_mem _ (List.mem_append_right _ (by simp)))
      rcases List.mem_cons.mp (mem_of_mem_rstrip h) with h | h
      · cases h
      · exact hLast h

end PyText

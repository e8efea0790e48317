import GpuMon.Library.Csv

/-!
# The rows of an export (`csv.js`)

Every value of a row becomes a quoted field. An apostrophe is put before what a spreadsheet may take
for a formula.

* `csvRow_eq`: a row is the quoted form of its guarded texts.
* `isFile_csvRow_iff`: so the texts are what RFC 4180 reads from the row, if it has any.
-/

namespace GpuMon.CsvExport

open Csv

/-- A string of the browser: UTF-16 code units, with surrogates paired or not. -/
abbrev JsString := List UInt16

def unit (c : Char) : UInt16 := UInt16.ofNat c.toNat

/-- A value of a row. A number or an object comes with what `String` makes of it. -/
inductive JsValue
  | undefined
  | null
  | string (text : JsString)
  | printed (text : JsString)

/-- `value == null ? '' : String(value)`. -/
def JsValue.text : JsValue → JsString
  | undefined => []
  | null => []
  | string text => text
  | printed text => text

/-- The class `\s`. -/
def isSpace (c : UInt16) : Bool :=
  c ∈ ([0x09, 0x0A, 0x0B, 0x0C, 0x0D, 0x20, 0xA0, 0x1680, 0x2028, 0x2029, 0x202F, 0x205F, 0x3000,
    0xFEFF] : List UInt16) || (0x2000 ≤ c && c ≤ 0x200A)

/-- The class `[=+\-@]`. -/
def isSign (c : UInt16) : Bool := c ∈ [unit '=', unit '+', unit '-', unit '@']

/-- `/^[\s]*[=+\-@]/.test(text)`. -/
def startsFormula : JsString → Bool
  | [] => false
  | c :: rest => isSign c || (isSpace c && startsFormula rest)

/-- `text.replaceAll(one, many)` for a single code unit. -/
def replaceAll (one : UInt16) (many text : JsString) : JsString :=
  text.flatMap fun c => if c = one then many else [c]

def csvCell (value : JsValue) : JsString :=
  let text := value.text
  let text := if startsFormula text then unit '\'' :: text else text
  unit '"' :: replaceAll (unit '"') [unit '"', unit '"'] text ++ [unit '"']

def csvRow (values : List JsValue) : JsString := [unit ','].intercalate (values.map csvCell)

/-! ## What is read from a row -/

def rfc4180 : Symbols UInt16 where
  quote := unit '"'
  comma := unit ','
  cr := unit '\r'
  lf := unit '\n'
  apart := by decide

/-- The first character that is not blank. -/
def firstVisible (text : JsString) : Option UInt16 := text.find? fun c => !isSpace c

/-- What is expected to come back for a value. -/
def guarded (value : JsValue) : JsString :=
  if (firstVisible value.text).any isSign then unit '\'' :: value.text else value.text

theorem isSpace_of_isSign {c : UInt16} (h : isSign c = true) : isSpace c = false := by
  simp only [isSign, decide_eq_true_eq, List.mem_cons, List.not_mem_nil, or_false] at h
  rcases h with rfl | rfl | rfl | rfl <;> decide

/-- Blanks are no signs, so the expression looks at the first character after them. -/
theorem startsFormula_eq (text : JsString) :
    startsFormula text = (firstVisible text).any isSign := by
  induction text with
  | nil => rfl
  | cons c rest ih =>
    rw [startsFormula, firstVisible, List.find?_cons]
    cases hSpace : isSpace c with
    | true =>
      have hSign : isSign c = false := by
        by_contra hSign
        rw [isSpace_of_isSign (Bool.eq_true_of_not_eq_false hSign)] at hSpace
        cases hSpace
      rw [hSign, Bool.false_or, Bool.true_and, ih]
      rfl
    | false =>
      rw [Bool.false_and, Bool.or_false]
      rfl

theorem csvCell_eq (value : JsValue) : csvCell value = quoted rfc4180 (guarded value) := by
  have hDouble : ∀ text : JsString,
      replaceAll (unit '"') [unit '"', unit '"'] text = doubled rfc4180 text := by
    intro text
    refine List.flatMap_congr fun c _ => ?_
    by_cases hc : c = unit '"'
    · rw [hc]
      rfl
    · rw [if_neg hc]
      exact (if_neg hc).symm
  rw [csvCell, startsFormula_eq, hDouble]
  rfl

theorem csvRow_eq (values : List JsValue) : csvRow values = row rfc4180 (values.map guarded) := by
  have hCells : values.map csvCell = (values.map guarded).map (quoted rfc4180) := by
    rw [List.map_map]
    exact List.map_congr_left fun value _ => csvCell_eq value
  rw [csvRow, hCells]
  rfl

theorem isFile_csvRow_iff (value : JsValue) (rest : List JsValue)
    (records : List (List JsString)) :
    IsFile rfc4180 (csvRow (value :: rest)) records ↔
      records = [(value :: rest).map guarded] := by
  rw [← decode_eq_some_iff, csvRow_eq, List.map_cons, decode_row, Option.some.injEq, eq_comm]

/-- There is no row without a field. -/
theorem isFile_csvRow_nil_iff (records : List (List JsString)) :
    IsFile rfc4180 (csvRow []) records ↔ records = [[[]]] := by
  have hDecode : decode rfc4180 (csvRow []) = some [[[]]] := rfl
  rw [← decode_eq_some_iff, hDecode, Option.some.injEq, eq_comm]

/-- A guarded text begins with an apostrophe or with what is no sign. -/
theorem isSign_guarded {value : JsValue} {c : UInt16} (h : firstVisible (guarded value) = some c) :
    isSign c = false := by
  unfold guarded at h
  by_cases hSign : (firstVisible value.text).any isSign = true
  · rw [if_pos hSign] at h
    have hFirst : firstVisible (unit '\'' :: value.text) = some (unit '\'') := rfl
    rw [hFirst, Option.some.injEq] at h
    rw [← h]
    rfl
  · rw [if_neg hSign] at h
    rw [h] at hSign
    exact Bool.eq_false_of_not_eq_true hSign

/-- A row of at least one value is read as one record of as many fields, each the text of its value
with an apostrophe where it could start a formula. No field of a row starts one. -/
theorem csvRow_decoded :
    (∀ value rest records, IsFile rfc4180 (csvRow (value :: rest)) records ↔
      records = [(value :: rest).map guarded]) ∧
    (∀ records, IsFile rfc4180 (csvRow []) records ↔ records = [[[]]]) ∧
    ∀ values records, IsFile rfc4180 (csvRow values) records →
      ∀ record ∈ records, ∀ field ∈ record, ∀ c, firstVisible field = some c →
        c ∉ [unit '=', unit '+', unit '-', unit '@'] := by
  refine ⟨isFile_csvRow_iff, isFile_csvRow_nil_iff, ?_⟩
  intro values records hFile record hRecord field hField c hFirst
  cases values with
  | nil =>
    rw [isFile_csvRow_nil_iff] at hFile
    subst hFile
    rw [List.mem_singleton.mp hRecord] at hField
    rw [List.mem_singleton.mp hField] at hFirst
    cases hFirst
  | cons value rest =>
    rw [isFile_csvRow_iff] at hFile
    subst hFile
    rw [List.mem_singleton.mp hRecord] at hField
    obtain ⟨source, -, rfl⟩ := List.mem_map.mp hField
    exact of_decide_eq_false (isSign_guarded hFirst)

/-- The row of no values has a field. -/
theorem csvRow_nil_decoded :
    IsFile rfc4180 (csvRow []) [[[]]] ∧ ¬IsFile rfc4180 (csvRow []) [[]] := by
  have hDecode : decode rfc4180 (csvRow []) = some [[[]]] := rfl
  rw [← decode_eq_some_iff, ← decode_eq_some_iff, hDecode]
  exact ⟨rfl, nofun⟩

end GpuMon.CsvExport

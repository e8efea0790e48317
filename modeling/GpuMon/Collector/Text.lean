import GpuMon.GpuQuery
import GpuMon.Library.BatchLoop
import GpuMon.Library.Dict
import GpuMon.Library.Float64

/-!
# The text of a poll (`ssh_collector.py`)

The fast script prints sections, one after another under a header. Nothing is what a function
returns that raises; numbers are binary64.

* `isSome_firstLine`: taking the first line of a section does not raise.
* `isSome_intLine?_iff`: reading an integer off it does, unless the number is finite.
-/

namespace GpuMon.Collector

open PyText PyFloat BatchLoop

/-! ## Texts and numbers -/

/-- `t.split(None, n)`: words, and the text after `n` of them. -/
def splitSpace : Nat → Text → List Text
  | 0, t => if lstrip t = [] then [] else [lstrip t]
  | n + 1, t =>
    if lstrip t = [] then []
    else
      (lstrip t).takeWhile (fun c => !isSpace c) ::
        splitSpace n ((lstrip t).dropWhile fun c => !isSpace c)

/-- `t.split()`. -/
def words (t : Text) : List Text := splitSpace t.length t

/-- `[p.strip() for p in line.split(",")]`. -/
def splitComma (line : Text) : List Text := (splitOn ',' line).map strip

/-- `_to_float(v)`. -/
def toFloat (v : Text) : PyFloat := binary64 (GpuQuery.toFloat v 0)

/-- `_gval(v)`. -/
def gval (v : Text) : PyFloat := binary64 (GpuQuery.gval v)

/-- `int(_to_float(v))`. -/
def toInt? (v : Text) : Option Int := (toFloat v).truncate?

/-- `int(_to_float(v))` does not raise. -/
def IsNumber (v : Text) : Prop := (toFloat v).isFinite = true

theorem isSome_toInt? {v : Text} : (toInt? v).isSome = true ↔ IsNumber v := by
  rw [toInt?, isSome_truncate?, IsNumber]

/-- `_first_line`; the blank text has none to take. -/
def firstLine (s : Text) : Option Text :=
  if strip s ≠ [] then (splitlines (strip s))[0]?.map strip else some []

/-- `int(_to_float(_first_line(s)))`. -/
def intLine? (s : Text) : Option Int := (firstLine s).bind toInt?

/-- The first line is a finite number, or nothing of the kind. -/
def FirstLineReadable (s : Text) : Prop := ∀ line, firstLine s = some line → IsNumber line

/-! ## Sections -/

def isSectionChar (c : Char) : Bool := c.isUpper || c.isDigit || c = '_'

/-- `re.match(r"^==([A-Z0-9_]+)==$", line.strip())`. -/
def sectionName? (line : Text) : Option Text :=
  let t := strip line
  let name := (t.drop 2).dropLast.dropLast
  if t = ['=', '='] ++ name ++ ['=', '='] ∧ name ≠ [] ∧ name.all isSectionChar then some name
  else none

def sectionLine (s : Option Text × Dict Text (List Text)) (line : Text) :
    Option Text × Dict Text (List Text) :=
  match sectionName? line, s.1 with
  | some name, _ => (some name, s.2.set name [])
  | none, some current => (some current, s.2.set current ((s.2.get? current).getD [] ++ [line]))
  | none, none => s

/-- `_split_sections`. -/
def splitSections (out : Text) : Dict Text Text :=
  ((splitlines out).foldl sectionLine (none, .empty)).2.mapValues (join ['\n'])

/-- `sec.get(name, default)`. -/
def textOf (sec : Dict Text Text) (name : Text) (default : Text) : Text :=
  (sec.get? name).getD default

/-! ## What is found in a text -/

theorem splitSpace_ne_nil {t : Text} (h : lstrip t ≠ []) (n : Nat) : splitSpace n t ≠ [] := by
  cases n <;> simp [splitSpace, h]

theorem lstrip_ne_nil {t : Text} (h : strip t ≠ []) : lstrip t ≠ [] := by
  intro hNil
  exact h (by rw [strip, hNil, rstrip_nil])

theorem words_ne_nil {t : Text} (h : strip t ≠ []) : words t ≠ [] :=
  splitSpace_ne_nil (lstrip_ne_nil h) t.length

theorem isSome_getElem?_zero {α : Type} {l : List α} (h : l ≠ []) : (l[0]?).isSome = true := by
  cases l with
  | nil => exact (h rfl).elim
  | cons => rfl

theorem isSome_firstLine (s : Text) : (firstLine s).isSome = true := by
  rw [firstLine]
  split
  · rename_i hBlank
    rw [Option.isSome_map]
    exact isSome_getElem?_zero (splitlines_ne_nil hBlank)
  · rfl

theorem isSome_intLine?_iff {s : Text} : (intLine? s).isSome = true ↔ FirstLineReadable s := by
  obtain ⟨line, hLine⟩ := Option.isSome_iff_exists.mp (isSome_firstLine s)
  rw [intLine?, FirstLineReadable, hLine, Option.bind_some, isSome_toInt?]
  simp only [Option.some.injEq, forall_eq']

theorem head_lstrip {t : Text} (h : lstrip t ≠ []) :
    ∃ c rest, lstrip t = c :: rest ∧ isSpace c = false := by
  obtain ⟨c, rest, hEq⟩ := List.exists_cons_of_ne_nil h
  refine ⟨c, rest, hEq, dropWhile_head (p := isSpace) (t := t) c ?_⟩
  rw [← lstrip, hEq]
  rfl

/-- Every piece begins with a character that is no space. -/
theorem head_of_mem_splitSpace {n : Nat} {t w : Text} (h : w ∈ splitSpace n t) :
    ∃ c rest, w = c :: rest ∧ isSpace c = false := by
  induction n generalizing t with
  | zero =>
    rw [splitSpace] at h
    split at h
    · cases h
    · rename_i hText
      rw [List.mem_singleton.mp h]
      exact head_lstrip hText
  | succ n ih =>
    rw [splitSpace] at h
    split at h
    · cases h
    · rename_i hText
      rcases List.mem_cons.mp h with rfl | h
      · obtain ⟨c, rest, hEq, hc⟩ := head_lstrip hText
        rw [hEq, List.takeWhile_cons_of_pos (by simp [hc])]
        exact ⟨c, _, rfl, hc⟩
      · exact ih h

end GpuMon.Collector

import GpuMon.Collector.Text
import GpuMon.Kernel.Log

/-!
# The load of the processors (`ssh_collector.py`)

Two snapshots of `/proc/stat`, with the frequencies and the temperatures beside them.

* `isSome_parseCpu_iff`: what makes `_parse_cpu` raise.
-/

namespace GpuMon.Collector

open PyText PyFloat Regex BatchLoop

/-! ## The parser -/

/-- `_parse_cpu_lines`. -/
def parseCpuLines (text : Text) : Dict Text (List PyFloat) :=
  (splitlines text).foldl (fun result line =>
    match words line with
    | [] => result
    | name :: rest => if startsWith name "cpu" then result.set name (rest.map toFloat) else result)
    .empty

/-- `_core_util`. -/
def coreUtil (f1 f2 : List PyFloat) : Option PyFloat :=
  let total := sub (sum f2) (sum f1)
  if le total 0 then some 0
  else do
    let idle := sub (← f2[3]?) (← f1[3]?)
    let iowait ←
      if 4 < f2.length ∧ 4 < f1.length then do some (sub (← f2[4]?) (← f1[4]?)) else some 0
    let share ← div? (add idle iowait) total
    some (roundDigits 1
      (minOf (finite 100) (maxOf 0 (mul (sub (finite 1) share) (finite 100)))))

/-- `_cpu_iowait`. -/
def cpuIowait (f1 f2 : List PyFloat) : Option PyFloat :=
  let total := sub (sum f2) (sum f1)
  if le total 0 ∨ f2.length < 5 ∨ f1.length < 5 then some 0
  else do
    let share ← div? (sub (← f2[4]?) (← f1[4]?)) total
    some (roundDigits 1 (minOf (finite 100) (maxOf 0 (mul share (finite 100)))))

structure Core where
  id : Nat
  util : PyFloat
  freqMhz : Int
  temp : PyFloat

def freqLine (freqs : List PyFloat) (line : Text) : Option (List PyFloat) :=
  if strip line = [] then some freqs
  else do
    let v := toFloat (← (words (strip line)).getLast?)
    some (if lt 0 v then freqs ++ [v] else freqs)

/-- The frequencies that are positive. -/
def cpuFreqs (freqText : Text) : Option (List PyFloat) := (splitlines freqText).foldlM freqLine []

def coreRegex : Regex := all [litI "Core", plus isSpace, group 1 (plus isDecimal), eol]

def packageRegex : Regex := all [anyOfI ["Package id 0", "Tctl", "Tdie", "CPU"], eol]

structure Temperatures where
  cores : Dict Int PyFloat := .empty
  package : PyFloat := 0

def tempLine (t : Temperatures) (line : Text) : Option Temperatures :=
  if '=' ∉ line then some t
  else
    let name := strip (partition '=' line).1
    let v := divBy 1000 (toFloat (partition '=' line).2)
    if le v 0 ∨ lt (finite 150) v then some t
    else
      match match? coreRegex name with
      | some m => do
        let core ← (m.group? 1).bind int?
        some { t with cores := t.cores.set core (roundDigits 1 v) }
      | none =>
        if (match? packageRegex name).isSome then
          some { t with package := maxOf t.package (roundDigits 1 v) }
        else some t

structure Cpu where
  overall : PyFloat := 0
  iowait : PyFloat := 0
  cores : List Core := []
  packageTemp : PyFloat := 0

/-- The key of a core in `/proc/stat`. -/
def coreKey (i : Nat) : Text := "cpu".toList ++ natText i

/-- Both snapshots of a line of `/proc/stat`. -/
def bothOf (c1 c2 : Dict Text (List PyFloat)) (key : Text) :
    Option (List PyFloat × List PyFloat) := do some (← c1.get? key, ← c2.get? key)

/-- The load of a line that both snapshots have. -/
def utilOf (c1 c2 : Dict Text (List PyFloat)) (key : Text) : Option PyFloat :=
  match bothOf c1 c2 key with
  | some (f1, f2) => coreUtil f1 f2
  | none => some 0

def iowaitOf (c1 c2 : Dict Text (List PyFloat)) (key : Text) : Option PyFloat :=
  match bothOf c1 c2 key with
  | some (f1, f2) => cpuIowait f1 f2
  | none => some 0

/-- `round(freqs[i]) if i < len(freqs) else 0`. -/
def freqOf (freqs : List PyFloat) (i : Nat) : Option Int :=
  if i < freqs.length then freqs[i]?.bind roundInt? else some 0

def coreEntry (c1 c2 : Dict Text (List PyFloat)) (freqs : List PyFloat) (temps : Dict Int PyFloat)
    (i : Nat) : Option Core := do
  let util ← utilOf c1 c2 (coreKey i)
  let freqMhz ← freqOf freqs i
  some { id := i, util, freqMhz, temp := (temps.get? i).getD 0 }

/-- `_parse_cpu`. -/
def parseCpu (s1 s2 freqText tempText : Text) (count : Int) : Option Cpu := do
  let c1 := parseCpuLines s1
  let c2 := parseCpuLines s2
  let overall ← utilOf c1 c2 "cpu"
  let iowait ← iowaitOf c1 c2 "cpu"
  let freqs ← cpuFreqs freqText
  let temps ← (splitlines tempText).foldlM tempLine {}
  let cores ← (List.range count.toNat).mapM (coreEntry c1 c2 freqs temps.cores)
  some { overall, iowait, cores, packageTemp := temps.package }

/-! ## What makes it raise -/

theorem isSome_cpuIowait (f1 f2 : List PyFloat) : (cpuIowait f1 f2).isSome = true := by
  rw [cpuIowait]
  split
  · rfl
  · rename_i hGuard
    simp only [not_or, not_lt, Bool.not_eq_true] at hGuard
    obtain ⟨hTotal, h2, h1⟩ := hGuard
    obtain ⟨share, hShare⟩ := Option.isSome_iff_exists.mp
      (isSome_div? (ne_zero_of_not_le hTotal) (sub f2[4] f1[4]))
    simp [List.getElem?_eq_getElem h2, List.getElem?_eq_getElem h1, hShare]

/-- The frequency of a line, if it is positive. -/
def frequency? (line : Text) : Option PyFloat :=
  ((words (strip line)).getLast?.map toFloat).filter (lt 0)

theorem freqLine_eq (freqs : List PyFloat) (line : Text) :
    freqLine freqs line = some (freqs ++ (frequency? line).toList) := by
  rw [freqLine, frequency?]
  split
  · rename_i hBlank
    have hWords : words (strip line) = [] := by rw [hBlank]; rfl
    rw [hWords]
    simp
  · rename_i hBlank
    have hWords : words (strip line) ≠ [] := words_ne_nil (by rwa [strip_strip])
    rw [List.getLast?_eq_some_getLast hWords, Option.map_some, Option.filter_some]
    simp only [Option.bind_eq_bind, Option.bind_some]
    split <;> simp

/-- The frequencies are read without an exception. -/
theorem cpuFreqs_eq (text : Text) :
    cpuFreqs text = some ((splitlines text).filterMap frequency?) := by
  suffices hLoop : ∀ (lines : List Text) freqs,
      lines.foldlM freqLine freqs = some (freqs ++ lines.filterMap frequency?) from
    hLoop (splitlines text) []
  intro lines
  induction lines with
  | nil => simp
  | cons line lines ih =>
    intro freqs
    rw [List.foldlM_cons, freqLine_eq, Option.bind_eq_bind, Option.bind_some, ih, List.append_assoc]
    cases hLine : frequency? line <;> simp [hLine]

/-- Lines of `/proc/stat` between which time went by have four columns. -/
def CoreReadable (f1 f2 : List PyFloat) : Prop :=
  le (sub (sum f2) (sum f1)) 0 = true ∨ 4 ≤ f1.length ∧ 4 ≤ f2.length

theorem isSome_coreUtil_iff (f1 f2 : List PyFloat) :
    (coreUtil f1 f2).isSome = true ↔ CoreReadable f1 f2 := by
  rw [coreUtil, CoreReadable]
  split
  · rename_i hTotal
    exact iff_of_true rfl (.inl hTotal)
  · rename_i hTotal
    rw [or_iff_right hTotal]
    have hDiv : ∀ x, (div? x (sub (sum f2) (sum f1))).isSome = true :=
      isSome_div? (ne_zero_of_not_le (Bool.eq_false_of_not_eq_true hTotal))
    by_cases h2 : 3 < f2.length
    · by_cases h1 : 3 < f1.length
      · refine iff_of_true ?_ ⟨h1, h2⟩
        rw [List.getElem?_eq_getElem h2, List.getElem?_eq_getElem h1]
        simp only [Option.bind_eq_bind, Option.bind_some]
        split
        · rename_i hLonger
          obtain ⟨share, hShare⟩ := Option.isSome_iff_exists.mp
            (hDiv (add (sub f2[3] f1[3]) (sub f2[4] f1[4])))
          simp [List.getElem?_eq_getElem hLonger.1, List.getElem?_eq_getElem hLonger.2, hShare]
        · obtain ⟨share, hShare⟩ := Option.isSome_iff_exists.mp
            (hDiv (add (sub f2[3] f1[3]) 0))
          simp [hShare]
      · have hNone : f1[3]? = none := List.getElem?_eq_none (by omega)
        simp [hNone]
        omega
    · have hNone : f2[3]? = none := List.getElem?_eq_none (by omega)
      simp [hNone]
      omega

/-- A reading that counts, of a core, has a number that `int` accepts. -/
def TempReadable (line : Text) : Prop :=
  '=' ∈ line → le (divBy 1000 (toFloat (partition '=' line).2)) 0 = false →
    lt (finite 150) (divBy 1000 (toFloat (partition '=' line).2)) = false →
    ∀ m, match? coreRegex (strip (partition '=' line).1) = some m →
      ((m.group? 1).bind int?).isSome = true

theorem isSome_tempLine_iff (t : Temperatures) (line : Text) :
    (tempLine t line).isSome = true ↔ TempReadable line := by
  rw [tempLine, TempReadable]
  split
  · rename_i hMark
    exact iff_of_true rfl fun h => (hMark h).elim
  · rename_i hMark
    rw [not_not] at hMark
    dsimp only
    split
    · rename_i hRange
      refine iff_of_true rfl fun _ hLow hHigh => ?_
      rw [hLow, hHigh] at hRange
      exact (hRange.elim Bool.false_ne_true Bool.false_ne_true).elim
    · rename_i hRange
      simp only [not_or, Bool.not_eq_true] at hRange
      simp only [hMark, hRange.1, hRange.2, true_implies]
      split
      · rename_i m hCore
        simp only [hCore, Option.some.injEq, forall_eq']
        cases (m.group? 1).bind int? <;> simp
      · rename_i hNone
        refine iff_of_true ?_ fun m hCore => ?_
        · split <;> rfl
        · rw [hNone] at hCore
          cases hCore

theorem isSome_utilOf_iff {c1 c2 : Dict Text (List PyFloat)} {key : Text} :
    (utilOf c1 c2 key).isSome = true ↔
      ∀ f1 f2, bothOf c1 c2 key = some (f1, f2) → CoreReadable f1 f2 := by
  rw [utilOf]
  split
  · rename_i f1 f2 hBoth
    simp [hBoth, isSome_coreUtil_iff]
  · rename_i hNone
    simp [hNone]

theorem isSome_iowaitOf (c1 c2 : Dict Text (List PyFloat)) (key : Text) :
    (iowaitOf c1 c2 key).isSome = true := by
  rw [iowaitOf]
  split
  · exact isSome_cpuIowait _ _
  · rfl

theorem isSome_freqOf_iff {freqs : List PyFloat} {i : Nat} :
    (freqOf freqs i).isSome = true ↔ ∀ v, freqs[i]? = some v → v.isFinite = true := by
  rw [freqOf]
  split
  · rename_i hLength
    simp [List.getElem?_eq_getElem hLength, isSome_roundInt?]
  · rename_i hLength
    simp [List.getElem?_eq_none (not_lt.mp hLength)]

theorem isSome_coreEntry_iff {c1 c2 : Dict Text (List PyFloat)} {freqs : List PyFloat}
    {temps : Dict Int PyFloat} {i : Nat} :
    (coreEntry c1 c2 freqs temps i).isSome = true ↔
      (∀ f1 f2, bothOf c1 c2 (coreKey i) = some (f1, f2) → CoreReadable f1 f2) ∧
        ∀ v, freqs[i]? = some v → v.isFinite = true := by
  rw [coreEntry, ← isSome_utilOf_iff, ← isSome_freqOf_iff]
  refine isSome_bind_of_forall fun util _ => ?_
  rw [isSome_bind_of_forall (P := True) fun _ _ => by simp, and_true]

/-- What the sections of the processors must hold. -/
structure CpuReadable (s1 s2 freqText tempText : Text) (count : Int) : Prop where
  overall : ∀ f1 f2, bothOf (parseCpuLines s1) (parseCpuLines s2) "cpu" = some (f1, f2) →
    CoreReadable f1 f2
  temps : ∀ line ∈ splitlines tempText, TempReadable line
  cores : ∀ i : Nat, (i : Int) < count → ∀ f1 f2,
    bothOf (parseCpuLines s1) (parseCpuLines s2) (coreKey i) = some (f1, f2) → CoreReadable f1 f2
  freqs : ∀ i : Nat, (i : Int) < count → ∀ v,
    ((splitlines freqText).filterMap frequency?)[i]? = some v → v.isFinite = true

theorem isSome_parseCpu_iff (s1 s2 freqText tempText : Text) (count : Int) :
    (parseCpu s1 s2 freqText tempText count).isSome = true ↔
      CpuReadable s1 s2 freqText tempText count := by
  have hFreqs := cpuFreqs_eq freqText
  have hCores : ∀ temps : Temperatures, ((List.range count.toNat).mapM (coreEntry
      (parseCpuLines s1) (parseCpuLines s2) ((splitlines freqText).filterMap frequency?)
      temps.cores)).isSome = true ↔
      ∀ i : Nat, (i : Int) < count → (∀ f1 f2, bothOf (parseCpuLines s1) (parseCpuLines s2)
        (coreKey i) = some (f1, f2) → CoreReadable f1 f2) ∧
        ∀ v, ((splitlines freqText).filterMap frequency?)[i]? = some v → v.isFinite = true :=
      fun temps => by
    simp only [isSome_mapM_iff, List.mem_range, isSome_coreEntry_iff, Int.lt_toNat]
  have hTemps : ((splitlines tempText).foldlM tempLine {}).isSome = true ↔
      ∀ line ∈ splitlines tempText, TempReadable line :=
    isSome_foldlM_forall_iff isSome_tempLine_iff _ _
  have hChain : (parseCpu s1 s2 freqText tempText count).isSome = true ↔
      (utilOf (parseCpuLines s1) (parseCpuLines s2) "cpu").isSome = true ∧
        (∀ line ∈ splitlines tempText, TempReadable line) ∧
        ∀ i : Nat, (i : Int) < count → (∀ f1 f2, bothOf (parseCpuLines s1) (parseCpuLines s2)
          (coreKey i) = some (f1, f2) → CoreReadable f1 f2) ∧
          ∀ v, ((splitlines freqText).filterMap frequency?)[i]? = some v →
            v.isFinite = true := by
    rw [parseCpu]
    refine isSome_bind_of_forall fun overall _ => ?_
    refine (isSome_bind_of_forall fun iowait _ => ?_).trans
      (and_iff_right (isSome_iowaitOf _ _ _))
    rw [hFreqs, Option.bind_eq_bind, Option.bind_some, ← hTemps]
    refine isSome_bind_of_forall fun temps _ => ?_
    rw [← hCores temps]
    refine (isSome_bind_of_forall (P := True) fun cores _ => ?_).trans (iff_of_eq (and_true _))
    simp
  rw [hChain, isSome_utilOf_iff]
  constructor
  · rintro ⟨hOverall, hLines, hEach⟩
    exact ⟨hOverall, hLines, fun i hi => (hEach i hi).1, fun i hi => (hEach i hi).2⟩
  · rintro ⟨hOverall, hLines, hUtil, hFreq⟩
    exact ⟨hOverall, hLines, fun i hi => ⟨hUtil i hi, hFreq i hi⟩⟩

theorem freqOf_le_greatest {text : Text} {i : Nat} {n : Int}
    (h : freqOf ((splitlines text).filterMap frequency?) i = some n) : (n : ℚ) ≤ greatest := by
  rw [freqOf] at h
  split at h
  · obtain ⟨v, hFreq, hRound⟩ := Option.bind_eq_some_iff.mp h
    obtain ⟨line, -, hLine⟩ := List.mem_filterMap.mp (List.mem_of_getElem? hFreq)
    obtain ⟨literal, -, rfl⟩ := Option.map_eq_some_iff.mp (Option.filter_eq_some_iff.mp hLine).1
    exact roundInt?_le_greatest hRound
  · cases h
    rw [greatest, Int.cast_zero]
    exact mul_nonneg (by norm_num) (by positivity)

/-- The frequencies of the cores are numbers of the format, rounded. -/
theorem freqMhz_le_greatest {s1 s2 freqText tempText : Text} {count : Int} {cpu : Cpu}
    (h : parseCpu s1 s2 freqText tempText count = some cpu) {core : Core}
    (hCore : core ∈ cpu.cores) : (core.freqMhz : ℚ) ≤ greatest := by
  rw [parseCpu, cpuFreqs_eq] at h
  obtain ⟨overall, -, h⟩ := Option.bind_eq_some_iff.mp h
  obtain ⟨iowait, -, h⟩ := Option.bind_eq_some_iff.mp h
  obtain ⟨freqs, hFreqs, h⟩ := Option.bind_eq_some_iff.mp h
  cases hFreqs
  obtain ⟨temps, -, h⟩ := Option.bind_eq_some_iff.mp h
  obtain ⟨cores, hCores, h⟩ := Option.bind_eq_some_iff.mp h
  cases h
  have hEntry : some core ∈ (List.range count.toNat).map _ :=
    mapM_eq_some_iff.mp hCores ▸ List.mem_map_of_mem hCore
  obtain ⟨i, -, hEntry⟩ := List.mem_map.mp hEntry
  rw [coreEntry] at hEntry
  obtain ⟨util, -, hEntry⟩ := Option.bind_eq_some_iff.mp hEntry
  obtain ⟨freqMhz, hFreq, hEntry⟩ := Option.bind_eq_some_iff.mp hEntry
  cases hEntry
  exact freqOf_le_greatest hFreq

end GpuMon.Collector

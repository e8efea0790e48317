import GpuMon.Collector.Text
import GpuMon.Kernel.Log

/-!
# Sockets and processes (`ssh_collector.py`)

* `isSome_parseSockstat_iff`, `isSome_parsePs_iff`: what makes the parsers raise.
-/

namespace GpuMon.Collector

open PyText PyFloat Regex BatchLoop

/-! ## Sockets and processes -/

structure Sockets where
  estab : Int := 0
  timewait : Int := 0
  closewait : Int := 0

def estabRegex : Regex := all [lit "ESTAB", plus isSpace, group 1 (plus isDecimal)]

def twRegex (alnum : Char → Bool) : Regex :=
  all [wordBoundary (Kernel.isWord alnum), lit "tw", plus isSpace, group 1 (plus isDecimal)]

/-- `int(m.group(1))` where the expression is found, and the old value where it is not. -/
def foundInt? (r : Regex) (line : Text) (old : Int) : Option Int :=
  match search r line with
  | some m => (m.group? 1).bind int?
  | none => some old

def sockLine (alnum : Char → Bool) (out : Sockets) (line : Text) : Option Sockets := do
  let estab ← foundInt? estabRegex line out.estab
  let timewait ← foundInt? (twRegex alnum) line out.timewait
  some { out with estab, timewait }

/-- `_parse_sockstat`; `alnum` says which characters beyond ASCII are letters or digits. -/
def parseSockstat (alnum : Char → Bool) (text : Text) : Option Sockets :=
  (splitlines text).foldlM (sockLine alnum) {}

/-- `_executable_name`. -/
def executableName (command : Text) : Option Text :=
  (splitSpace 1 (strip command))[0]?.map fun first => (first.rtakeWhile (· ≠ '/')).take 80

structure Process where
  pid : Int
  ppid : Int
  cpu : PyFloat
  mem : PyFloat
  rssMb : PyFloat
  vszMb : PyFloat
  stat : Text
  etimes : Int
  command : Text
  user : Text

/-- The process of a row; nothing for a row that is skipped. -/
def psRow (includeSensitive : Bool) (line : Text) : Option (Option Process) :=
  let parts := splitSpace 9 line
  if parts.length < 10 then some none
  else do
    let pid := int? (← parts[0]?)
    let ppid := int? (← parts[1]?)
    match pid, ppid with
    | some pid, some ppid => do
      let command ←
        if includeSensitive then parts[9]?.map fun args => strip (args.take 120)
        else parts[9]?.bind executableName
      let user ← if includeSensitive then parts[2]? else some []
      some (some
        { pid, ppid
          cpu := toFloat (← parts[3]?)
          mem := toFloat (← parts[4]?)
          rssMb := roundDigits 1 (divBy 1024 (toFloat (← parts[5]?)))
          vszMb := roundDigits 1 (divBy 1024 (toFloat (← parts[6]?)))
          stat := ← parts[7]?
          etimes := ← parts[8]?.bind toInt?
          command, user })
    | _, _ => some none

/-- The loop over the rows, until there are as many processes as `limit`. -/
def psRows (limit : Nat) (includeSensitive : Bool) :
    List Process → List Text → Option (List Process)
  | procs, [] => some procs
  | procs, line :: rest => do
    match ← psRow includeSensitive line with
    | none => psRows limit includeSensitive procs rest
    | some process =>
      let procs := procs ++ [process]
      if limit ≤ procs.length then some procs else psRows limit includeSensitive procs rest

/-- The rows of the table of processes, without its header. -/
def psLines (text : Text) : List Text :=
  (((splitlines text).filter fun line => strip line ≠ []).map rstrip).drop 1

/-- `_parse_ps`. -/
def parsePs (text : Text) (limit : Nat) (includeSensitive : Bool) : Option (List Process) :=
  psRows limit includeSensitive [] (psLines text)

/-! ## What makes them raise -/

/-- The numbers that the expressions find are ones that `int` accepts. -/
def SockReadable (alnum : Char → Bool) (line : Text) : Prop :=
  ∀ r ∈ [estabRegex, twRegex alnum], ∀ m, search r line = some m →
    ((m.group? 1).bind int?).isSome = true

theorem isSome_foundInt?_iff (r : Regex) (line : Text) (old : Int) :
    (foundInt? r line old).isSome = true ↔
      ∀ m, search r line = some m → ((m.group? 1).bind int?).isSome = true := by
  rw [foundInt?]
  split
  · rename_i m hFound
    simp [hFound]
  · rename_i hNone
    simp [hNone]

theorem isSome_parseSockstat_iff (alnum : Char → Bool) (text : Text) :
    (parseSockstat alnum text).isSome = true ↔
      ∀ line ∈ splitlines text, SockReadable alnum line := by
  refine isSome_foldlM_forall_iff (fun out line => ?_) _ _
  simp only [SockReadable, List.forall_mem_cons, List.not_mem_nil, false_implies, implies_true,
    and_true]
  rw [sockLine, ← isSome_foundInt?_iff _ _ out.estab, ← isSome_foundInt?_iff _ _ out.timewait]
  refine isSome_bind_of_forall fun estab _ => ?_
  rw [isSome_bind_of_forall (P := True) fun _ _ => by simp, and_true]

theorem isSome_executableName {command : Text} (h : strip command ≠ []) :
    (executableName command).isSome = true := by
  rw [executableName, Option.isSome_map]
  exact isSome_getElem?_zero (splitSpace_ne_nil (lstrip_ne_nil (by rwa [strip_strip])) 1)

/-- A row with ten columns, the first two of them integers. -/
def isProcessRow (line : Text) : Bool :=
  let parts := splitSpace 9 line
  10 ≤ parts.length && (parts[0]?.bind int?).isSome && (parts[1]?.bind int?).isSome

/-- The age of a process is a finite number. -/
def AgeReadable (line : Text) : Prop :=
  ∀ etimes, (splitSpace 9 line)[8]? = some etimes → IsNumber etimes

theorem psRow_of_skipped {line : Text} (h : isProcessRow line = false) (includeSensitive : Bool) :
    psRow includeSensitive line = some none := by
  rw [psRow]
  split
  · rfl
  · rename_i hLength
    rw [isProcessRow, List.getElem?_eq_getElem (by omega), List.getElem?_eq_getElem (by omega)] at h
    rw [List.getElem?_eq_getElem (by omega), List.getElem?_eq_getElem (by omega)]
    simp only [Option.bind_eq_bind, Option.bind_some] at h ⊢
    split
    · rename_i pid ppid hPid hPpid
      rw [hPid, hPpid] at h
      simp [hLength] at h
    · rfl

/-- A row of a process raises with an age that is no finite number. -/
theorem psRow_of_process {line : Text} (h : isProcessRow line = true) :
    (AgeReadable line → ∃ process, psRow false line = some (some process)) ∧
      (¬AgeReadable line → psRow false line = none) := by
  simp only [isProcessRow, Bool.and_eq_true, decide_eq_true_eq] at h
  obtain ⟨⟨hLength, hPid⟩, hPpid⟩ := h
  rw [List.getElem?_eq_getElem (by omega), Option.bind_some] at hPid hPpid
  obtain ⟨pid, hPid⟩ := Option.isSome_iff_exists.mp hPid
  obtain ⟨ppid, hPpid⟩ := Option.isSome_iff_exists.mp hPpid
  have hCommand : (executableName (splitSpace 9 line)[9]).isSome = true := by
    obtain ⟨c, rest, hEq, hc⟩ :=
      head_of_mem_splitSpace (List.getElem_mem (l := splitSpace 9 line) (n := 9) (by omega))
    refine isSome_executableName ?_
    rw [hEq]
    exact strip_ne_nil hc
  obtain ⟨command, hCommand⟩ := Option.isSome_iff_exists.mp hCommand
  have hAge : AgeReadable line ↔ (toInt? (splitSpace 9 line)[8]).isSome = true := by
    rw [isSome_toInt?, AgeReadable, List.getElem?_eq_getElem (by omega)]
    simp
  rw [hAge, psRow, if_neg (by omega)]
  simp (disch := omega) only [List.getElem?_eq_getElem, Option.bind_eq_bind, Option.bind_some,
    hPid, hPpid, hCommand, Bool.false_eq_true, if_false]
  cases toInt? (splitSpace 9 line)[8] <;> simp

theorem isSome_psRows_iff {limit : Nat} (lines : List Text) {procs : List Process}
    (hRoom : procs.length < limit) : (psRows limit false procs lines).isSome = true ↔
      ∀ line ∈ (lines.filter isProcessRow).take (limit - procs.length), AgeReadable line := by
  induction lines generalizing procs with
  | nil => simp [psRows]
  | cons line rest ih =>
    rw [psRows]
    cases hProcess : isProcessRow line with
    | false =>
      rw [psRow_of_skipped hProcess, Option.bind_eq_bind, Option.bind_some,
        List.filter_cons_of_neg (by simp [hProcess])]
      exact ih hRoom
    | true =>
      obtain ⟨hSome, hNone⟩ := psRow_of_process hProcess
      rw [List.filter_cons_of_pos hProcess]
      obtain ⟨k, hk⟩ : ∃ k, limit - procs.length = k + 1 := ⟨limit - procs.length - 1, by omega⟩
      rw [hk, List.take_succ_cons, List.forall_mem_cons]
      by_cases hAge : AgeReadable line
      · obtain ⟨process, hRow⟩ := hSome hAge
        rw [hRow, Option.bind_eq_bind, Option.bind_some]
        simp only [hAge, true_and]
        split
        · rename_i hFull
          rw [List.length_append, List.length_singleton] at hFull
          obtain rfl : k = 0 := by omega
          simp
        · rename_i hFull
          rw [List.length_append, List.length_singleton] at hFull
          rw [ih (by rw [List.length_append, List.length_singleton]; omega)]
          have hRest : limit - (procs ++ [process]).length = k := by
            rw [List.length_append, List.length_singleton]
            omega
          rw [hRest]
      · rw [hNone hAge]
        exact iff_of_false (by simp) fun h => hAge h.1

theorem isSome_parsePs_iff (text : Text) {limit : Nat} (hLimit : 0 < limit) :
    (parsePs text limit false).isSome = true ↔
      ∀ line ∈ ((psLines text).filter isProcessRow).take limit, AgeReadable line :=
  isSome_psRows_iff (psLines text) hLimit

end GpuMon.Collector

import GpuMon.Collector.Processes
import GpuMon.Library.Runs

/-!
# The identity of a remote process (`ssh_collector.live_processes`, `metrics.process_action`)

The process table that an administrator sees is read in two steps: `ps` gives the rows, and a
loop of the shell reads the start time of every listed pid from `/proc/<pid>/stat`. An action on
a row reads the start time again and goes on only if it is the same.

* `currentTicks_line`: the shell finds the start time, whatever the process is called.
* `ticks_listed`: the start time in a listed row is the one of the process that had the pid when
  the loop came by, and `0`, which no request may carry, if there was none.
* `check_passes_iff`: an action on a row goes on exactly if the pid still belongs to the very
  process whose start time was read; the process must have been older than one clock tick then.

The remote host runs on between all of these steps: processes end, start with a free pid, and
change. Clock ticks are counted since boot, and the host does not restart in between. The shell
does not expand file names in what it splits: nothing after the name looks like a pattern.
-/

namespace GpuMon.Processes

open PyText Collector Runs

/-! ## What the shell reads -/

/-- What follows the last `") "`. -/
def afterLast : Text → Option Text
  | [] => none
  | c :: rest =>
    (afterLast rest).or (if c = ')' ∧ rest.head? = some ' ' then some rest.tail else none)

/-- `${stat##*) }`. -/
def restOf (stat : Text) : Text := (afterLast stat).getD stat

/-- The characters the shell splits at. -/
def isIfs (c : Char) : Bool := c = ' ' || c = '\t' || c = '\n'

/-- `set -- $rest`. -/
def shellFields (t : Text) : List Text := (t.splitOnP isIfs).filter (· ≠ [])

/-- `stat=$(cat ..)`, without the newlines at its end, and then `${20}` of the rest. -/
def currentTicks (stat : Text) : Text :=
  (shellFields (restOf (stat.rdropWhile (· = '\n'))))[19]?.getD []

/-- `/proc/<pid>/stat`: the fields before the start time are `ppid` to `itrealvalue`; the start
time is an `unsigned long long`, and pids end at four millions. -/
structure ProcStat where
  pid : Nat
  comm : Text
  state : Char
  before : List Int
  startTicks : Nat
  after : List Int
  pid_lt : pid < 2 ^ 22
  letter : state.isAlpha = true
  eighteen : before.length = 18
  startTicks_lt : startTicks < 2 ^ 64

/-- The fields after the name. -/
def ProcStat.fields (r : ProcStat) : List Text :=
  [r.state] :: (r.before.map intText ++ natText r.startTicks :: r.after.map intText)

def ProcStat.line (r : ProcStat) : Text :=
  natText r.pid ++ " (" ++ r.comm ++ ") " ++ join " " r.fields ++ "\n"

theorem afterLast_eq_none {t : Text} (h : ')' ∉ t) : afterLast t = none := by
  induction t with
  | nil => rfl
  | cons c rest ih =>
    rw [List.mem_cons, not_or] at h
    rw [afterLast, ih h.2, if_neg fun hMark => h.1 hMark.1.symm]
    rfl

theorem afterLast_append (front : Text) {t : Text} (h : ')' ∉ t) :
    afterLast (front ++ ')' :: ' ' :: t) = some t := by
  induction front with
  | nil =>
    have hNone : afterLast (' ' :: t) = none := afterLast_eq_none (by simpa using h)
    rw [List.nil_append, afterLast, hNone]
    rfl
  | cons c front ih =>
    rw [List.cons_append, afterLast, ih]
    rfl

theorem shellFields_join {fields : List Text} (h : ∀ f ∈ fields, f ≠ [] ∧ ∀ c ∈ f, isIfs c = false) :
    shellFields (join " " fields) = fields := by
  have hSplit : fields ≠ [] → (join " " fields).splitOnP isIfs = fields := by
    induction fields with
    | nil => exact fun hne => absurd rfl hne
    | cons f rest ih =>
      intro _
      obtain ⟨hHere, hRest⟩ := List.forall_mem_cons.mp h
      cases rest with
      | nil =>
        have hOne : join " " [f] = f := by simp [join]
        rw [hOne]
        exact List.splitOnP_eq_singleton hHere.2
      | cons g rest =>
        have hJoin : join " " (f :: g :: rest) = f ++ ' ' :: join " " (g :: rest) :=
          (join_cons_cons _ _ _ _).trans (List.append_assoc _ _ _)
        rw [hJoin, List.splitOnP_append_cons _ _ (by decide), ih hRest (List.cons_ne_nil _ _),
          List.splitOnP_eq_singleton hHere.2]
        rfl
  cases fields with
  | nil => decide
  | cons f rest =>
    rw [shellFields, hSplit (List.cons_ne_nil _ _), List.filter_eq_self]
    intro g hg
    simpa using (h g hg).1

theorem mem_intText {n : Int} {c : Char} (h : c ∈ intText n) : c = '-' ∨ c.isDigit = true := by
  cases n with
  | ofNat n => exact .inr (isDigit_of_mem_natText h)
  | negSucc n => exact (List.mem_cons.mp h).imp_right isDigit_of_mem_natText

theorem intText_ne_nil (n : Int) : intText n ≠ [] := by
  cases n with
  | ofNat n => exact natText_ne_nil n
  | negSucc n => exact List.cons_ne_nil _ _

theorem isIfs_of_isDigit {c : Char} (h : c.isDigit = true) : isIfs c = false := by
  have hBounds := toNat_of_isDigit h
  have hOther : c ≠ ' ' ∧ c ≠ '\t' ∧ c ≠ '\n' := by
    refine ⟨?_, ?_, ?_⟩ <;> rintro rfl <;> exact absurd hBounds (by decide)
  simp [isIfs, hOther]

/-- The fields after the name are words without a bracket. -/
theorem plain_fields {r : ProcStat} {f : Text} (h : f ∈ r.fields) :
    f ≠ [] ∧ ∀ c ∈ f, isIfs c = false ∧ c ≠ ')' := by
  have hNumber : ∀ n, intText n ≠ [] ∧ ∀ c ∈ intText n, isIfs c = false ∧ c ≠ ')' := by
    refine fun n => ⟨intText_ne_nil n, fun c hc => ?_⟩
    rcases mem_intText hc with rfl | hDigit
    · decide
    · refine ⟨isIfs_of_isDigit hDigit, ?_⟩
      rintro rfl
      exact absurd hDigit (by decide)
  have hLetter := r.letter
  rcases List.mem_cons.mp h with rfl | hRest
  · refine ⟨List.cons_ne_nil _ _, fun c hc => ?_⟩
    obtain rfl := List.mem_singleton.mp hc
    have hOther : r.state ≠ ' ' ∧ r.state ≠ '\t' ∧ r.state ≠ '\n' ∧ r.state ≠ ')' := by
      refine ⟨?_, ?_, ?_, ?_⟩ <;> intro hSame <;> rw [hSame] at hLetter <;>
        exact absurd hLetter (by decide)
    exact ⟨by simp [isIfs, hOther], hOther.2.2.2⟩
  · rcases List.mem_append.mp hRest with hBefore | hLater
    · obtain ⟨n, -, rfl⟩ := List.mem_map.mp hBefore
      exact hNumber n
    · rcases List.mem_cons.mp hLater with rfl | hAfter
      · exact hNumber r.startTicks
      · obtain ⟨n, -, rfl⟩ := List.mem_map.mp hAfter
        exact hNumber n

theorem mem_join {sep : Text} {parts : List Text} {c : Char} (h : c ∈ join sep parts) :
    c ∈ sep ∨ ∃ p ∈ parts, c ∈ p := by
  induction parts with
  | nil => cases h
  | cons a rest ih =>
    cases rest with
    | nil =>
      have hOne : join sep [a] = a := by simp [join]
      exact .inr ⟨a, List.mem_cons_self, hOne ▸ h⟩
    | cons b rest =>
      rw [join_cons_cons] at h
      rcases List.mem_append.mp h with hFront | hRest
      · rcases List.mem_append.mp hFront with hHere | hSep
        · exact .inr ⟨a, List.mem_cons_self, hHere⟩
        · exact .inl hSep
      · rcases ih hRest with hSep | hPart
        · exact .inl hSep
        · obtain ⟨p, hp, hc⟩ := hPart
          exact .inr ⟨p, List.mem_cons_of_mem a hp, hc⟩

theorem rdropWhile_newline {t : Text} (h : ∀ c ∈ t.getLast?, c ≠ '\n') :
    (t ++ ['\n']).rdropWhile (· = '\n') = t := by
  rw [List.rdropWhile_concat_pos _ _ _ (by decide), List.rdropWhile_eq_self_iff]
  intro hne
  simpa using h _ (List.getLast?_eq_some_getLast hne)

/-- The shell finds the start time, also when the name of the process has blanks and brackets. -/
theorem currentTicks_line (r : ProcStat) : currentTicks r.line = natText r.startTicks := by
  have hBracket : ')' ∉ join " " r.fields := by
    intro hMem
    rcases mem_join hMem with hSep | ⟨f, hf, hc⟩
    · exact absurd hSep (by decide)
    · exact ((plain_fields hf).2 _ hc).2 rfl
  have hNewline : '\n' ∉ join " " r.fields := by
    intro hMem
    rcases mem_join hMem with hSep | ⟨f, hf, hc⟩
    · exact absurd hSep (by decide)
    · exact absurd ((plain_fields hf).2 _ hc).1 (by decide)
  have hLine : r.line.rdropWhile (· = '\n') =
      (natText r.pid ++ " (" ++ r.comm) ++ ')' :: ' ' :: join " " r.fields := by
    have hParts : r.line = ((natText r.pid ++ " (" ++ r.comm) ++ ')' :: ' ' :: join " " r.fields) ++
        ['\n'] := by
      simp only [ProcStat.line, List.append_assoc]
      rfl
    rw [hParts, rdropWhile_newline]
    rintro c hc rfl
    rw [List.getLast?_append_cons] at hc
    have hMem := List.mem_of_getLast? hc
    simp only [List.mem_cons] at hMem
    rcases hMem with hBracket | hBlank | hRest
    · exact absurd hBracket (by decide)
    · exact absurd hBlank (by decide)
    · exact hNewline hRest
  have hTwenty : r.fields[19]? = some (natText r.startTicks) := by
    have hLength : (r.before.map intText).length = 18 := by rw [List.length_map, r.eighteen]
    rw [ProcStat.fields, List.getElem?_cons_succ, List.getElem?_append_right (by omega), hLength]
    rfl
  rw [currentTicks, hLine, restOf, afterLast_append _ hBracket, Option.getD_some,
    shellFields_join fun f hf => (plain_fields hf).imp_right fun hc c h => (hc c h).1, hTwenty]
  rfl

/-! ## The listed rows -/

/-- `for pid in ..; do .. printf '%s %s\n' "$pid" "${20}"; done`; `cat` is what the loop finds in
`/proc/<pid>/stat` when it comes by, and nothing if the process is gone. -/
def identityOut (cat : Int → Option Text) (pids : List Int) : Text :=
  pids.flatMap fun pid =>
    match cat pid with
    | none => []
    | some stat => intText pid ++ " " ++ currentTicks stat ++ ['\n']

/-- The numbers in a line of the loop's output. -/
def identityOf (line : Text) : Option (Int × Int) :=
  match words line with
  | [pid, ticks] => (int? pid).bind fun pid => (int? ticks).map fun ticks => (pid, ticks)
  | _ => none

def identities (out : Text) : Dict Int Int := Dict.ofList ((splitlines out).filterMap identityOf)

/-- `live_processes`, from the output of `ps` on: the rows with their `start_ticks`. -/
def liveProcesses (psOut : Text) (limit : Nat) (cat : Int → Option Text) :
    Option (List (Process × Int)) :=
  (parsePs psOut (if limit = 0 then 5000 else limit) true).map fun processes =>
    let pids := (processes.map Process.pid).filter (· ≠ 0)
    let found := if pids = [] then Dict.empty else identities (identityOut cat pids)
    processes.map fun process => (process, (found.get? process.pid).getD 0)

/-! ## Reading the numbers back -/

theorem strip_eq_self_of_digits {t : Text} (h : ∀ c ∈ t, c.isDigit = true) : strip t = t :=
  strip_eq_self ⟨fun c hc => isSpace_of_isDigit (h c (List.mem_of_mem_head? hc)),
    fun c hc => isSpace_of_isDigit (h c (List.mem_of_getLast? hc))⟩

theorem int?_natText {n : Nat} (h : n < 2 ^ 64) : int? (natText n) = some (n : Int) := by
  have hDigits : ∀ c ∈ natText n, c.isDigit = true := fun c hc => isDigit_of_mem_natText hc
  have hSplit : splitOn '_' (natText n) = [natText n] := by
    refine List.splitOnP_eq_singleton fun c hc => ?_
    have hDigit := hDigits c hc
    by_contra hSame
    obtain rfl : c = '_' := by simpa using hSame
    exact absurd hDigit (by decide)
  have hLength : (natText n).length ≤ 20 :=
    (Nat.length_toDigits_le_iff (by decide) (by decide)).mpr (by omega)
  have hAll : (natText n).all isDecimal = true :=
    List.all_eq_true.mpr fun c hc => isDecimal_of_mem_natText hc
  have hPlain : ∀ t : Text, t = natText n →
      (if (splitOn '_' t).all (fun g => g ≠ [] && g.all isDecimal) &&
        (splitOn '_' t).flatten.length ≤ maxStrDigits then
        some (if false = true then -(parseNat (splitOn '_' t).flatten : Int)
          else parseNat (splitOn '_' t).flatten) else none) = some (n : Int) := by
    rintro t rfl
    have hMany : (natText n).length ≤ maxStrDigits := hLength.trans (by decide)
    simp [hSplit, natText_ne_nil, hAll, hMany, parseNat_natText]
  unfold int?
  rw [strip_eq_self_of_digits hDigits]
  split
  rename_i negative digits hSign
  split at hSign
  · rename_i rest hHead
    exact absurd (hDigits '-' (hHead ▸ List.mem_cons_self)) (by decide)
  · rename_i rest hHead
    exact absurd (hDigits '+' (hHead ▸ List.mem_cons_self)) (by decide)
  · cases hSign
    exact hPlain _ rfl

theorem takeWhile_word {a rest : Text} (ha : ∀ c ∈ a, isSpace c = false)
    (hRest : ∀ c ∈ rest.head?, isSpace c = true) :
    (a ++ rest).takeWhile (fun c => !isSpace c) = a ∧
      (a ++ rest).dropWhile (fun c => !isSpace c) = rest := by
  have hWord : ∀ c ∈ a, (!isSpace c) = true := fun c hc => by rw [ha c hc]; rfl
  rw [List.takeWhile_append_of_pos hWord, List.dropWhile_append_of_pos hWord]
  cases rest with
  | nil => exact ⟨List.append_nil a, rfl⟩
  | cons c rest =>
    have hBlank : isSpace c = true := hRest c rfl
    simp [hBlank]

theorem lstrip_of_word {a : Text} (ha : ∀ c ∈ a, isSpace c = false) (rest : Text) (hne : a ≠ []) :
    lstrip (a ++ rest) = a ++ rest := by
  refine dropWhile_eq_self_of_head fun c hc => ?_
  rw [List.head?_append_of_ne_nil _ hne] at hc
  exact ha c (List.mem_of_mem_head? hc)

theorem words_pair {a b : Text} (ha : a ≠ []) (hb : b ≠ []) (haWord : ∀ c ∈ a, isSpace c = false)
    (hbWord : ∀ c ∈ b, isSpace c = false) : words (a ++ " " ++ b) = [a, b] := by
  have hBlank : ∀ c ∈ (' ' :: b).head?, isSpace c = true := by
    rintro c hc
    cases hc
    decide
  have hText : (a ++ " " ++ b : Text) = a ++ ' ' :: b := List.append_assoc _ _ _
  have hFuel : ∃ n, (a ++ ' ' :: b).length = n + 3 := by
    have ha' := List.length_pos_iff.mpr ha
    have hb' := List.length_pos_iff.mpr hb
    refine ⟨a.length + b.length - 2, ?_⟩
    rw [List.length_append, List.length_cons]
    omega
  obtain ⟨n, hn⟩ := hFuel
  have hSecond : lstrip (' ' :: b) = b := by
    have hSelf := lstrip_of_word hbWord [] hb
    rw [List.append_nil] at hSelf
    exact hSelf
  have hLast := @takeWhile_word b [] hbWord nofun
  rw [List.append_nil] at hLast
  rw [words, hText, hn, splitSpace, lstrip_of_word haWord _ ha, if_neg (by simp [ha]),
    (takeWhile_word haWord hBlank).1, (takeWhile_word haWord hBlank).2, splitSpace, hSecond,
    if_neg hb, hLast.1, hLast.2, splitSpace]
  rfl

/-! ## The start time in a row -/

/-- What the loop finds comes from the kernel. -/
def FromKernel (cat : Int → Option Text) : Prop :=
  ∀ pid stat, cat pid = some stat → ∃ r : ProcStat, stat = r.line ∧ pid = r.pid

/-- The start time the loop prints for a pid. -/
def ticksOf (cat : Int → Option Text) (pid : Int) : Option Int :=
  (cat pid).bind fun stat => int? (currentTicks stat)

theorem ticksOf_line {cat : Int → Option Text} {pid : Int} {r : ProcStat}
    (h : cat pid = some r.line) : ticksOf cat pid = some (r.startTicks : Int) := by
  rw [ticksOf, h, Option.bind_some, currentTicks_line, int?_natText r.startTicks_lt]

theorem identityOf_line {r : ProcStat} :
    identityOf (intText r.pid ++ " " ++ currentTicks r.line) =
      some ((r.pid : Int), (r.startTicks : Int)) := by
  have hWord : ∀ n, ∀ c ∈ natText n, isSpace c = false := fun n c hc =>
    isSpace_of_isDigit (isDigit_of_mem_natText hc)
  have hPid : r.pid < 2 ^ 64 := lt_trans r.pid_lt (by decide)
  have hWords : words (natText r.pid ++ " " ++ natText r.startTicks) =
      [natText r.pid, natText r.startTicks] :=
    words_pair (natText_ne_nil _) (natText_ne_nil _) (hWord _) (hWord _)
  rw [currentTicks_line]
  change (match words (natText r.pid ++ " " ++ natText r.startTicks) with
    | [pid, ticks] => (int? pid).bind fun pid => (int? ticks).map fun ticks => (pid, ticks)
    | _ => none) = _
  rw [hWords]
  simp only [int?_natText hPid, int?_natText r.startTicks_lt, Option.bind_some, Option.map_some]

/-- The lines the loop prints. -/
def identityLines (cat : Int → Option Text) (pids : List Int) : List Text :=
  pids.filterMap fun pid => (cat pid).map fun stat => intText pid ++ " " ++ currentTicks stat

theorem identityOut_eq (cat : Int → Option Text) (pids : List Int) :
    identityOut cat pids = (identityLines cat pids).flatMap fun line => line ++ ['\n'] := by
  induction pids with
  | nil => rfl
  | cons pid rest ih =>
    rw [identityOut, List.flatMap_cons]
    change _ ++ identityOut cat rest = _
    rw [ih, identityLines, identityLines, List.filterMap_cons]
    cases cat pid <;> rfl

theorem isLine_identityLines {cat : Int → Option Text} (hCat : FromKernel cat) {pids : List Int} :
    ∀ line ∈ identityLines cat pids, IsLine line := by
  intro line hMem
  obtain ⟨pid, -, hLine⟩ := List.mem_filterMap.mp hMem
  obtain ⟨stat, hStat, rfl⟩ := Option.map_eq_some_iff.mp hLine
  obtain ⟨r, rfl, rfl⟩ := hCat pid stat hStat
  rw [currentTicks_line]
  exact isLine_append (isLine_append (isLine_natText r.pid) (by decide)) (isLine_natText _)

theorem filterMap_identityLines {cat : Int → Option Text} (hCat : FromKernel cat)
    (pids : List Int) : (identityLines cat pids).filterMap identityOf =
      (pids.filter fun pid => (cat pid).isSome).map fun pid =>
        (pid, (ticksOf cat pid).getD 0) := by
  induction pids with
  | nil => rfl
  | cons pid rest ih =>
    rw [identityLines, List.filterMap_cons]
    cases hStat : cat pid with
    | none => rw [List.filter_cons_of_neg (by simp [hStat]), ← ih]; rfl
    | some stat =>
      obtain ⟨r, rfl, rfl⟩ := hCat pid stat hStat
      have hFirst := identityOf_line (r := r)
      rw [List.filter_cons_of_pos (by simp [hStat]), List.map_cons, ← ih, ticksOf_line hStat,
        Option.getD_some, ← identityLines]
      exact List.filterMap_cons_some hFirst

/-- The loop's output, read back, is the start time of each pid that still had a process. -/
theorem get?_identities {cat : Int → Option Text} (hCat : FromKernel cat) (pids : List Int)
    (pid : Int) : (identities (identityOut cat pids)).get? pid =
      if pid ∈ pids then ticksOf cat pid else none := by
  rw [identities, identityOut_eq, splitlines_flatMap (isLine_identityLines hCat),
    filterMap_identityLines hCat, Dict.get?_ofList_graph]
  cases hStat : cat pid with
  | none => simp [ticksOf, hStat]
  | some stat =>
    obtain ⟨r, rfl, rfl⟩ := hCat pid stat hStat
    simp [hStat, ticksOf_line hStat]

/-- The start time in a listed row is that of the process which had the pid when the loop came by;
it is `0` if there was none, and for the row of pid 0. -/
theorem ticks_listed {psOut : Text} {limit : Nat} {cat : Int → Option Text}
    (hCat : FromKernel cat) {rows : List (Process × Int)}
    (h : liveProcesses psOut limit cat = some rows) {row : Process × Int} (hRow : row ∈ rows) :
    row.2 = if row.1.pid = 0 then 0 else (ticksOf cat row.1.pid).getD 0 := by
  obtain ⟨processes, -, rfl⟩ := Option.map_eq_some_iff.mp h
  obtain ⟨process, hProcess, rfl⟩ := List.mem_map.mp hRow
  dsimp only
  by_cases hZero : process.pid = 0
  · have hOther : process.pid ∉ (processes.map Process.pid).filter (· ≠ 0) := by simp [hZero]
    rw [if_pos hZero]
    split
    · rfl
    · rw [get?_identities hCat, if_neg hOther]
      rfl
  · have hMem : process.pid ∈ (processes.map Process.pid).filter (· ≠ 0) :=
      List.mem_filter.mpr ⟨List.mem_map_of_mem hProcess, by simpa using hZero⟩
    rw [if_neg hZero, if_neg (List.ne_nil_of_mem hMem), get?_identities hCat, if_pos hMem]

/-! ## The host runs on -/

/-- A process: which one it is, and what the kernel shows of it. -/
structure Proc where
  serial : Nat
  stat : ProcStat

/-- The host since boot: the clock in ticks, the processes, and how many there have been. -/
structure Host where
  clock : Nat := 0
  table : Nat → Option Proc := fun _ => none
  born : Nat := 0

inductive HostAction
  | tick
  | spawn (pid : Nat) (stat : ProcStat)
  | change (pid : Nat) (stat : ProcStat)
  | exit (pid : Nat)

/-- One step of the host. A process starts under a free pid at the present tick, and keeps its pid
and its start time. -/
def hostStep (h : Host) : HostAction → Option Host
  | .tick => some { h with clock := h.clock + 1 }
  | .spawn pid stat =>
    if h.table pid = none ∧ stat.pid = pid ∧ stat.startTicks = h.clock then
      some { h with
        table := Function.update h.table pid (some ⟨h.born, stat⟩)
        born := h.born + 1 }
    else none
  | .change pid stat =>
    match h.table pid with
    | some p =>
      if stat.pid = pid ∧ stat.startTicks = p.stat.startTicks then
        some { h with table := Function.update h.table pid (some { p with stat }) }
      else none
    | none => none
  | .exit pid => some { h with table := Function.update h.table pid none }

/-- The host gets from one state to the other without a restart. -/
def RunsTo (h h' : Host) : Prop := ∃ actions, exec hostStep Always h actions = some h'

/-- `cat /proc/<pid>/stat`. -/
def Host.cat (h : Host) (pid : Int) : Option Text :=
  match pid with
  | .ofNat pid => (h.table pid).map fun p => p.stat.line
  | .negSucc _ => none

/-- The test of the command that an action sends:
`[ "$current" = "<start_ticks>" ]`, after a `cat` that succeeded. -/
def Host.passes (h : Host) (pid startTicks : Nat) : Bool :=
  match h.cat pid with
  | some stat => currentTicks stat = natText startTicks
  | none => false

/-- The host has been booted and has run. -/
def Booted (h : Host) : Prop := RunsTo {} h

/-- What the kernel shows under a pid is of that pid, and not from later. -/
def Host.WellFormed (h : Host) : Prop :=
  ∀ pid p, h.table pid = some p →
    p.stat.pid = pid ∧ p.serial < h.born ∧ p.stat.startTicks ≤ h.clock

/-- It is the same process. -/
def Proc.Same (p q : Proc) : Prop :=
  q.serial = p.serial ∧ q.stat.startTicks = p.stat.startTicks

variable {h h' h'' : Host} {a : HostAction}

/-- What one step can do: nothing is taken back, and a pid has its old process or a new one. -/
structure Stepped (h h' : Host) : Prop where
  clock : h.clock ≤ h'.clock
  born : h.born ≤ h'.born
  table : ∀ pid q, h'.table pid = some q → h.table pid = some q ∨
    q.stat.pid = pid ∧ ((∃ p, h.table pid = some p ∧ p.Same q) ∨
      q.serial = h.born ∧ h.born < h'.born ∧ q.stat.startTicks = h.clock)

theorem hostStep_effect (hStep : hostStep h a = some h') : Stepped h h' := by
  cases a with
  | tick =>
    cases hStep
    exact ⟨by simp, le_refl _, fun _ _ hq => .inl hq⟩
  | spawn pid stat =>
    obtain ⟨⟨hFree, hPid, hStart⟩, hNext⟩ := Option.ite_none_right_eq_some.mp hStep
    cases hNext
    refine ⟨le_refl _, Nat.le_succ _, fun other q hq => ?_⟩
    dsimp only at hq
    rw [Function.update_apply] at hq
    split at hq
    · rename_i hHere
      cases hq
      exact .inr ⟨hPid.trans hHere.symm, .inr ⟨rfl, Nat.lt_succ_self _, hStart⟩⟩
    · exact .inl hq
  | change pid stat =>
    dsimp only [hostStep] at hStep
    split at hStep
    · rename_i p hp
      obtain ⟨⟨hPid, hStart⟩, hNext⟩ := Option.ite_none_right_eq_some.mp hStep
      cases hNext
      refine ⟨le_refl _, le_refl _, fun other q hq => ?_⟩
      dsimp only at hq
      rw [Function.update_apply] at hq
      split at hq
      · rename_i hHere
        cases hq
        exact .inr ⟨hPid.trans hHere.symm, .inl ⟨p, hHere ▸ hp, rfl, hStart⟩⟩
      · exact .inl hq
    · cases hStep
  | exit pid =>
    cases hStep
    refine ⟨le_refl _, le_refl _, fun other q hq => ?_⟩
    dsimp only at hq
    rw [Function.update_apply] at hq
    split at hq
    · cases hq
    · exact .inl hq

theorem wellFormed_step (hWell : h.WellFormed) (hStep : hostStep h a = some h') :
    h'.WellFormed := by
  obtain ⟨hClock, hBorn, hTable⟩ := hostStep_effect hStep
  intro pid q hq
  rcases hTable pid q hq with hOld | ⟨hPid, ⟨p, hp, hSerial, hStart⟩ | ⟨hSerial, hNew, hStart⟩⟩
  · obtain ⟨hPid, hSerial, hStart⟩ := hWell pid q hOld
    exact ⟨hPid, by omega, by omega⟩
  · obtain ⟨-, hSerial', hStart'⟩ := hWell pid p hp
    exact ⟨hPid, by omega, by omega⟩
  · exact ⟨hPid, by omega, by omega⟩

/-- Whoever has a pid later had it already, or has started since. -/
structure Follows (h h' : Host) : Prop where
  clock : h.clock ≤ h'.clock
  born : h.born ≤ h'.born
  table : ∀ pid q, h'.table pid = some q → (∃ p, h.table pid = some p ∧ p.Same q) ∨
    h.born ≤ q.serial ∧ h.clock ≤ q.stat.startTicks

theorem Follows.refl (h : Host) : Follows h h :=
  ⟨le_refl _, le_refl _, fun _ q hq => .inl ⟨q, hq, rfl, rfl⟩⟩

theorem Follows.step (hFollows : Follows h h') (hStep : hostStep h' a = some h'') :
    Follows h h'' := by
  obtain ⟨hClock, hBorn, hTable⟩ := hostStep_effect hStep
  refine ⟨hFollows.clock.trans hClock, hFollows.born.trans hBorn, fun pid q hq => ?_⟩
  rcases hTable pid q hq with hOld | ⟨-, ⟨p, hp, hSame⟩ | ⟨hSerial, -, hStart⟩⟩
  · exact hFollows.table pid q hOld
  · -- a changed process is still the one that had the pid
    rcases hFollows.table pid p hp with ⟨p₀, hp₀, hBefore⟩ | ⟨hSerial, hStart⟩
    · exact .inl ⟨p₀, hp₀, hSame.1.trans hBefore.1, hSame.2.trans hBefore.2⟩
    · exact .inr ⟨hSame.1 ▸ hSerial, hSame.2 ▸ hStart⟩
  · exact .inr ⟨hSerial ▸ hFollows.born, hStart ▸ hFollows.clock⟩

theorem exec_invariant {I : Host → Prop} (hStep : ∀ s a s', I s → hostStep s a = some s' → I s')
    {actions : List HostAction} (hStart : I h)
    (hRun : exec hostStep Always h actions = some h') : I h' := by
  have hReach : Reach hostStep I Always h' := (Reach.start hStart).of_exec hRun
  exact hReach.invariant (fun _ hs => hs) fun s a s' hs _ hNext => hStep s a s' hs hNext

theorem wellFormed_of_booted (hBooted : Booted h) : h.WellFormed := by
  obtain ⟨actions, hRun⟩ := hBooted
  have hNone : ({} : Host).WellFormed := by
    intro pid p hp
    cases hp
  exact exec_invariant (fun _ _ _ => wellFormed_step) hNone hRun

theorem follows_of_runsTo (hRuns : RunsTo h h') : Follows h h' := by
  obtain ⟨actions, hRun⟩ := hRuns
  exact exec_invariant (fun _ _ _ hs hNext => Follows.step hs hNext) (Follows.refl h) hRun

/-! ## The check before an action -/

theorem fromKernel_cat {hosts : Int → Host} (hBooted : ∀ pid, Booted (hosts pid)) :
    FromKernel fun pid => (hosts pid).cat pid := by
  intro pid stat hStat
  cases pid with
  | ofNat pid =>
    obtain ⟨p, hp, rfl⟩ := Option.map_eq_some_iff.mp hStat
    refine ⟨p.stat, rfl, ?_⟩
    rw [(wellFormed_of_booted (hBooted _) pid p hp).1]
    rfl
  | negSucc n => cases hStat

theorem natText_inj {m n : Nat} : natText m = natText n ↔ m = n := by
  refine ⟨fun hSame => ?_, fun hSame => hSame ▸ rfl⟩
  rw [← parseNat_natText m, hSame, parseNat_natText]

theorem passes_iff {pid ticks : Nat} :
    h.passes pid ticks = true ↔ ∃ q, h.table pid = some q ∧ q.stat.startTicks = ticks := by
  have hCat : h.cat (pid : Int) = (h.table pid).map fun p => p.stat.line := rfl
  rw [Host.passes, hCat]
  cases h.table pid with
  | none => simp
  | some q => simp [currentTicks_line, natText_inj]

/-- A row of the table that an administrator saw, with a start time that a request may carry: when
it was read some process had the pid, and if it was older than a tick then, a request with the
row's numbers passes the check later exactly if this very process still has the pid. -/
theorem check_passes_iff {hosts : Int → Host} (hBooted : ∀ pid, Booted (hosts pid))
    {psOut : Text} {limit : Nat} {rows : List (Process × Int)} {process : Process}
    {pid ticks : Nat} (hRows : liveProcesses psOut limit (fun pid => (hosts pid).cat pid) = some rows)
    (hRow : (process, (ticks : Int)) ∈ rows) (hPid : process.pid = pid) (hTicks : 0 < ticks) :
    ∃ p, (hosts pid).table pid = some p ∧ (p.stat.startTicks < (hosts pid).clock →
      ∀ h, RunsTo (hosts pid) h →
        (h.passes pid ticks = true ↔ ∃ q, h.table pid = some q ∧ q.serial = p.serial)) := by
  have hListed := ticks_listed (fromKernel_cat hBooted) hRows hRow
  dsimp only at hListed
  rw [hPid] at hListed
  have hCat : (hosts pid).cat (pid : Int) = ((hosts pid).table pid).map fun p => p.stat.line := rfl
  split at hListed
  · omega
  cases hOwner : (hosts pid).table pid with
  | none =>
    rw [hOwner] at hCat
    rw [ticksOf, hCat] at hListed
    exact absurd (Int.ofNat_inj.mp hListed) hTicks.ne'
  | some p =>
    rw [hOwner] at hCat
    have hLine : ticksOf (fun pid => (hosts pid).cat pid) pid = some (p.stat.startTicks : Int) :=
      ticksOf_line hCat
    rw [hLine] at hListed
    have hShown : ticks = p.stat.startTicks := Int.ofNat_inj.mp hListed
    refine ⟨p, rfl, fun hOld h hRuns => ?_⟩
    have hFollows := follows_of_runsTo hRuns
    obtain ⟨-, hSerial, -⟩ := wellFormed_of_booted (hBooted pid) pid p hOwner
    rw [passes_iff]
    refine exists_congr fun q => and_congr_right fun hq => ?_
    rcases hFollows.table pid q hq with ⟨p', hp', hSame⟩ | ⟨hLater, hStart⟩
    · obtain rfl : p = p' := Option.some.inj (hOwner.symm.trans hp')
      exact iff_of_true (hSame.2.trans hShown.symm) hSame.1
    · -- a process that came later has a later start time and another number
      exact iff_of_false (by omega) (by omega)

section Example

/-- A process that is called `a) R (b`. -/
def oddStat : ProcStat where
  pid := 7
  comm := "a) R (b"
  state := 'S'
  before := List.replicate 18 0
  startTicks := 2
  after := [4096, -1]
  pid_lt := by decide
  letter := by decide
  eighteen := rfl
  startTicks_lt := by decide

def oddRun : List HostAction := [.tick, .tick, .spawn 7 oddStat, .tick]

def oddHost : Host := (exec hostStep Always {} oddRun).getD {}

theorem booted_oddHost : Booted oddHost := by
  have hRun : (exec hostStep Always {} oddRun).isSome = true := by decide +kernel
  obtain ⟨h, hh⟩ := Option.isSome_iff_exists.mp hRun
  exact ⟨oddRun, by rw [oddHost, hh]; rfl⟩

def oddPs : Text :=
  "    PID    PPID USER %CPU %MEM RSS VSZ STAT ELAPSED COMMAND\n7 1 alice 0 0 64 64 S 1 a) R (b\n"

theorem check_passes_iff_odd : ∃ process : Process, process.pid = (7 : Nat) ∧
    (oddHost.passes 7 2 = true ↔ ∃ q, oddHost.table 7 = some q ∧ q.serial = 0) := by
  have hShown : (liveProcesses oddPs 0 fun pid => oddHost.cat pid).map
      (List.map fun row => (row.1.pid, row.2)) = some [(7, 2)] := by
    decide +kernel
  obtain ⟨rows, hRows, hMap⟩ := Option.map_eq_some_iff.mp hShown
  have hMem : ((7, 2) : Int × Int) ∈ rows.map fun row => (row.1.pid, row.2) := by
    rw [hMap]
    exact List.mem_singleton_self _
  obtain ⟨⟨process, ticks⟩, hRow, hNumbers⟩ := List.mem_map.mp hMem
  obtain ⟨hPid, rfl⟩ := Prod.ext_iff.mp hNumbers
  obtain ⟨p, hp, hChecked⟩ :=
    check_passes_iff (fun _ => booted_oddHost) hRows hRow hPid (by decide : 0 < 2)
  have hOwner : (oddHost.table 7).map (fun q => (q.serial, q.stat.startTicks)) = some (0, 2) ∧
      oddHost.clock = 3 := by
    decide +kernel
  rw [hp] at hOwner
  obtain ⟨hSerial, hStart⟩ := Prod.ext_iff.mp (Option.some.inj hOwner.1)
  have hSerial' : p.serial = 0 := hSerial
  have hStart' : p.stat.startTicks = 2 := hStart
  refine ⟨process, hPid, ?_⟩
  rw [← hSerial']
  exact hChecked (by omega) oddHost ⟨[], rfl⟩

end Example

end GpuMon.Processes

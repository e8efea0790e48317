import GpuMon.Library.Regex
import GpuMon.Models

/-!
# Kernel events (`collectors_extra.py`)

A line of the kernel log is an event of the first kind whose expression is found in it. Of the
events of one log all lines about memory but one are dropped, and then all events but the first
hundred. A number that `int` refuses loses the whole log.

* `gpuUuid_length`: the card that an event names is empty or 36 characters long.
* `mem_keptEvents`: a short log loses no event of another kind.
* `keptOom_mem_keptEvents`: of the lines about memory it keeps one.

`alnum` says which characters beyond ASCII are letters or digits to `\b`.
-/

namespace GpuMon.Kernel

open PyText Regex

/-! ## Kinds of events -/

/-- `\w`. -/
def isWord (alnum : Char → Bool) (c : Char) : Bool :=
  c = '_' || if c.toNat < 128 then c.isAlphanum else alnum c

/-- `_KERNEL_PATTERNS`. -/
def kernelPatterns (alnum : Char → Bool) : List (EventType × Severity × Regex) :=
  [ (.gpuXid, .critical, all [litI "NVRM: Xid ", group 1 (plus isDecimal), starLazy anyChar,
      opt (all [litI "on ", group 2 (seq (litI "GPU ") (plus fun c =>
        isDecimal c || c = ':' || ('a' ≤ c.toLower && c.toLower ≤ 'f')))]),
      opt (all [litI "UUID", plus fun c => c = ':' || c = ' ',
        group 3 (plus fun c => !isSpace c)])]),
    (.gpuFallenOffBus, .critical, litI "GPU has fallen off the bus"),
    (.oomKill, .critical,
      anyOfI ["Out of memory", "Killed process", "oom-kill", "invoked oom-killer"]),
    (.mceHardwareError, .critical, anyOfI ["Machine check", "Hardware error", "mce:"]),
    (.edacMemoryError, .warning, all [litI "EDAC", star anyChar, litI "error"]),
    (.pcieAer, .warning, all [anyOfI ["pcieport", "AER"], starLazy anyChar,
      opt (anyOfI ["corrected", "uncorrected", "fatal"]), star isSpace, litI "error"]),
    (.ioError, .warning, alt (anyOfI ["I/O error", "blk_update_request", "EXT4-fs error"])
      (all [litI "XFS ", star anyChar, litI " error"])),
    (.nvmeError, .warning, all [litI "nvme", plus isDecimal, starLazy anyChar,
      anyOfI ["timeout", "resetting", "controller reset", "I/O"]]),
    (.nfsError, .warning, all [litI "nfs", starLazy anyChar,
      anyOfI ["not responding", "timed out", "stale"]]),
    (.nicReset, .warning, all [anyOfI ["igb", "ixgbe", "mlx", "bnxt", "e1000e"],
      wordBoundary (isWord alnum), starLazy anyChar,
      anyOfI ["reset", "link down", "NIC Link is Down"]]),
    (.tcpRequested, .info, litI "TCP: request_sock_TCP") ]

/-- The first kind whose expression is found in a line. -/
def classify (alnum : Char → Bool) (line : Text) : Option (EventType × Severity) :=
  ((kernelPatterns alnum).find? fun p => (search p.2.2 line).isSome).map fun p => (p.1, p.2.1)

/-- `KernelEvent`; `ts` is always empty. -/
structure KernelEvent where
  eventType : EventType
  severity : Severity
  message : Text
  rawMessage : Text := []
  gpuUuid : Text := []
  xid : Nat := 0
  ts : Text := []
  deriving DecidableEq

/-- `Xid (\d+)`. -/
def xidRegex : Regex := seq (lit "Xid ") (group 1 (plus isDecimal))

/-- `GPU[-\s]([0-9a-f-]{36})`. -/
def uuidRegex : Regex :=
  seq (lit "GPU") (seq (chr fun c => c = '-' || isSpace c)
    (group 1 (times 36 fun c => ('0' ≤ c && c ≤ '9') || ('a' ≤ c && c ≤ 'f') || c = '-')))

/-- `int(m.group(1))` where `Xid (\d+)` is found, else 0; `none` is a `ValueError`. -/
def xidNumber? (line : Text) : Option Nat :=
  ((search xidRegex line).bind fun m => m.group? 1).elim (some 0) intOfDigits

/-- The event of a line of the given kind; `none` is the `ValueError` of its number. -/
def eventOf (line : Text) (kind : EventType × Severity) : Option KernelEvent :=
  let ev : KernelEvent :=
    { eventType := kind.1, severity := kind.2, message := line.take 200,
      rawMessage := line.take 2000 }
  if kind.1 = .gpuXid then do
    let xid ← xidNumber? line
    some
      { ev with
        xid
        gpuUuid := ((search uuidRegex line).bind fun m => m.group? 1).getD [] }
  else some ev

/-- What a line adds to the events, at most one; blanks at its end are dropped. `none` is an
exception. -/
def lineEvents (alnum : Char → Bool) (line : Text) : Option (List KernelEvent) :=
  let line := rstrip line
  if line = [] then some []
  else match classify alnum line with
    | none => some []
    | some kind => (eventOf line kind).map ([·])

/-- The event of a line, where it has one. -/
def kernelEvent (alnum : Char → Bool) (line : Text) : Option KernelEvent :=
  (lineEvents alnum line).bind List.head?

/-! ## The events of a log -/

def KernelEvent.isOom (ev : KernelEvent) : Bool := ev.eventType = .oomKill

def KernelEvent.namesVictim (ev : KernelEvent) : Bool := contains "Killed process" ev.message

/-- Where there are several lines about memory, the first that names its victim stays, else the
first of them. -/
def collapseOom (events : List KernelEvent) : List KernelEvent :=
  match events.zipIdx.filter fun p => p.1.isOom with
  | first :: second :: rest =>
    let keep := ((first :: second :: rest).find? fun p => p.1.namesVictim).getD first
    (events.zipIdx.filter fun p => !p.1.isOom || p.2 = keep.2).map Prod.fst
  | _ => events

/-- The events of a log before any is dropped. -/
def logEvents (alnum : Char → Bool) (text : Text) : List KernelEvent :=
  (splitlines text).filterMap (kernelEvent alnum)

def keptEvents (alnum : Char → Bool) (text : Text) : List KernelEvent :=
  (collapseOom (logEvents alnum text)).take 100

/-- `parse_kernel_log`, `none` where a line raises; the boot id is not used. -/
def parseKernelLog (alnum : Char → Bool) (text : Text) : Option (List KernelEvent) :=
  if (splitlines text).all fun line => (lineEvents alnum line).isSome then
    some (keptEvents alnum text)
  else none

theorem parseKernelLog_eq_some {alnum : Char → Bool} {text : Text} {events : List KernelEvent}
    (h : parseKernelLog alnum text = some events) : events = keptEvents alnum text := by
  unfold parseKernelLog at h
  split at h
  · exact (Option.some.inj h).symm
  · cases h

/-! ## What an event carries -/

theorem group?_uuidRegex {line : Text} {e : Cursor} (h : search uuidRegex line = some e) :
    ∀ t ∈ e.group? 1, t.length = 36 := by
  obtain ⟨s, -, hMatch⟩ := exists_of_search h
  obtain ⟨m, -, hMatch⟩ := mem_go_seq.mp hMatch
  obtain ⟨c, -, hMatch⟩ := mem_go_seq.mp hMatch
  obtain ⟨d, hTimes, rfl⟩ := mem_go_group.mp hMatch
  obtain ⟨k, hLow, hHigh, rfl⟩ := mem_go_rep.mp hTimes
  intro t ht
  have hTake := Option.some.inj ht
  have hRun : k ≤ min 36 c.after.length :=
    hHigh.trans (min_le_min_left 36 (List.takeWhile_prefix _).length_le)
  rw [← hTake, List.length_take, Cursor.advance_after, List.length_drop]
  omega

section Line

variable {line : Text} {kind : EventType × Severity} {ev : KernelEvent}

/-- The card that an event names: none, or 36 characters. -/
theorem gpuUuid_length (h : eventOf line kind = some ev) :
    ev.gpuUuid.length = 0 ∨ ev.gpuUuid.length = 36 := by
  unfold eventOf at h
  dsimp only at h
  split at h
  · obtain ⟨xid, -, hEvent⟩ := Option.bind_eq_some_iff.mp h
    cases hEvent
    cases hSearch : search uuidRegex line with
    | none => exact .inl rfl
    | some e =>
      cases hGroup : e.group? 1 with
      | none => exact .inl (by simp [hGroup])
      | some t =>
        have hLength := group?_uuidRegex hSearch t hGroup
        exact .inr (by simp [hGroup, hLength])
  · cases h
    exact .inl rfl

/-- What every event has of its line. -/
theorem eventOf_eq_some (h : eventOf line kind = some ev) :
    ev.eventType = kind.1 ∧ ev.message = line.take 200 := by
  unfold eventOf at h
  dsimp only at h
  split at h
  · obtain ⟨xid, -, hEvent⟩ := Option.bind_eq_some_iff.mp h
    cases hEvent
    exact ⟨rfl, rfl⟩
  · cases h
    exact ⟨rfl, rfl⟩

theorem lineEvents_eq_some {alnum : Char → Bool} {events : List KernelEvent}
    (h : lineEvents alnum line = some events) :
    events = [] ∨ ∃ kind ev, classify alnum (rstrip line) = some kind ∧
      eventOf (rstrip line) kind = some ev ∧ events = [ev] := by
  unfold lineEvents at h
  dsimp only at h
  split at h
  · exact .inl (Option.some.inj h).symm
  · split at h
    · exact .inl (Option.some.inj h).symm
    · rename_i kind hKind
      obtain ⟨ev, hEvent, rfl⟩ := Option.map_eq_some_iff.mp h
      exact .inr ⟨kind, ev, hKind, hEvent, rfl⟩

theorem kernelEvent_eq_some {alnum : Char → Bool} (h : kernelEvent alnum line = some ev) :
    ∃ kind, classify alnum (rstrip line) = some kind ∧ eventOf (rstrip line) kind = some ev := by
  obtain ⟨events, hEvents, hHead⟩ := Option.bind_eq_some_iff.mp h
  rcases lineEvents_eq_some hEvents with rfl | ⟨kind, ev', hKind, hEvent, rfl⟩
  · cases hHead
  · cases hHead
    exact ⟨kind, hKind, hEvent⟩

end Line

/-! ## What is left of a log -/

theorem countP_or_le {α : Type*} (p q : α → Bool) (l : List α) :
    l.countP (fun x => p x || q x) ≤ l.countP p + l.countP q := by
  induction l with
  | nil => simp
  | cons x l ih =>
    simp only [List.countP_cons]
    cases p x <;> cases q x <;> simp <;> omega

section Collapse

variable {events : List KernelEvent} {ev : KernelEvent}

theorem map_fst_filter_isOom (events : List KernelEvent) :
    (events.zipIdx.filter fun p => p.1.isOom).map Prod.fst = events.filter KernelEvent.isOom := by
  conv_rhs => rw [← List.zipIdx_map_fst 0 events, List.filter_map]
  rfl

/-- The line about memory that stays. -/
def keptOom (events : List KernelEvent) : Option KernelEvent :=
  ((events.filter KernelEvent.isOom).find? KernelEvent.namesVictim).or
    (events.filter KernelEvent.isOom).head?

/-- Where there are several, the kept line is told from the others by its place. -/
theorem collapseOom_cases (events : List KernelEvent) :
    (collapseOom events = events ∧ (events.filter KernelEvent.isOom).length ≤ 1) ∨
      ∃ keep ∈ events.zipIdx, keptOom events = some keep.1 ∧ keep.1.isOom = true ∧
        collapseOom events =
          (events.zipIdx.filter fun p => !p.1.isOom || p.2 = keep.2).map Prod.fst := by
  have hFilter := map_fst_filter_isOom events
  unfold collapseOom
  split
  · rename_i first second rest hOom
    refine .inr ⟨((first :: second :: rest).find? fun p => p.1.namesVictim).getD first, ?_⟩
    have hKeep : ((first :: second :: rest).find? fun p => p.1.namesVictim).getD first ∈
        events.zipIdx.filter fun p => p.1.isOom := by
      cases hFind : (first :: second :: rest).find? fun p => p.1.namesVictim with
      | none => exact hOom ▸ List.mem_cons_self
      | some p => exact hOom ▸ List.mem_of_find?_eq_some hFind
    obtain ⟨hMem, hIsOom⟩ := List.mem_filter.mp hKeep
    refine ⟨hMem, ?_, hIsOom, rfl⟩
    rw [keptOom, ← hFilter, hOom, List.find?_map, List.map_cons, List.head?_cons]
    have hSame : (KernelEvent.namesVictim ∘ Prod.fst : KernelEvent × Nat → Bool) =
        fun p => p.1.namesVictim := rfl
    rw [hSame]
    cases (first :: second :: rest).find? fun p => p.1.namesVictim <;> rfl
  · rename_i hFew
    refine .inl ⟨rfl, ?_⟩
    rw [← hFilter, List.length_map]
    generalize (events.zipIdx.filter fun p => p.1.isOom) = oom at hFew
    match oom, hFew with
    | [], _ => exact Nat.zero_le 1
    | [_], _ => exact le_refl 1
    | first :: second :: rest, hFew => exact absurd rfl (hFew first second rest)

/-- No event of another kind is dropped. -/
theorem mem_collapseOom (h : ev ∈ events) (hOther : ev.isOom = false) :
    ev ∈ collapseOom events := by
  rcases collapseOom_cases events with ⟨hEq, -⟩ | ⟨keep, -, -, -, hEq⟩
  · rw [hEq]
    exact h
  · rw [hEq]
    obtain ⟨i, hi⟩ := List.mem_iff_getElem?.mp h
    refine List.mem_map.mpr ⟨(ev, i), List.mem_filter.mpr ⟨?_, ?_⟩, rfl⟩
    · exact List.mem_zipIdx_iff_getElem?.mpr hi
    · simp [hOther]

theorem mem_of_mem_collapseOom (h : ev ∈ collapseOom events) : ev ∈ events := by
  rcases collapseOom_cases events with ⟨hEq, -⟩ | ⟨keep, -, -, -, hEq⟩
  · exact hEq ▸ h
  · rw [hEq] at h
    obtain ⟨p, hp, rfl⟩ := List.mem_map.mp h
    exact List.fst_mem_of_mem_zipIdx (List.mem_of_mem_filter hp)

theorem kept_mem_collapseOom (h : keptOom events = some ev) : ev ∈ collapseOom events := by
  rcases collapseOom_cases events with ⟨hEq, -⟩ | ⟨keep, hKeep, hKept, -, hEq⟩
  · rw [hEq]
    have hMem : ev ∈ events.filter KernelEvent.isOom := by
      rcases Option.or_eq_some_iff.mp h with hFind | ⟨-, hHead⟩
      · exact List.mem_of_find?_eq_some hFind
      · exact List.mem_of_head? hHead
    exact List.mem_of_mem_filter hMem
  · rw [hKept] at h
    cases h
    rw [hEq]
    exact List.mem_map.mpr ⟨keep, List.mem_filter.mpr ⟨hKeep, by simp⟩, rfl⟩

/-- All events of other kinds, and one about memory where there are any. -/
theorem length_collapseOom_le (events : List KernelEvent) : (collapseOom events).length ≤
    events.countP (fun ev => !ev.isOom) + min 1 (events.countP KernelEvent.isOom) := by
  have hTotal := List.length_eq_countP_add_countP KernelEvent.isOom (l := events)
  have hOthers : events.countP (fun ev => decide ¬ev.isOom = true) =
      events.countP fun ev => !ev.isOom := by
    congr 1
    funext ev
    cases ev.isOom <;> rfl
  rcases collapseOom_cases events with ⟨hEq, hFew⟩ | ⟨keep, hKeep, -, hIsOom, hEq⟩
  · rw [← List.countP_eq_length_filter] at hFew
    rw [hEq]
    omega
  · have hOne : events.zipIdx.countP (fun p => p.2 = keep.2) ≤ 1 := by
      have hNodup : (events.zipIdx.map Prod.snd).count keep.2 ≤ 1 := by
        rw [List.zipIdx_map_snd]
        exact List.nodup_iff_count_le_one.mp List.nodup_range' keep.2
      rw [List.count, List.countP_map] at hNodup
      exact hNodup
    have hRest : events.zipIdx.countP (fun p => !p.1.isOom) =
        events.countP fun ev => !ev.isOom := by
      conv_rhs => rw [← List.zipIdx_map_fst 0 events, List.countP_map]
      rfl
    have hPos : 0 < events.countP KernelEvent.isOom :=
      List.countP_pos_iff.mpr ⟨keep.1, List.fst_mem_of_mem_zipIdx hKeep, hIsOom⟩
    have hBoth := countP_or_le (fun p => !p.1.isOom) (fun p => decide (p.2 = keep.2)) events.zipIdx
    rw [hEq, List.length_map, ← List.countP_eq_length_filter]
    omega

/-- How many events are left when one line about memory stays. -/
def collapsedLength (events : List KernelEvent) : Nat :=
  events.countP (fun ev => !ev.isOom) + min 1 (events.countP KernelEvent.isOom)

theorem keptEvents_of_short {alnum : Char → Bool} {text : Text}
    (hShort : collapsedLength (logEvents alnum text) ≤ 100) :
    keptEvents alnum text = collapseOom (logEvents alnum text) :=
  List.take_of_length_le ((length_collapseOom_le _).trans hShort)

theorem mem_keptEvents {alnum : Char → Bool} {text : Text}
    (hShort : collapsedLength (logEvents alnum text) ≤ 100) (h : ev ∈ logEvents alnum text)
    (hOther : ev.isOom = false) : ev ∈ keptEvents alnum text := by
  rw [keptEvents_of_short hShort]
  exact mem_collapseOom h hOther

theorem keptOom_mem_keptEvents {alnum : Char → Bool} {text : Text}
    (hShort : collapsedLength (logEvents alnum text) ≤ 100)
    (h : keptOom (logEvents alnum text) = some ev) : ev ∈ keptEvents alnum text := by
  rw [keptEvents_of_short hShort]
  exact kept_mem_collapseOom h

theorem mem_of_mem_keptEvents {alnum : Char → Bool} {text : Text}
    (h : ev ∈ keptEvents alnum text) : ev ∈ logEvents alnum text :=
  mem_of_mem_collapseOom (List.mem_of_mem_take h)

end Collapse

end GpuMon.Kernel

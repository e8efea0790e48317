import GpuMon.Kernel.Log

/-!
# The driver's own reports (`NVRM: Xid (PCI:..): n, ..`)

The expression of the kind `GPU_XID` wants the number right after `Xid `, where the driver puts
the address of the card in parentheses first. A run of digits that is too long for `int` makes the
parse raise.

* `parseKernelLog_line`: the events of a log of one line.
* `xidEvent_iff`: which lines give an event of the kind, and with which number.
* `xidLine_event_iff`: a report is of the kind only when something else in the line has the form
  that the expression asks for, and then its number is the first one in the line that follows `Xid `.
-/

namespace GpuMon.Kernel

open PyText Regex

/-! ## One line -/

theorem collapseOom_of_length_le {events : List KernelEvent} (h : events.length ≤ 1) :
    collapseOom events = events := by
  rcases collapseOom_cases events with ⟨hEq, -⟩ | ⟨keep, hKeep, -, hOom, hEq⟩
  · exact hEq
  · match events, h with
    | [], _ => cases hKeep
    | [ev], _ =>
      obtain rfl := List.mem_singleton.mp hKeep
      rw [hEq]
      simp

/-- A log of one line gives what the line does. -/
theorem parseKernelLog_line (alnum : Char → Bool) {line : Text} (hLine : IsLine line)
    (hne : line ≠ []) : parseKernelLog alnum line = lineEvents alnum line := by
  unfold parseKernelLog keptEvents logEvents kernelEvent
  rw [splitlines_line hLine hne, List.all_cons, List.all_nil, Bool.and_true]
  cases hEvents : lineEvents alnum line with
  | none => rfl
  | some events =>
    rw [Option.isSome_some, if_pos rfl]
    rcases lineEvents_eq_some hEvents with rfl | ⟨kind, ev, -, -, rfl⟩
    · simp [hEvents, collapseOom_of_length_le]
    · simp [hEvents, collapseOom_of_length_le]

/-! ## The kind -/

/-- What the expression of the kind asks for: `NVRM: Xid `, in any case, and a digit. -/
def xidHead : List (Char → Bool) := "NVRM: Xid ".toList.map sameIgnoringCase ++ [isDecimal]

def xidPattern : Regex :=
  all [litI "NVRM: Xid ", group 1 (plus isDecimal), starLazy anyChar,
    opt (all [litI "on ", group 2 (seq (litI "GPU ") (plus fun c =>
      isDecimal c || c = ':' || ('a' ≤ c.toLower && c.toLower ≤ 'f')))]),
    opt (all [litI "UUID", plus fun c => c = ':' || c = ' ',
      group 3 (plus fun c => !isSpace c)])]

theorem classify_eq_xid_iff {alnum : Char → Bool} {line : Text} :
    (∃ kind, classify alnum line = some kind ∧ kind.1 = .gpuXid) ↔
      (search xidPattern line).isSome := by
  constructor
  · rintro ⟨kind, hKind, hXid⟩
    obtain ⟨p, hFind, rfl⟩ := Option.map_eq_some_iff.mp hKind
    have hHolds := List.find?_some hFind
    have hMem := List.mem_of_find?_eq_some hFind
    have hFirst : p = (.gpuXid, .critical, xidPattern) := by
      simp only [kernelPatterns, List.mem_cons, List.not_mem_nil, or_false] at hMem
      rcases hMem with rfl | rfl | rfl | rfl | rfl | rfl | rfl | rfl | rfl | rfl | rfl
      · rfl
      all_goals cases hXid
    rwa [hFirst] at hHolds
  · intro h
    refine ⟨(.gpuXid, .critical), ?_, rfl⟩
    have hFind : (kernelPatterns alnum).find? (fun p => (search p.2.2 line).isSome) =
        some (.gpuXid, .critical, xidPattern) := List.find?_cons_of_pos h
    rw [classify, hFind]
    rfl

/-- At a place the expression matches where its head stands; the rest of it never fails. -/
theorem go_xidPattern_ne_nil_iff {c : Cursor} : go xidPattern c ≠ [] ↔
    ∃ h d rest, c.after = h ++ d :: rest ∧
      List.Forall₂ (fun ch x => sameIgnoringCase ch x = true) "NVRM: Xid ".toList h ∧
        isDecimal d = true := by
  have hTail : ∀ m : Cursor, go (seq (group 1 (plus isDecimal)) (seq (starLazy anyChar)
      (seq (opt (all [litI "on ", group 2 (seq (litI "GPU ") (plus fun c =>
        isDecimal c || c = ':' || ('a' ≤ c.toLower && c.toLower ≤ 'f')))]))
        (opt (all [litI "UUID", plus fun c => c = ':' || c = ' ',
          group 3 (plus fun c => !isSpace c)]))))) m ≠ [] ↔
      ∃ d rest, m.after = d :: rest ∧ isDecimal d = true := by
    intro m
    rw [go_seq_ne_nil_iff, ← go_plus_ne_nil_iff, ← go_group_ne_nil_iff (n := 1)]
    constructor
    · rintro ⟨e, he, -⟩
      exact List.ne_nil_of_mem he
    · intro hNe
      obtain ⟨e, he⟩ := List.exists_mem_of_ne_nil _ hNe
      refine ⟨e, he, go_seq_ne_nil_iff.mpr ?_⟩
      obtain ⟨f, hf⟩ := List.exists_mem_of_ne_nil _ (go_starLazy_ne_nil (p := anyChar) e)
      refine ⟨f, hf, go_seq_ne_nil_iff.mpr ?_⟩
      exact ⟨f, mem_go_opt.mpr (.inr rfl), go_opt_ne_nil f⟩
  change go (seq (litI "NVRM: Xid ") _) c ≠ [] ↔ _
  rw [go_seq_ne_nil_iff]
  constructor
  · rintro ⟨m, hm, hNe⟩
    obtain ⟨h, rest, hSplit, hSame, rfl⟩ := mem_go_litI.mp hm
    obtain ⟨d, rest', hCons, hDigit⟩ := (hTail _).mp hNe
    rw [Cursor.advance_after, hSplit, hSame.length_eq, List.drop_left] at hCons
    exact ⟨h, d, rest', by rw [hSplit, hCons], hSame, hDigit⟩
  · rintro ⟨h, d, rest, hSplit, hSame, hDigit⟩
    refine ⟨_, mem_go_litI.mpr ⟨h, d :: rest, hSplit, hSame, rfl⟩, (hTail _).mpr ⟨d, rest, ?_, hDigit⟩⟩
    rw [Cursor.advance_after, hSplit, hSame.length_eq, List.drop_left]

theorem forall₂_map_concat_iff {f : Char → Char → Bool} {p : Char → Bool} {t h : Text} :
    List.Forall₂ (fun p c => p c = true) (t.map f ++ [p]) h ↔ ∃ front c, h = front ++ [c] ∧
      List.Forall₂ (fun ch x => f ch x = true) t front ∧ p c = true := by
  rw [forall₂_concat_iff]
  simp only [List.forall₂_map_left_iff]

theorem forall₂_xidHead_iff {t : Text} : List.Forall₂ (fun p c => p c = true) xidHead t ↔
    ∃ h d, t = h ++ [d] ∧
      List.Forall₂ (fun ch x => sameIgnoringCase ch x = true) "NVRM: Xid ".toList h ∧
        isDecimal d = true := forall₂_map_concat_iff

theorem search_xidPattern_iff {line : Text} :
    (search xidPattern line).isSome ↔ Occurs xidHead line := by
  rw [search_isSome_iff]
  constructor
  · rintro ⟨a, b, rfl, hNe⟩
    obtain ⟨h, d, rest, hSplit, hSame, hDigit⟩ := go_xidPattern_ne_nil_iff.mp hNe
    exact ⟨a, h ++ [d], rest, by simp [show b = h ++ d :: rest from hSplit],
      forall₂_xidHead_iff.mpr ⟨h, d, rfl, hSame, hDigit⟩⟩
  · rintro ⟨a, t, b, rfl, hTests⟩
    obtain ⟨h, d, rfl, hSame, hDigit⟩ := forall₂_xidHead_iff.mp hTests
    refine ⟨a, (h ++ [d]) ++ b, by rw [List.append_assoc], go_xidPattern_ne_nil_iff.mpr ?_⟩
    exact ⟨h, d, b, by simp, hSame, hDigit⟩

/-! ## The number -/

/-- `Xid ` and a whole run of digits, between `a` and `b`. -/
structure XidAt (line a d b : Text) : Prop where
  split : line = a ++ ("Xid ".toList ++ (d ++ b))
  ne_nil : d ≠ []
  digits : ∀ c ∈ d, isDecimal c = true
  ends : ∀ c ∈ b.head?, isDecimal c = false

/-- The number of an event: that of the first such run in the line, if `int` takes it, or zero. -/
def ReadsXid (line : Text) (n : Nat) : Prop :=
  (∃ a d b, XidAt line a d b ∧ d.length ≤ maxStrDigits ∧ parseNat d = n ∧
    ∀ a' d' b', XidAt line a' d' b' → a.length ≤ a'.length) ∨
  (n = 0 ∧ ∀ a d b, ¬ XidAt line a d b)

section Number

variable {line a b d : Text} {e : Cursor} {n : Nat}

/-- Digits right at a place are a run and what follows it. -/
theorem exists_run {t : Text} {x : Char} {rest : Text} (ht : t = x :: rest)
    (hx : isDecimal x = true) : ∃ d b, t = d ++ b ∧ d ≠ [] ∧ (∀ c ∈ d, isDecimal c = true) ∧
      ∀ c ∈ b.head?, isDecimal c = false := by
  refine ⟨t.takeWhile isDecimal, t.dropWhile isDecimal, List.takeWhile_append_dropWhile.symm, ?_,
    fun c hc => List.mem_takeWhile_imp hc, dropWhile_head⟩
  rw [ht, List.takeWhile_cons, if_pos hx]
  exact List.cons_ne_nil _ _

theorem go_xidRegex_ne_nil_iff (hSplit : line = a ++ b) :
    go xidRegex ⟨a.reverse, b, []⟩ ≠ [] ↔ ∃ d b', XidAt line a d b' := by
  rw [xidRegex, go_seq_ne_nil_iff]
  constructor
  · rintro ⟨m, hm, hNe⟩
    obtain ⟨⟨rest, hRest⟩, rfl⟩ := mem_go_lit.mp hm
    obtain ⟨x, rest', hCons, hx⟩ := go_plus_ne_nil_iff.mp (go_group_ne_nil_iff.mp hNe)
    have hRest : "Xid ".toList ++ rest = b := hRest
    rw [Cursor.advance_after, ← hRest, List.drop_left] at hCons
    obtain ⟨d, b', rfl, hne, hDigits, hEnds⟩ := exists_run hCons hx
    exact ⟨d, b', by rw [hSplit, ← hRest], hne, hDigits, hEnds⟩
  · rintro ⟨d, b', hXid⟩
    have hb : b = "Xid ".toList ++ (d ++ b') := List.append_cancel_left (hSplit.symm.trans hXid.split)
    obtain ⟨x, rest, hd⟩ := List.exists_cons_of_ne_nil hXid.ne_nil
    refine ⟨_, mem_go_lit.mpr ⟨⟨d ++ b', hb.symm⟩, rfl⟩, go_group_ne_nil_iff.mpr ?_⟩
    refine go_plus_ne_nil_iff.mpr ⟨x, rest ++ b', ?_, hXid.digits x (hd ▸ List.mem_cons_self)⟩
    rw [Cursor.advance_after, hb, List.drop_left, hd]
    rfl

/-- The match at a place captures the run. -/
theorem first_xidRegex (h : XidAt line a d b) :
    First xidRegex ⟨a.reverse, "Xid ".toList ++ (d ++ b), []⟩
      ⟨d.reverse ++ ("Xid ".toList.reverse ++ a.reverse), b, [(1, d)]⟩ := by
  have hRun : First (plus isDecimal) ⟨"Xid ".toList.reverse ++ a.reverse, d ++ b, []⟩
      ⟨d.reverse ++ ("Xid ".toList.reverse ++ a.reverse), b, []⟩ :=
    First.rep (List.length_pos_of_ne_nil h.ne_nil) h.digits h.ends
  exact (First.lit "Xid ".toList).seq (hRun.group rfl)

theorem XidAt.go_ne_nil (h : XidAt line a d b) {c : Text} (hSplit : line = a ++ c) :
    go xidRegex ⟨a.reverse, c, []⟩ ≠ [] := (go_xidRegex_ne_nil_iff hSplit).mpr ⟨d, b, h⟩

/-- Runs that begin at one place are the same. -/
theorem XidAt.run_unique {d' b' : Text} (h : XidAt line a d b) (h' : XidAt line a d' b') :
    d = d' := by
  have hSplit : d ++ b = d' ++ b' :=
    List.append_cancel_left (List.append_cancel_left (h.split.symm.trans h'.split))
  rw [← takeWhile_append_of_forall h.digits h.ends, hSplit,
    takeWhile_append_of_forall h'.digits h'.ends]

/-- The first run of the line. -/
structure FirstXid (line a d b : Text) : Prop where
  here : XidAt line a d b
  earliest : ∀ a' d' b', XidAt line a' d' b' → a.length ≤ a'.length

theorem FirstXid.run_unique {a' d' b' : Text} (h : FirstXid line a d b)
    (h' : FirstXid line a' d' b') : d = d' := by
  have hLength := le_antisymm (h.earliest a' d' b' h'.here) (h'.earliest a d b h.here)
  have hPlace : a = a' := (List.append_inj (h.here.split.symm.trans h'.here.split) hLength).1
  subst hPlace
  exact h.here.run_unique h'.here

/-- What the search finds is the first run. -/
theorem xidNumber?_cases (line : Text) :
    (∃ a d b, FirstXid line a d b ∧ xidNumber? line = intOfDigits d) ∨
      (xidNumber? line = some 0 ∧ ∀ a d b, ¬ XidAt line a d b) := by
  unfold xidNumber?
  cases hSearch : search xidRegex line with
  | none =>
    refine .inr ⟨rfl, fun a d b hXid => ?_⟩
    exact hXid.go_ne_nil hXid.split (go_eq_nil_of_search hSearch hXid.split)
  | some e =>
    obtain ⟨a, c, hLeft⟩ := leftmost_of_search hSearch
    obtain ⟨d, b, hXid⟩ := (go_xidRegex_ne_nil_iff hLeft.split).mp
      (List.ne_nil_of_mem (List.mem_of_head? hLeft.first))
    have hFirst := hLeft.first
    have hc : c = "Xid ".toList ++ (d ++ b) :=
      List.append_cancel_left (hLeft.split.symm.trans hXid.split)
    rw [hc, First, first_xidRegex hXid] at hFirst
    refine .inl ⟨a, d, b, ⟨hXid, fun a' d' b' hXid' => ?_⟩, ?_⟩
    · by_contra hLt
      exact hXid'.go_ne_nil hXid'.split (hLeft.earliest a' _ hXid'.split (not_le.mp hLt))
    · rw [← Option.some.inj hFirst]
      rfl

theorem XidAt.intOfDigits_iff (h : XidAt line a d b) :
    intOfDigits d = some n ↔ d.length ≤ maxStrDigits ∧ parseNat d = n := by
  have hAll : d.all isDecimal = true := List.all_eq_true.mpr h.digits
  simp [intOfDigits, h.ne_nil, hAll]

theorem readsXid_iff : ReadsXid line n ↔ xidNumber? line = some n := by
  rcases xidNumber?_cases line with ⟨a, d, b, hFirst, hNumber⟩ | ⟨hNumber, hNone⟩
  · rw [hNumber, hFirst.here.intOfDigits_iff]
    constructor
    · rintro (⟨a', d', b', hXid, hShort, hReads, hEarliest⟩ | ⟨-, hNone⟩)
      · obtain rfl := hFirst.run_unique ⟨hXid, hEarliest⟩
        exact ⟨hShort, hReads⟩
      · exact absurd hFirst.here (hNone a d b)
    · rintro ⟨hShort, hReads⟩
      exact .inl ⟨a, d, b, hFirst.here, hShort, hReads, hFirst.earliest⟩
  · rw [hNumber]
    constructor
    · rintro (⟨a, d, b, hXid, -⟩ | ⟨rfl, -⟩)
      · exact absurd hXid (hNone a d b)
      · rfl
    · rintro ⟨⟩
      exact .inr ⟨rfl, hNone⟩

end Number

/-! ## The reports -/

/-- Which lines give an event of the kind with a given number. -/
theorem xidEvent_iff (alnum : Char → Bool) {line : Text} (hLine : IsLine line) (hne : line ≠ [])
    (n : Nat) :
    (∃ ev, parseKernelLog alnum line = some [ev] ∧ ev.eventType = .gpuXid ∧ ev.xid = n) ↔
      Occurs xidHead (rstrip line) ∧ ReadsXid (rstrip line) n := by
  have hKind : (∃ kind, classify alnum (rstrip line) = some kind ∧ kind.1 = .gpuXid) ↔
      (search xidPattern (rstrip line)).isSome := classify_eq_xid_iff
  rw [parseKernelLog_line alnum hLine hne, ← search_xidPattern_iff, ← hKind, readsXid_iff]
  constructor
  · rintro ⟨ev, hEvents, hXid, rfl⟩
    rcases lineEvents_eq_some hEvents with hNil | ⟨kind, ev', hClass, hEvent, hSame⟩
    · cases hNil
    · cases hSame
      have hKindXid : kind.1 = .gpuXid := by rwa [← (eventOf_eq_some hEvent).1]
      refine ⟨⟨kind, hClass, hKindXid⟩, ?_⟩
      rw [eventOf, if_pos hKindXid] at hEvent
      obtain ⟨xid, hNumber, hEvent⟩ := Option.bind_eq_some_iff.mp hEvent
      cases hEvent
      exact hNumber
  · rintro ⟨⟨kind, hClass, hXid⟩, hNumber⟩
    have hBlank : rstrip line ≠ [] := by
      intro hNil
      have hOccurs := search_xidPattern_iff.mp (hKind.mp ⟨kind, hClass, hXid⟩)
      rw [hNil] at hOccurs
      exact Occurs.not_nil hOccurs
    have hEvent : ∃ ev, eventOf (rstrip line) kind = some ev ∧ ev.xid = n := by
      rw [eventOf, if_pos hXid, hNumber]
      exact ⟨_, rfl, rfl⟩
    obtain ⟨ev, hEvent, hReads⟩ := hEvent
    refine ⟨ev, ?_, (eventOf_eq_some hEvent).1.trans hXid, hReads⟩
    rw [lineEvents, if_neg hBlank, hClass]
    dsimp only
    rw [hEvent]
    rfl

/-- `<pre>NVRM: Xid (PCI:<bdf>): <n>, <tail>`. -/
def xidLine (pre bdf : Text) (n : Nat) (tail : Text) : Text :=
  (pre ++ "NVRM: Xid ".toList) ++ '(' :: (("PCI:".toList ++ bdf) ++
    ')' :: ((": ".toList ++ natText n) ++ ',' :: (" ".toList ++ tail)))

theorem xidHead_eq : xidHead =
    sameIgnoringCase 'N' :: ("VRM: Xid ".toList.map sameIgnoringCase ++ [isDecimal]) := rfl

section Report

variable {pre bdf tail : Text} {n : Nat}

theorem isLine_xidLine (hPre : IsLine pre) (hBdf : IsLine bdf) (hTail : IsLine tail) :
    IsLine (xidLine pre bdf n tail) := by
  have hLit : IsLine "NVRM: Xid ".toList ∧ IsLine "PCI:".toList ∧ IsLine ": ".toList ∧
      IsLine " ".toList := by decide
  obtain ⟨hHead, hPci, hColon, hBlank⟩ := hLit
  refine isLine_append (isLine_append hPre hHead) (isLine_cons (by decide) ?_)
  refine isLine_append (isLine_append hPci hBdf) (isLine_cons (by decide) ?_)
  refine isLine_append (isLine_append hColon (isLine_natText n)) (isLine_cons (by decide) ?_)
  exact isLine_append hBlank hTail

theorem notN_of_isDigit {c : Char} (h : c.isDigit = true) : sameIgnoringCase 'N' c = false := by
  by_contra hSame
  have hLetter : c = 'N' ∨ c = 'n' := by
    simp [sameIgnoringCase] at hSame
    tauto
  rcases hLetter with rfl | rfl <;> exact absurd h (by decide)

/-- The report itself never has the head: parentheses and a comma keep its parts apart. -/
theorem occurs_xidLine : Occurs xidHead (xidLine pre bdf n tail) ↔
    Occurs xidHead pre ∨ Occurs xidHead bdf ∨ Occurs xidHead tail := by
  have hApart : ∀ c, (xidHead.any fun p => p c) = false → ∀ p ∈ xidHead, p c = false :=
    fun c => Occurs.none_of_any
  have hPre : Occurs xidHead (pre ++ "NVRM: Xid ".toList) ↔ Occurs xidHead pre :=
    Occurs.skip_right (Occurs.none_of_any (by decide))
  have hBdf : Occurs xidHead ("PCI:".toList ++ bdf) ↔ Occurs xidHead bdf := by
    rw [xidHead_eq]
    exact Occurs.skip_left (Occurs.none_of_any (by decide))
  have hNumber : ¬ Occurs xidHead (": ".toList ++ natText n) := by
    rw [xidHead_eq, ← List.append_nil (": ".toList ++ natText n), Occurs.skip_left]
    · exact Occurs.not_nil
    · intro c hc
      rcases List.mem_append.mp hc with hColon | hDigit
      · exact Occurs.none_of_any (l := ": ".toList) (by decide) c hColon
      · exact notN_of_isDigit (isDigit_of_mem_natText hDigit)
  have hTail : Occurs xidHead (" ".toList ++ tail) ↔ Occurs xidHead tail := by
    rw [xidHead_eq]
    exact Occurs.skip_left (Occurs.none_of_any (by decide))
  rw [xidLine, Occurs.append_cons_iff (hApart '(' (by decide +kernel)),
    Occurs.append_cons_iff (hApart ')' (by decide +kernel)),
    Occurs.append_cons_iff (hApart ',' (by decide +kernel)),
    hPre, hBdf, or_iff_right hNumber, hTail]

theorem xidLine_ne_nil : xidLine pre bdf n tail ≠ [] := by
  simp [xidLine]

/-- Blanks at the end of a line do not matter to the head, which ends with a digit. -/
theorem occurs_rstrip (line : Text) : Occurs xidHead (rstrip line) ↔ Occurs xidHead line := by
  obtain ⟨blank, hSplit, hBlank⟩ := exists_rstrip_append line
  conv_rhs => rw [← hSplit]
  exact (Occurs.skip_right fun c hc => isDecimal_of_isSpace (hBlank c hc)).symm

end Report

/-- A report of the driver becomes an event with its kind and number only if the line has the head
somewhere else, and if the first digits of the line that follow `Xid ` are those of the number and
not too many for `int`. -/
theorem xidLine_event_iff (alnum : Char → Bool) {pre bdf tail : Text} (hPre : IsLine pre)
    (hBdf : IsLine bdf) (hTail : IsLine tail) (n : Nat) :
    (∃ ev, parseKernelLog alnum (xidLine pre bdf n tail) = some [ev] ∧ ev.eventType = .gpuXid ∧
      ev.xid = n) ↔
    (Occurs xidHead pre ∨ Occurs xidHead bdf ∨ Occurs xidHead tail) ∧
      ReadsXid (rstrip (xidLine pre bdf n tail)) n := by
  rw [xidEvent_iff alnum (isLine_xidLine hPre hBdf hTail) xidLine_ne_nil, occurs_rstrip,
    occurs_xidLine]

/-- A line that quotes the same report in the older form, without the address. -/
theorem quotedReport_event : ∃ ev, parseKernelLog (fun _ => false)
    (xidLine "kernel: " "0000:3b:00" 79 "see NVRM: Xid 79") = some [ev] ∧ ev.eventType = .gpuXid ∧
      ev.xid = 79 := by
  refine (xidLine_event_iff _ (by decide) (by decide) (by decide) 79).mpr ⟨.inr (.inr ?_), ?_⟩
  · exact ⟨"see ", "NVRM: Xid 7", "9", by decide +kernel, by decide +kernel⟩
  · exact readsXid_iff.mpr (by decide +kernel)

/-- A card that falls off the bus is reported as `Xid` 79 and recorded as another kind. -/
theorem fallenCard_not_xid : ¬ ∃ ev, parseKernelLog (fun _ => false)
    (xidLine "kernel: " "0000:3b:00" 79 "pid=1234, name=python, GPU has fallen off the bus.") =
      some [ev] ∧ ev.eventType = .gpuXid ∧ ev.xid = 79 := by
  have hKind : (parseKernelLog (fun _ => false)
      (xidLine "kernel: " "0000:3b:00" 79 "pid=1234, name=python, GPU has fallen off the bus.")).map
        (List.map KernelEvent.eventType) = some [.gpuFallenOffBus] := by decide +kernel
  rintro ⟨ev, hEvents, hXid, -⟩
  rw [hEvents, Option.map_some, List.map_singleton, hXid] at hKind
  exact absurd hKind (by decide)

end GpuMon.Kernel

import GpuMon.Detectors

/-!
# `/proc/mdstat` (`collectors_extra.py`)

The parser reads a header line `md<k> : ...` together with the counts and the bitmap of the
array, which the kernel prints on the line below it.

* `arrays_parseMdstat`: every array of the kernel's text gives one entry, in order, with its
  name and with neither a bitmap nor counts.
* `isOpen_of_detectRaid`: so the detector opens no event for what the parser returns.
* `mdstat_faithful_iff`: the bitmap is carried over, and a degraded array reported, exactly when
  the text lists no array.
-/

namespace GpuMon.Mdstat

open PyText Regex Detectors

/-! ## The parser -/

def personalitiesRegex : Regex :=
  all [bol, lit "Personalities", star isSpace, lit ":", star isSpace, lit "[",
    group 1 (star anyChar), lit "]"]

/-- `raid\d+|linear|multipath|faulty`. -/
def levelRegex : Regex :=
  alt (seq (lit "raid") (plus isDecimal)) (alt (lit "linear") (alt (lit "multipath") (lit "faulty")))

def headerRegex : Regex :=
  all [bol, group 1 (seq (lit "md") (plus isDecimal)), star isSpace, lit ":", star isSpace,
    group 2 (star anyChar), eol]

def statusRegex : Regex :=
  all [lit "[", group 1 (plus isDecimal), lit "/", group 2 (plus isDecimal), lit "]",
    plus isSpace, lit "[", group 3 (plus fun x => x = 'U' || x = '_'), lit "]"]

def recoveryRegex : Regex :=
  all [lit "recovery", star isSpace, lit "=", star isSpace,
    group 1 (seq (plus isDecimal) (opt (seq (lit ".") (plus isDecimal)))), lit "%"]

/-- The entry of an array; `rest` is what follows the colon on its line. -/
def mdstatArray (name rest : Text) : RaidArray :=
  let arr : RaidArray :=
    { name, level := (search (group 1 levelRegex) rest).bind fun m => m.group? 1 }
  let arr := match search statusRegex rest with
    | none => arr
    | some status =>
      let state := (status.group? 3).getD []
      { arr with
        activeDisks := some (parseNat ((status.group? 1).getD []))
        totalDisks := some (parseNat ((status.group? 2).getD []))
        state := some state
        degraded := '_' ∈ state }
  match search recoveryRegex rest with
  | none => arr
  | some rec => { arr with recoveryPercent := PyFloat.float? ((rec.group? 1).getD []) }

/-- What one line adds. -/
def mdstatLine (out : Mdraid) (line : Text) : Mdraid :=
  let line := strip line
  match match? personalitiesRegex line with
  | some m => { out with personalities := findall levelRegex ((m.group? 1).getD []) }
  | none => match match? headerRegex line with
    | some m => { out with
        arrays := out.arrays ++ [mdstatArray ((m.group? 1).getD []) ((m.group? 2).getD [])] }
    | none => out

/-- `_parse_mdstat`. -/
def parseMdstat (text : Text) : Mdraid :=
  (splitlines text).foldl mdstatLine { raw := text.take 2000 }

/-! ## The kernel's text -/

/-- The marks behind a member: write-mostly, journal, faulty, spare, replacement. -/
inductive MemberFlag
  | writeMostly
  | journal
  | faulty
  | spare
  | replacement

def MemberFlag.text : MemberFlag → Text
  | writeMostly => "(W)"
  | journal => "(J)"
  | faulty => "(F)"
  | spare => "(S)"
  | replacement => "(R)"

/-- A word of a header line: no line break and no bracket. -/
structure Plain where
  text : Text
  isLine : IsLine text
  noBracket : '[' ∉ text

structure Member where
  device : Plain
  slot : Nat
  flags : List MemberFlag

def Member.text (d : Member) : Text :=
  ' ' :: d.device.text ++ '[' :: natText d.slot ++ ']' :: d.flags.flatMap MemberFlag.text

/-- A line that is no header line. -/
structure OtherLine where
  text : Text
  isLine : IsLine text
  noHeader : ¬("md".toList <+: strip text)

/-- An array; `devices` says of each configured device whether it is up. -/
structure KernelArray where
  minor : Nat
  state : Plain
  level : Plain
  members : List Member
  blocks : Nat
  working : Nat
  devices : List Bool
  info : Text
  isLine_info : IsLine info
  tail : Text
  isLine_tail : IsLine tail
  more : List OtherLine

namespace KernelArray

def name (a : KernelArray) : Text := "md".toList ++ natText a.minor

def header (a : KernelArray) : Text :=
  a.name ++ " : ".toList ++ (a.state.text ++ ' ' :: a.level.text ++ a.members.flatMap Member.text)

/-- The bitmap `S`. -/
def bitmap (a : KernelArray) : Text := a.devices.map fun up => if up then 'U' else '_'

/-- ` [n/m] [S]` with what stands around it. -/
def counts (a : KernelArray) : Text :=
  a.info ++ " [".toList ++ natText a.devices.length ++ "/".toList ++ natText a.working ++
    "] [".toList ++ a.bitmap ++ "]".toList ++ a.tail

def status (a : KernelArray) : Text :=
  "      ".toList ++ (natText a.blocks ++ (" blocks".toList ++ a.counts))

def lines (a : KernelArray) : List Text := a.header :: a.status :: a.more.map OtherLine.text

end KernelArray

/-- A whole text: the personalities, the arrays, the unused devices. -/
structure KernelText where
  personalities : List Plain
  arrays : List KernelArray
  unused : Plain

namespace KernelText

def personalitiesLine (k : KernelText) : Text :=
  "Personalities : ".toList ++ k.personalities.flatMap fun p => '[' :: p.text ++ "] ".toList

def lines (k : KernelText) : List Text :=
  k.personalitiesLine :: k.arrays.flatMap KernelArray.lines ++
    ["unused devices: ".toList ++ k.unused.text]

def text (k : KernelText) : Text := k.lines.flatMap fun line => line ++ ['\n']

end KernelText

/-! ## The lines of the text -/

theorem Member.isLine_text (d : Member) : IsLine d.text := by
  have hFlag : ∀ f ∈ d.flags, IsLine f.text := by
    intro f _
    cases f <;> decide
  exact isLine_append (isLine_append (isLine_cons (by decide) d.device.isLine)
    (isLine_cons (by decide) (isLine_natText _))) (isLine_cons (by decide) (isLine_flatMap hFlag))

namespace KernelArray

variable (a : KernelArray)

theorem isLine_header : IsLine a.header :=
  isLine_append (isLine_append (isLine_append (by decide) (isLine_natText _)) (by decide))
    (isLine_append (isLine_append a.state.isLine (isLine_cons (by decide) a.level.isLine))
      (isLine_flatMap fun d _ => d.isLine_text))

theorem isLine_bitmap : IsLine a.bitmap := by
  intro c hc
  obtain ⟨up, -, rfl⟩ := List.mem_map.mp hc
  cases up <;> decide

theorem isLine_counts : IsLine a.counts :=
  isLine_append (isLine_append (isLine_append (isLine_append (isLine_append (isLine_append
    (isLine_append (isLine_append a.isLine_info (by decide)) (isLine_natText _)) (by decide))
    (isLine_natText _)) (by decide)) a.isLine_bitmap) (by decide)) a.isLine_tail

theorem isLine_status : IsLine a.status :=
  isLine_append (by decide) (isLine_append (isLine_natText _)
    (isLine_append (by decide) a.isLine_counts))

theorem isLine_of_mem_lines {line : Text} (h : line ∈ a.lines) : IsLine line := by
  rcases List.mem_cons.mp h with rfl | h
  · exact a.isLine_header
  rcases List.mem_cons.mp h with rfl | h
  · exact a.isLine_status
  obtain ⟨other, -, rfl⟩ := List.mem_map.mp h
  exact other.isLine

end KernelArray

theorem KernelText.isLine_of_mem_lines {k : KernelText} {line : Text} (h : line ∈ k.lines) :
    IsLine line := by
  rcases List.mem_append.mp h with h | h
  · rcases List.mem_cons.mp h with rfl | h
    · exact isLine_append (by decide) (isLine_flatMap fun p _ =>
        isLine_append (isLine_cons (by decide) p.isLine) (by decide))
    · obtain ⟨a, -, ha⟩ := List.mem_flatMap.mp h
      exact a.isLine_of_mem_lines ha
  · rw [List.mem_singleton.mp h]
    exact isLine_append (by decide) k.unused.isLine

/-! ## What a line adds -/

/-- The entry that a line gives. -/
def arrayOf (line : Text) : Option RaidArray :=
  match match? personalitiesRegex (strip line) with
  | some _ => none
  | none => (match? headerRegex (strip line)).map fun m =>
    mdstatArray ((m.group? 1).getD []) ((m.group? 2).getD [])

theorem arrays_mdstatLine (out : Mdraid) (line : Text) :
    (mdstatLine out line).arrays = out.arrays ++ (arrayOf line).toList := by
  unfold mdstatLine arrayOf
  dsimp only
  cases match? personalitiesRegex (strip line) with
  | some m => exact (List.append_nil _).symm
  | none =>
    cases match? headerRegex (strip line) with
    | some m => rfl
    | none => exact (List.append_nil _).symm

theorem arrays_foldl (out : Mdraid) (lines : List Text) :
    (lines.foldl mdstatLine out).arrays = out.arrays ++ lines.filterMap arrayOf := by
  induction lines generalizing out with
  | nil => exact (List.append_nil _).symm
  | cons line rest ih =>
    rw [List.foldl_cons, ih, arrays_mdstatLine, List.append_assoc]
    cases h : arrayOf line with
    | none => rw [List.filterMap_cons_none h]; rfl
    | some arr => rw [List.filterMap_cons_some h]; rfl

theorem not_match_of_lit {t text : Text} {r : Regex} (h : ¬t <+: text) :
    match? (seq bol (seq (lit t) r)) text = none := by
  apply match?_eq_none
  intro e he
  obtain ⟨m, hm, he⟩ := mem_go_seq.mp he
  obtain ⟨m', hm', -⟩ := mem_go_seq.mp he
  rw [(mem_go_bol.mp hm).2] at hm'
  exact h (mem_go_lit.mp hm').1

theorem arrayOf_eq_none {line : Text} (h : ¬"md".toList <+: strip line) : arrayOf line = none := by
  have hNone : match? headerRegex (strip line) = none := by
    apply match?_eq_none
    intro e he
    obtain ⟨m, hm, he⟩ := mem_go_seq.mp he
    obtain ⟨m', hm', -⟩ := mem_go_seq.mp he
    obtain ⟨n, hn, -⟩ := mem_go_group.mp hm'
    obtain ⟨n', hn', -⟩ := mem_go_seq.mp hn
    rw [(mem_go_bol.mp hm).2] at hn'
    exact h (mem_go_lit.mp hn').1
  unfold arrayOf
  rw [hNone]
  split <;> rfl

/-! ## The header line -/

/-- No bracket of the text is followed by digits and a slash. -/
def NoRatio (t : Text) : Prop :=
  ∀ digits rest : Text, (∀ c ∈ digits, isDecimal c = true) → ¬('[' :: digits ++ '/' :: rest <:+ t)

namespace NoRatio

theorem of_suffix {t t' : Text} (h : NoRatio t) (hSuffix : t' <:+ t) : NoRatio t' :=
  fun digits rest hDigits hIn => h digits rest hDigits (hIn.trans hSuffix)

theorem of_front {t t' : Text} (h : NoRatio t) (hPrefix : t' <+: t) : NoRatio t' := by
  rintro digits rest hDigits ⟨front, rfl⟩
  obtain ⟨tail, rfl⟩ := hPrefix
  refine h digits (rest ++ tail) hDigits ⟨front, ?_⟩
  simp

theorem nil : NoRatio [] := by
  intro digits rest _ hIn
  cases List.suffix_nil.mp hIn

theorem cons {c : Char} {t : Text} (hc : c ≠ '[') (h : NoRatio t) : NoRatio (c :: t) := by
  intro digits rest hDigits hIn
  rcases List.suffix_cons_iff.mp hIn with hEq | hIn
  · exact hc (List.cons.inj hEq).1.symm
  · exact h digits rest hDigits hIn

theorem append {a b : Text} (ha : '[' ∉ a) (hb : NoRatio b) : NoRatio (a ++ b) := by
  induction a with
  | nil => exact hb
  | cons c a ih =>
    exact (ih fun h => ha (List.mem_cons_of_mem c h)).cons fun h => ha (h ▸ List.mem_cons_self)

/-- A slot number is followed by its closing bracket. -/
theorem slot {k : Nat} {b : Text} (hb : NoRatio b) : NoRatio ('[' :: natText k ++ ']' :: b) := by
  have hTail : NoRatio (natText k ++ ']' :: b) := by
    refine append (fun h => ?_) (hb.cons (by decide))
    exact absurd (isDecimal_of_mem_natText h) (by decide)
  intro digits rest hDigits hIn
  rcases List.suffix_cons_iff.mp hIn with hEq | hIn
  · have hSame : digits ++ '/' :: rest = natText k ++ ']' :: b := (List.cons.inj hEq).2
    have hTake := congrArg (List.takeWhile isDecimal) hSame
    rw [takeWhile_append_of_forall hDigits (by rintro _ ⟨⟩; decide),
      takeWhile_append_of_forall (fun _ => isDecimal_of_mem_natText) (by rintro _ ⟨⟩; decide)] at hTake
    rw [hTake] at hSame
    cases List.append_cancel_left hSame
  · exact hTail digits rest hDigits hIn

end NoRatio

theorem Member.noRatio (members : List Member) : NoRatio (members.flatMap Member.text) := by
  induction members with
  | nil => exact .nil
  | cons d rest ih =>
    have hFlags : '[' ∉ d.flags.flatMap MemberFlag.text := by
      intro h
      obtain ⟨f, -, hf⟩ := List.mem_flatMap.mp h
      revert hf
      cases f <;> decide
    have hSlot := ((ih.append hFlags).slot (k := d.slot)).append d.device.noBracket
    have hAll := hSlot.cons (c := ' ') (by decide)
    simpa [Member.text, List.flatMap_cons, List.append_assoc] using hAll

/-- The status expression needs the slash that the header line does not have. -/
theorem search_statusRegex {t : Text} (h : NoRatio t) : search statusRegex t = none := by
  by_contra hFound
  obtain ⟨e, he⟩ := Option.ne_none_iff_exists'.mp hFound
  obtain ⟨s, hSuffix, hMatch⟩ := exists_of_search he
  obtain ⟨m, hOpen, hMatch⟩ := mem_go_seq.mp hMatch
  obtain ⟨m', hTotal, hMatch⟩ := mem_go_seq.mp hMatch
  obtain ⟨m'', hSlash, -⟩ := mem_go_seq.mp hMatch
  obtain ⟨⟨r, hBracket⟩, rfl⟩ := mem_go_lit.mp hOpen
  obtain ⟨d, hDigits, rfl⟩ := mem_go_group.mp hTotal
  obtain ⟨k, -, hk, rfl⟩ := mem_go_rep.mp hDigits
  obtain ⟨⟨r', hRest⟩, -⟩ := mem_go_lit.mp hSlash
  have hAfter : s.after = '[' :: r := hBracket.symm
  have hk : k ≤ (r.takeWhile isDecimal).length := by
    simpa [runLength, Cursor.advance_after, hAfter] using hk
  have hDrop : '/' :: r' = r.drop k := by
    simpa [Cursor.advance_after, hAfter] using hRest
  have hTake : ∀ c ∈ r.take k, isDecimal c = true := by
    intro c hc
    rw [← List.takeWhile_append_dropWhile (p := isDecimal) (l := r),
      List.take_append_of_le_length hk] at hc
    exact List.mem_takeWhile_imp (List.mem_of_mem_take hc)
  refine h (r.take k) r' hTake ?_
  rw [hDrop, List.cons_append, List.take_append_drop, ← hAfter]
  exact hSuffix

namespace KernelArray

variable (a : KernelArray)

/-- What the header line has behind the colon. -/
def headerRest : Text := a.state.text ++ ' ' :: a.level.text ++ a.members.flatMap Member.text

theorem noRatio_headerRest : NoRatio a.headerRest := by
  have hLevel := (Member.noRatio a.members).append a.level.noBracket
  have hState := (hLevel.cons (c := ' ') (by decide)).append a.state.noBracket
  simpa [headerRest, List.append_assoc] using hState

theorem header_eq : a.header = (a.name ++ " :".toList) ++ ' ' :: a.headerRest := by
  simp [header, headerRest, List.append_assoc]

theorem strip_header : strip a.header = a.name ++ " :".toList ++ rstrip (' ' :: a.headerRest) := by
  have hLeft : lstrip a.header = a.header := dropWhile_eq_self_of_head (by rintro _ ⟨⟩; decide)
  rw [strip, hLeft, header_eq, rstrip_append]
  intro c hc
  rw [List.getLast?_append] at hc
  cases hc
  decide

/-- The header expression on a line whose parts are written apart. -/
theorem first_header {w : Text} (hw : ∀ c ∈ w, anyChar c = true) : ∃ before,
    First headerRegex (.start (a.name ++ " :".toList ++ w))
      ⟨before, [], [(2, lstrip w), (1, a.name)]⟩ := by
  have hDigits : ∀ c ∈ natText a.minor, isDecimal c = true := fun _ => isDecimal_of_mem_natText
  have hLength : 1 ≤ (natText a.minor).length := List.length_pos_iff.mpr (natText_ne_nil _)
  have hRest : ∀ c ∈ lstrip w, anyChar c = true := fun c hc =>
    hw c ((List.dropWhile_suffix isSpace).subset hc)
  have hBlanks : ∀ c ∈ w.takeWhile isSpace, isSpace c = true := fun _ => List.mem_takeWhile_imp
  have hText : a.name ++ " :".toList ++ w = "md".toList ++ (natText a.minor ++ (" ".toList ++
      (":".toList ++ (w.takeWhile isSpace ++ (lstrip w ++ []))))) := by
    rw [List.append_nil, lstrip, List.takeWhile_append_dropWhile]
    simp [name]
  rw [hText]
  refine ⟨_, First.seq .bol (First.seq (First.group (t := a.name) ?_ (First.seq (.lit _)
    (.rep hLength hDigits ?_))) (First.seq (.rep (Nat.zero_le _) ?_ ?_) (First.seq (.lit _)
    (First.seq (.rep (Nat.zero_le _) hBlanks ?_) (First.seq (First.group rfl
    (.rep (Nat.zero_le _) hRest ?_)) .eol)))))⟩
  · rw [name, List.append_assoc]
  · rintro _ ⟨⟩
    decide
  · exact List.all_eq_true.mp rfl
  · rintro _ ⟨⟩
    decide
  · rw [List.append_nil]
    exact dropWhile_head
  · rintro _ ⟨⟩

/-- The entry of an array: its name, and nothing of the line below. -/
def entry : RaidArray := mdstatArray a.name (lstrip (rstrip (' ' :: a.headerRest)))

theorem arrayOf_header : arrayOf a.header = some a.entry := by
  have hLine : ∀ c ∈ rstrip (' ' :: a.headerRest), anyChar c = true := by
    intro c hc
    have hBreak : isLineBreak c = false := by
      apply a.isLine_header c
      rw [header_eq]
      exact List.mem_append_right _ (mem_of_mem_rstrip hc)
    by_contra h
    have hEq : c = '\n' := by simpa [anyChar] using h
    rw [hEq] at hBreak
    cases hBreak
  have hPersonalities : match? personalitiesRegex (strip a.header) = none := by
    apply not_match_of_lit
    rw [strip_header, name, List.append_assoc, List.append_assoc]
    rintro ⟨rest, hEq⟩
    cases hEq
  obtain ⟨before, hFirst⟩ := a.first_header hLine
  rw [arrayOf, hPersonalities, strip_header, hFirst.match?]
  rfl

theorem noRatio_entry : NoRatio (lstrip (rstrip (' ' :: a.headerRest))) :=
  ((a.noRatio_headerRest.cons (by decide)).of_front (prefix_rstrip _)).of_suffix
    (List.dropWhile_suffix _)

end KernelArray

theorem mdstatArray_of_noRatio {name rest : Text} (h : NoRatio rest) :
    (mdstatArray name rest).name = name ∧ (mdstatArray name rest).state = none ∧
      (mdstatArray name rest).activeDisks = none ∧ (mdstatArray name rest).totalDisks = none := by
  rw [mdstatArray, search_statusRegex h]
  cases search recoveryRegex rest <;> exact ⟨rfl, rfl, rfl, rfl⟩

theorem not_prefix_of_first {c : Char} {t : Text} (hc : c ≠ 'm') (hs : isSpace c = false) :
    ¬"md".toList <+: strip (c :: t) := by
  have hLeft : lstrip (c :: t) = [c] ++ t := dropWhile_eq_self_of_head (by rintro _ ⟨⟩; exact hs)
  rw [strip, hLeft, rstrip_append _ (by rintro _ ⟨⟩; exact hs)]
  rintro ⟨rest, hEq⟩
  exact hc (List.cons.inj hEq).1.symm

theorem KernelArray.entry_eq (a : KernelArray) : a.entry.name = a.name ∧ a.entry.state = none ∧
    a.entry.activeDisks = none ∧ a.entry.totalDisks = none :=
  mdstatArray_of_noRatio a.noRatio_entry

namespace KernelArray

variable (a : KernelArray)

/-- The line with the counts and the bitmap is no header line. -/
theorem arrayOf_status : arrayOf a.status = none := by
  obtain ⟨c, digits, hBlocks⟩ := List.exists_cons_of_ne_nil (natText_ne_nil a.blocks)
  have hc : c.isDigit = true := isDigit_of_mem_natText (hBlocks ▸ List.mem_cons_self)
  have hSpace : isSpace c = false := isSpace_of_isDigit hc
  have hStrip : strip a.status = strip (c :: (digits ++ (" blocks".toList ++ a.counts))) := by
    unfold status
    rw [hBlocks, List.cons_append, strip, strip]
    exact congrArg rstrip (List.dropWhile_append_of_pos (List.all_eq_true.mp rfl))
  apply arrayOf_eq_none
  rw [hStrip]
  refine not_prefix_of_first ?_ hSpace
  rintro rfl
  cases hc

theorem arrayOf_lines : a.lines.filterMap arrayOf = [a.entry] := by
  have hMore : (a.more.map OtherLine.text).filterMap arrayOf = [] := by
    refine List.filterMap_eq_nil_iff.mpr fun line hLine => ?_
    obtain ⟨other, -, rfl⟩ := List.mem_map.mp hLine
    exact arrayOf_eq_none other.noHeader
  rw [lines, List.filterMap_cons_some a.arrayOf_header, List.filterMap_cons_none a.arrayOf_status,
    hMore]

end KernelArray

/-! ## The whole text -/

/-- Every array gives one entry, in order. -/
theorem arrays_parseMdstat (k : KernelText) :
    (parseMdstat k.text).arrays = k.arrays.map KernelArray.entry := by
  have hFirst : arrayOf k.personalitiesLine = none :=
    arrayOf_eq_none (not_prefix_of_first (by decide) (by decide))
  have hLast : arrayOf ("unused devices: ".toList ++ k.unused.text) = none :=
    arrayOf_eq_none (not_prefix_of_first (by decide) (by decide))
  have hArrays : ∀ arrays : List KernelArray,
      (arrays.flatMap KernelArray.lines).filterMap arrayOf = arrays.map KernelArray.entry := by
    intro arrays
    induction arrays with
    | nil => rfl
    | cons a rest ih =>
      rw [List.flatMap_cons, List.filterMap_append, a.arrayOf_lines, ih]
      rfl
  rw [parseMdstat, KernelText.text,
    splitlines_flatMap fun _ => KernelText.isLine_of_mem_lines, arrays_foldl, List.nil_append,
    KernelText.lines, List.filterMap_append, List.filterMap_cons_none hFirst, hArrays,
    List.filterMap_cons_none hLast, List.filterMap_nil, List.append_nil]

/-- The state of an array is carried over: bitmap, working devices, configured devices. -/
def CarriesState (arr : RaidArray) (a : KernelArray) : Prop :=
  arr.name = a.name ∧ arr.state = some a.bitmap ∧ arr.activeDisks = some a.working ∧
    arr.totalDisks = some a.devices.length

/-- The detector opens an event for each degraded array and closes the one of each other. -/
def ReportsDegraded (k : KernelText) (mdraid : Mdraid) : Prop :=
  ∀ (env : Environment) (server : Server) (events : Table AlertEvent), ∀ a ∈ k.arrays,
    let events' := detectRaid env server (some mdraid) events
    ('_' ∈ a.bitmap → (openEvent events' "RAID_DEGRADED" server.id a.name).isSome = true) ∧
      ('_' ∉ a.bitmap → ∀ ev, openEvent events "RAID_DEGRADED" server.id a.name = some ev →
        ∃ ev' ∈ events'.rows, ev'.id = ev.id ∧ ev'.isOpen = false)

theorem not_carriesState_entry (a : KernelArray) : ¬CarriesState a.entry a := by
  rintro ⟨-, hState, -⟩
  obtain ⟨-, hNone, -⟩ := a.entry_eq
  rw [hNone] at hState
  cases hState

theorem not_raidDegraded_entry (a : KernelArray) : raidDegraded a.entry = false := by
  obtain ⟨-, hState, hActive, -⟩ := a.entry_eq
  rw [raidDegraded, hState, hActive]
  rfl

/-- The detector opens no event for what the parser returns. -/
theorem isOpen_of_detectRaid (k : KernelText) {env : Environment} {server : Server}
    {events : Table AlertEvent} {ev : AlertEvent}
    (h : ev ∈ (detectRaid env server (some (parseMdstat k.text)) events).rows)
    (hOpen : ev.isOpen = true) : ev ∈ events.rows := by
  change ev ∈ ((parseMdstat k.text).arrays.foldl (detectRaidArray env server) events).rows at h
  rw [arrays_parseMdstat] at h
  generalize k.arrays = arrays at h
  induction arrays generalizing events with
  | nil => exact h
  | cons a rest ih =>
    rw [List.map_cons, List.foldl_cons, detectRaidArray, not_raidDegraded_entry] at h
    exact isOpen_of_recover (ih h) hOpen

/-- The states are carried over and the degraded arrays reported exactly when there is no
array. -/
theorem mdstat_faithful_iff (k : KernelText) :
    (List.Forall₂ CarriesState (parseMdstat k.text).arrays k.arrays ∧
      ReportsDegraded k (parseMdstat k.text)) ↔ k.arrays = [] := by
  rw [arrays_parseMdstat]
  constructor
  · rintro ⟨hStates, -⟩
    cases hArrays : k.arrays with
    | nil => rfl
    | cons a rest =>
      rw [hArrays, List.map_cons] at hStates
      cases hStates with
      | cons hHead _ => exact absurd hHead (not_carriesState_entry a)
  · intro hArrays
    refine ⟨by rw [hArrays]; exact .nil, ?_⟩
    intro env server events a ha
    rw [hArrays] at ha
    cases ha

/-- A mirror with one of its two disks missing. -/
def degradedMirror : KernelText where
  personalities := [⟨"raid1", by decide, by decide⟩]
  arrays := [{
    minor := 0
    state := ⟨"active", by decide, by decide⟩
    level := ⟨"raid1", by decide, by decide⟩
    members := [⟨⟨"sda1", by decide, by decide⟩, 0, []⟩]
    blocks := 1953382464
    working := 1
    devices := [true, false]
    info := " super 1.2"
    isLine_info := by decide
    tail := []
    isLine_tail := by decide
    more := [⟨"      ", by decide, by decide⟩] }]
  unused := ⟨"<none>", by decide, by decide⟩

theorem degradedMirror_unreported :
    degradedMirror.text = ("Personalities : [raid1] \nmd0 : active raid1 sda1[0]\n".toList ++
      "      1953382464 blocks super 1.2 [2/1] [U_]\n      \nunused devices: <none>\n".toList) ∧
    ¬(List.Forall₂ CarriesState (parseMdstat degradedMirror.text).arrays degradedMirror.arrays ∧
      ReportsDegraded degradedMirror (parseMdstat degradedMirror.text)) := by
  refine ⟨by decide +kernel, ?_⟩
  rw [arrays_parseMdstat]
  rintro ⟨hStates, -⟩
  cases hStates with
  | cons hHead _ => exact not_carriesState_entry _ hHead

end GpuMon.Mdstat

import GpuMon.Collector.Text

/-!
# The marker protocol (`remote_scripts.py`, `ssh_collector.py`)

The scripts print a marker line and then the lines of its section; `_split_sections` is the
inverse.

* `splitSections_printed`: every section comes back as it was printed, in its place.
* `textOf_fastSections`: so a parser of a poll is handed the lines of its section.
-/

namespace GpuMon.Collector

open PyText

/-! ## What a script prints -/

/-- A line of a section: one line, and no marker. -/
def IsContent (line : Text) : Prop := IsLine line ∧ sectionName? line = none

instance (line : Text) : Decidable (IsContent line) := instDecidableAnd

/-- A section of a script. -/
structure Section where
  name : Text
  lines : List Text
  name_ne_nil : name ≠ []
  name_chars : name.all isSectionChar = true
  content : ∀ line ∈ lines, IsContent line

/-- `==NAME==`. -/
def marker (name : Text) : Text := ['=', '='] ++ name ++ ['=', '=']

/-- `echo` and the like: each line with its newline. -/
def printLines (lines : List Text) : Text := lines.flatMap fun line => line ++ ['\n']

def Section.printed (s : Section) : List Text := marker s.name :: s.lines

def printSections (sections : List Section) : Text :=
  printLines (sections.flatMap Section.printed)

/-- The text in front of a marker line: whole lines, none of them a marker, and the blanks that
the marker line begins with. -/
def IsNoise (noise : Text) : Prop :=
  ∃ front blank, noise = front ++ blank ∧ (∀ c ∈ front.getLast?, isLineBreak c = true) ∧
    (∀ line ∈ splitlines front, sectionName? line = none) ∧
    IsLine blank ∧ ∀ c ∈ blank, isSpace c = true

/-! ## Markers -/

theorem isSpace_of_isSectionChar {c : Char} (h : isSectionChar c = true) : isSpace c = false := by
  simp only [isSectionChar, Bool.or_eq_true, decide_eq_true_eq] at h
  rcases h with (hUpper | hDigit) | rfl
  · obtain ⟨hLow, hHigh⟩ : 'A'.val ≤ c.val ∧ c.val ≤ 'Z'.val := of_decide_eq_true hUpper
    have hRange : 65 ≤ c.toNat ∧ c.toNat ≤ 90 :=
      ⟨UInt32.le_iff_toNat_le.mp hLow, UInt32.le_iff_toNat_le.mp hHigh⟩
    simp only [isSpace, Bool.or_eq_false_iff, Bool.and_eq_false_iff, decide_eq_false_iff_not,
      beq_eq_false_iff_ne]
    omega
  · exact isSpace_of_isDigit hDigit
  · rfl

theorem isLineBreak_of_not_isSpace {c : Char} (h : isSpace c = false) : isLineBreak c = false := by
  simp only [isSpace, isLineBreak, Bool.or_eq_false_iff, Bool.and_eq_false_iff,
    decide_eq_false_iff_not, beq_eq_false_iff_ne] at h ⊢
  omega

theorem isTrimmed_marker (name : Text) : IsTrimmed (marker name) := by
  refine ⟨?_, fun c hc => ?_⟩
  · rintro c ⟨⟩
    rfl
  · rw [marker, List.getLast?_append_of_ne_nil _ (by simp)] at hc
    cases hc
    rfl

theorem isLine_marker (s : Section) : IsLine (marker s.name) := by
  refine isLine_append (isLine_append (by decide) fun c hc => ?_) (by decide)
  exact isLineBreak_of_not_isSpace (isSpace_of_isSectionChar (List.all_eq_true.mp s.name_chars c hc))

/-- A marker line is read, whatever blanks it begins with. -/
theorem sectionName?_marker (s : Section) {blank : Text} (h : ∀ c ∈ blank, isSpace c = true) :
    sectionName? (blank ++ marker s.name) = some s.name := by
  have hLeft : lstrip (blank ++ marker s.name) = lstrip (marker s.name) :=
    List.dropWhile_append_of_pos h
  have hStrip : strip (blank ++ marker s.name) = marker s.name := by
    rw [strip, hLeft]
    exact strip_eq_self (isTrimmed_marker s.name)
  have hName : ((marker s.name).drop 2).dropLast.dropLast = s.name := by
    simp [marker, List.dropLast_append_of_ne_nil]
  rw [sectionName?, hStrip, hName]
  exact if_pos ⟨rfl, s.name_ne_nil, s.name_chars⟩

/-! ## The loop over the lines -/

theorem foldl_noise {lines : List Text} (h : ∀ line ∈ lines, sectionName? line = none)
    (d : Dict Text (List Text)) : lines.foldl sectionLine (none, d) = (none, d) := by
  induction lines with
  | nil => rfl
  | cons line rest ih =>
    rw [List.foldl_cons, sectionLine, h line List.mem_cons_self]
    exact ih fun l hl => h l (List.mem_cons_of_mem line hl)

/-- The lines of a section are added to what it has so far. -/
theorem foldl_content {lines : List Text} (h : ∀ line ∈ lines, sectionName? line = none)
    (name : Text) (d : Dict Text (List Text)) (done : List Text) :
    lines.foldl sectionLine (some name, d.set name done) =
      (some name, d.set name (done ++ lines)) := by
  induction lines generalizing done with
  | nil => rw [List.append_nil]; rfl
  | cons line rest ih =>
    have hLine : sectionLine (some name, d.set name done) line =
        (some name, d.set name (done ++ [line])) := by
      rw [sectionLine, h line List.mem_cons_self]
      simp [Dict.set_set]
    rw [List.foldl_cons, hLine, ih fun l hl => h l (List.mem_cons_of_mem line hl),
      List.append_assoc, List.singleton_append]

/-- A section is set, whatever was open before. -/
theorem foldl_section (s : Section) (blank : Text) (hBlank : ∀ c ∈ blank, isSpace c = true)
    (current : Option Text) (d : Dict Text (List Text)) :
    ((blank ++ marker s.name) :: s.lines).foldl sectionLine (current, d) =
      (some s.name, d.set s.name s.lines) := by
  have hMarker : sectionLine (current, d) (blank ++ marker s.name) =
      (some s.name, d.set s.name []) := by
    rw [sectionLine, sectionName?_marker s hBlank]
  rw [List.foldl_cons, hMarker, foldl_content (fun line hLine => (s.content line hLine).2),
    List.nil_append]

/-- Sections whose names are new are put last, in their order. -/
theorem foldl_sections {sections : List Section} (hNames : (sections.map Section.name).Nodup)
    (current : Option Text) {d : Dict Text (List Text)}
    (hNew : ∀ s ∈ sections, s.name ∉ d.keys) :
    ((sections.flatMap Section.printed).foldl sectionLine (current, d)).2.entries =
      d.entries ++ sections.map fun s => (s.name, s.lines) := by
  induction sections generalizing current d with
  | nil => simp
  | cons s rest ih =>
    rw [List.map_cons, List.nodup_cons] at hNames
    have hSet : (d.set s.name s.lines).entries = d.entries ++ [(s.name, s.lines)] :=
      Dict.setEntries_of_notMem s.lines (hNew s List.mem_cons_self)
    have hSection := foldl_section s [] (by simp) current d
    rw [List.flatMap_cons, List.foldl_append]
    rw [List.nil_append] at hSection
    rw [Section.printed, hSection, ih hNames.2 (some s.name) fun t ht => ?_, hSet,
      List.append_assoc, List.map_cons, List.singleton_append]
    rw [Dict.keys, hSet, List.map_append, List.mem_append, not_or]
    refine ⟨hNew t (List.mem_cons_of_mem s ht), ?_⟩
    rw [List.map_singleton, List.mem_singleton]
    exact fun hSame : t.name = s.name => hNames.1 (hSame ▸ List.mem_map_of_mem ht)

theorem head?_ne_newline {line : Text} (h : IsLine line) : line.head? ≠ some '\n' := by
  intro hHead
  obtain ⟨rest, rfl⟩ := List.head?_eq_some_iff.mp hHead
  exact absurd (h '\n' List.mem_cons_self) (by decide)

theorem sectionName?_blank {blank : Text} (h : ∀ c ∈ blank, isSpace c = true) :
    sectionName? blank = none := by
  rw [sectionName?, strip_eq_nil_iff.mpr h]
  rfl

/-! ## The whole output -/

/-- The lines of the output, noise in front. -/
theorem splitlines_printed {front blank : Text}
    (hFront : ∀ c ∈ front.getLast?, isLineBreak c = true) (hBlank : IsLine blank) (s : Section)
    (rest : List Section) : splitlines (front ++ blank ++ printSections (s :: rest)) =
      splitlines front ++ ((blank ++ marker s.name) :: s.lines) ++
        rest.flatMap Section.printed := by
  have hText : blank ++ printSections (s :: rest) =
      (blank ++ marker s.name) ++ '\n' ::
        printLines (s.lines ++ rest.flatMap Section.printed) := by
    simp [printSections, Section.printed, printLines]
  have hLine : IsLine (blank ++ marker s.name) := isLine_append hBlank (isLine_marker s)
  have hLines : ∀ line ∈ s.lines ++ rest.flatMap Section.printed, IsLine line := by
    intro line hMem
    rcases List.mem_append.mp hMem with hMem | hMem
    · exact (s.content line hMem).1
    · obtain ⟨t, -, hMem⟩ := List.mem_flatMap.mp hMem
      rcases List.mem_cons.mp hMem with rfl | hMem
      · exact isLine_marker t
      · exact (t.content line hMem).1
  have hHead : (blank ++ printSections (s :: rest)).head? ≠ some '\n' := by
    rw [hText, List.head?_append_of_ne_nil _ (by simp [marker])]
    exact head?_ne_newline hLine
  rw [List.append_assoc, splitlines_append hFront hHead, hText, splitlines_append_newline hLine,
    printLines, splitlines_flatMap hLines, List.append_assoc, List.cons_append]

theorem foldl_printed {noise : Text} (hNoise : IsNoise noise) {sections : List Section}
    (hNames : (sections.map Section.name).Nodup) :
    ((splitlines (noise ++ printSections sections)).foldl sectionLine (none, .empty)).2.entries =
      sections.map fun s => (s.name, s.lines) := by
  obtain ⟨front, blank, rfl, hFront, hLines, hLine, hBlank⟩ := hNoise
  cases sections with
  | nil =>
    have hNone : ∀ line ∈ splitlines (front ++ blank), sectionName? line = none := by
      intro line hMem
      rw [splitlines_append hFront (head?_ne_newline hLine)] at hMem
      refine (List.mem_append.mp hMem).elim (hLines line) fun hMem => ?_
      by_cases hEmpty : blank = []
      · rw [hEmpty] at hMem
        cases hMem
      · rw [splitlines_line hLine hEmpty, List.mem_singleton] at hMem
        rw [hMem]
        exact sectionName?_blank hBlank
    have hText : front ++ blank ++ printSections [] = front ++ blank := List.append_nil _
    rw [hText, foldl_noise hNone]
    rfl
  | cons s rest =>
    have hSection := foldl_section s [] (by simp) none .empty
    have hPrinted := foldl_sections hNames none (d := .empty) (by simp [Dict.keys, Dict.empty])
    rw [splitlines_printed hFront hLine, List.append_assoc, List.foldl_append,
      foldl_noise hLines, List.foldl_append, foldl_section s blank hBlank]
    rw [List.flatMap_cons, List.foldl_append] at hPrinted
    rw [List.nil_append] at hSection
    rw [Section.printed, hSection] at hPrinted
    exact hPrinted

/-- What is printed between markers is what `_split_sections` finds under their names, in the
order of the sections. -/
theorem splitSections_printed {noise : Text} (hNoise : IsNoise noise) {sections : List Section}
    (hNames : (sections.map Section.name).Nodup) :
    (splitSections (noise ++ printSections sections)).entries =
      sections.map fun s => (s.name, join ['\n'] s.lines) := by
  rw [splitSections, Dict.entries_mapValues, foldl_printed hNoise hNames, List.map_map]
  rfl

/-- Noise, an empty section, and one with a blank line and blanks around its text. -/
theorem splitSections_two_sections :
    (splitSections ("motd\n  ==OS==\n==KERNEL==\n  6.1 \n\n" : Text)).entries =
      [(("OS" : Text), []), ("KERNEL", "  6.1 \n")] := by
  have hBreak : ∀ c ∈ ("motd\n" : Text).getLast?, isLineBreak c = true := by
    rintro c ⟨⟩
    rfl
  have hBlank : ∀ c ∈ ("  " : Text), isSpace c = true := List.all_eq_true.mp rfl
  have hNoise : IsNoise "motd\n  " :=
    ⟨"motd\n", "  ", rfl, hBreak, by decide, by decide, hBlank⟩
  let sections : List Section :=
    [⟨"OS", [], by decide, by decide, by decide⟩,
      ⟨"KERNEL", ["  6.1 ", ""], by decide, by decide, by decide⟩]
  have hNames : (sections.map Section.name).Nodup := by decide
  exact splitSections_printed hNoise hNames

theorem textOf_printed {noise : Text} (hNoise : IsNoise noise) {sections : List Section}
    (hNames : (sections.map Section.name).Nodup) {s : Section} (hs : s ∈ sections)
    (default : Text) :
    textOf (splitSections (noise ++ printSections sections)) s.name default =
      join ['\n'] s.lines := by
  have hEntry : (s.name, s.lines) ∈ ((splitlines (noise ++ printSections sections)).foldl
      sectionLine (none, .empty)).2.entries := by
    rw [foldl_printed hNoise hNames]
    exact List.mem_map_of_mem hs
  rw [textOf, splitSections, Dict.get?_mapValues, Dict.get?_of_mem hEntry, Option.map_some,
    Option.getD_some]

/-! ## The sections of the fast script -/

/-- The markers of `FAST_SCRIPT`, in their order. -/
def fastNames : List Text :=
  ["HOSTNAME", "OS", "KERNEL", "UPTIME", "BOOTID", "DATETIME", "LOADAVG", "CPUMODEL", "CPUCOUNT",
    "CPUFREQ", "CPUTEMP", "CPUSTAT1", "DISKSTATS1", "NETDEV1", "NETLINK1", "CPUSTAT2",
    "DISKSTATS2", "NETDEV2", "NETLINK2", "MEMINFO", "DF", "DFI", "GPU", "GPUHEALTH", "GPUCLOCK",
    "GPUAPPS", "GPUAPPNAME", "PS", "SOCKETS", "FDNR", "PIDMAX", "KLOG"]

theorem fastNames_nodup : fastNames.Nodup := by decide

theorem fastNames_valid : ∀ name ∈ fastNames, name ≠ [] ∧ name.all isSectionChar = true := by
  decide

/-- The sections of a poll, by what the commands of the script print. -/
def fastSections (lines : Text → List Text) (h : ∀ name, ∀ line ∈ lines name, IsContent line) :
    List Section :=
  fastNames.pmap (fun name hName =>
    { name, lines := lines name, name_ne_nil := hName.1, name_chars := hName.2, content := h name })
    fastNames_valid

/-- Each parser of `_parse_fast_output` gets the lines that the command of its section printed. -/
theorem textOf_fastSections {noise : Text} (hNoise : IsNoise noise) (lines : Text → List Text)
    (h : ∀ name, ∀ line ∈ lines name, IsContent line) {name : Text} (hName : name ∈ fastNames)
    (default : Text) :
    textOf (splitSections (noise ++ printSections (fastSections lines h))) name default =
      join ['\n'] (lines name) := by
  have hNames : (fastSections lines h).map Section.name = fastNames := by
    rw [fastSections, List.map_pmap, List.pmap_eq_map, List.map_id']
  have hSection : ∃ s ∈ fastSections lines h, s.name = name ∧ s.lines = lines name :=
    ⟨_, List.mem_pmap.mpr ⟨name, hName, rfl⟩, rfl, rfl⟩
  obtain ⟨s, hs, rfl, hLines⟩ := hSection
  rw [textOf_printed hNoise (hNames ▸ fastNames_nodup) hs, hLines]

end GpuMon.Collector

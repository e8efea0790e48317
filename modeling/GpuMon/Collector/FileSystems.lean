import GpuMon.Collector.Text

/-!
# The tables of `df` (`ssh_collector.py`)

* `isSome_parseDf`: the space is read without an exception.
* `isSome_parseDfi_iff`: the inodes of a mount are integers, and an infinite number is none.
-/

namespace GpuMon.Collector

open PyText PyFloat BatchLoop

/-! ## File systems -/

/-- `_PSEUDO_FS.match(fs)`. -/
def isPseudoFs (fs : Text) : Bool :=
  ([("tmpfs" : Text), "devtmpfs", "squashfs", "udev", "none", "shm", "loop", "nsfs", "tracefs",
    "debugfs", "configfs", "fusectl", "fuse.", "hugetlbfs", "mqueue", "pstore", "securityfs",
    "bpf", "cgroup", "autofs", "efivarfs", "binfmt_misc", "rpc_"]).any fun head =>
      startsWith fs head

/-- The lines after the header, without those that are blank. -/
def tableRows (text : Text) : List Text :=
  ((splitlines text).filter fun line => strip line ≠ []).drop 1

structure DiskUse where
  mount : Text
  device : Text
  totalGb : PyFloat
  usedGb : PyFloat
  percent : PyFloat

def dfLine (s : List DiskUse × List Text) (line : Text) : Option (List DiskUse × List Text) :=
  let parts := splitSpace 5 line
  if parts.length < 6 then some s
  else do
    let fs ← parts[0]?
    let totalKb ← parts[1]?
    let usedKb ← parts[2]?
    let mount ← parts[5]?
    if isPseudoFs fs ∨ startsWith mount "/snap" then some s
    else if mount ∈ s.2 then some s
    else
      let seen := s.2 ++ [mount]
      let totalGb := divBy 1024 (divBy 1024 (toFloat totalKb))
      let usedGb := divBy 1024 (divBy 1024 (toFloat usedKb))
      if le totalGb 0 then some (s.1, seen)
      else do
        let share ← div? usedGb totalGb
        some (s.1 ++
          [{ mount, device := fs, totalGb := roundDigits 1 totalGb, usedGb := roundDigits 1 usedGb,
             percent := roundDigits 1 (mul share (finite 100)) }], seen)

/-- `_parse_df`. -/
def parseDf (text : Text) : Option (List DiskUse) := do
  let (disks, _) ← (tableRows text).foldlM dfLine ([], [])
  some (disks.insertionSort fun a b => a.mount ≤ b.mount)

structure InodeUse where
  mount : Text
  inodesTotal : Int
  inodesUsed : Int
  inodesPercent : PyFloat

/-- The entry of a row with inodes. -/
def inodeUse? (mount itotal iused : Text) : Option InodeUse := do
  let share ← div? (toFloat iused) (toFloat itotal)
  some
    { mount, inodesTotal := ← toInt? itotal, inodesUsed := ← toInt? iused,
      inodesPercent := roundDigits 1 (mul share (finite 100)) }

def dfiLine (s : List InodeUse × List Text) (line : Text) : Option (List InodeUse × List Text) :=
  let parts := splitSpace 5 line
  if parts.length < 6 then some s
  else do
    let fs ← parts[0]?
    let itotal ← parts[1]?
    let iused ← parts[2]?
    let mount ← parts[5]?
    if mount ∈ s.2 ∨ isPseudoFs fs then some s
    else
      let seen := s.2 ++ [mount]
      if le (toFloat itotal) 0 then some (s.1, seen)
      else (inodeUse? mount itotal iused).map fun use => (s.1 ++ [use], seen)

/-- `_parse_dfi`. -/
def parseDfi (text : Text) : Option (List InodeUse) := do
  let (inodes, _) ← (tableRows text).foldlM dfiLine ([], [])
  some (inodes.insertionSort fun a b => a.mount ≤ b.mount)

/-! ## Space -/

theorem isSome_parseDf (text : Text) : (parseDf text).isSome = true := by
  have hLine : ∀ s line, (dfLine s line).isSome = true := by
    intro s line
    rw [dfLine]
    split
    · rfl
    · simp (disch := omega) only [List.getElem?_eq_getElem, Option.bind_eq_bind, Option.bind_some]
      split
      · rfl
      · split
        · rfl
        · split
          · rfl
          · rename_i hTotal
            obtain ⟨share, hShare⟩ := Option.isSome_iff_exists.mp
              (isSome_div? (ne_zero_of_not_le (Bool.eq_false_of_not_eq_true hTotal)) _)
            rw [hShare]
            rfl
  obtain ⟨⟨disks, seen⟩, hLoop⟩ :=
    Option.isSome_iff_exists.mp (isSome_foldlM hLine (tableRows text) ([], []))
  rw [parseDf, hLoop]
  rfl

/-! ## Inodes -/

/-- Mount, total and used inodes of a row that is no pseudo file system. -/
def inodeRow? (line : Text) : Option (Text × Text × Text) :=
  match splitSpace 5 line with
  | fs :: itotal :: iused :: _ :: _ :: mount :: _ =>
    if isPseudoFs fs then none else some (mount, itotal, iused)
  | _ => none

/-- A table with inodes has finite numbers of them. -/
def InodesCount (row : Text × Text × Text) : Prop :=
  le (toFloat row.2.1) 0 = false → IsNumber row.2.1 ∧ IsNumber row.2.2

/-- The first row of each mount that was not seen before. -/
def InodesReadable (seen : List Text) (rows : List (Text × Text × Text)) : Prop :=
  ∀ front row rest, rows = front ++ row :: rest → row.1 ∉ seen ++ front.map Prod.fst →
    InodesCount row

theorem inodesReadable_cons_iff {seen : List Text} {row : Text × Text × Text}
    {rows : List (Text × Text × Text)} : InodesReadable seen (row :: rows) ↔
      (row.1 ∉ seen → InodesCount row) ∧ InodesReadable (seen ++ [row.1]) rows := by
  constructor
  · intro h
    refine ⟨fun hNew => h [] row rows rfl (by simpa using hNew), fun front r rest hSplit hNew => ?_⟩
    exact h (row :: front) r rest (by rw [hSplit]; rfl) (by simpa using hNew)
  · rintro ⟨hRow, hRows⟩ front r rest hSplit hNew
    cases front with
    | nil =>
      obtain ⟨rfl, -⟩ := List.cons.inj hSplit
      exact hRow (by simpa using hNew)
    | cons a front =>
      obtain ⟨rfl, hRest⟩ := List.cons.inj hSplit
      exact hRows front r rest hRest (by simpa using hNew)

theorem inodesReadable_of_mem {seen : List Text} {mount : Text} (h : mount ∈ seen)
    (rows : List (Text × Text × Text)) :
    InodesReadable (seen ++ [mount]) rows ↔ InodesReadable seen rows := by
  have hSame : ∀ m front, m ∉ seen ++ [mount] ++ front ↔ m ∉ seen ++ front := by
    intro m front
    simp only [List.mem_append, List.mem_singleton, not_or]
    constructor
    · rintro ⟨⟨hSeen, -⟩, hFront⟩
      exact ⟨hSeen, hFront⟩
    · rintro ⟨hSeen, hFront⟩
      exact ⟨⟨hSeen, fun hEq => hSeen (hEq ▸ h)⟩, hFront⟩
  simp only [InodesReadable, hSame]

theorem dfiLine_of_none {s : List InodeUse × List Text} {line : Text}
    (h : inodeRow? line = none) : dfiLine s line = some s := by
  unfold inodeRow? at h
  rw [dfiLine]
  split at h
  · rename_i fs itotal iused _ _ mount more hParts
    split at h
    · rename_i hPseudo
      simp [hParts, hPseudo]
    · cases h
  · rename_i hShort
    rw [if_pos]
    match hParts : splitSpace 5 line with
    | fs :: itotal :: iused :: a :: b :: mount :: more => exact (hShort _ _ _ _ _ _ _ hParts).elim
    | [] | [_] | [_, _] | [_, _, _] | [_, _, _, _] | [_, _, _, _, _] => simp

theorem dfiLine_of_some {s : List InodeUse × List Text} {line : Text} {row : Text × Text × Text}
    (h : inodeRow? line = some row) : dfiLine s line =
      if row.1 ∈ s.2 then some s
      else if le (toFloat row.2.1) 0 then some (s.1, s.2 ++ [row.1])
      else (inodeUse? row.1 row.2.1 row.2.2).map fun use => (s.1 ++ [use], s.2 ++ [row.1]) := by
  unfold inodeRow? at h
  split at h
  · rename_i fs itotal iused _ _ mount more hParts
    split at h
    · cases h
    · rename_i hPseudo
      cases h
      simp [dfiLine, hParts, hPseudo]
  · cases h

theorem isSome_dfiLine_iff {s : List InodeUse × List Text} {line : Text}
    {row : Text × Text × Text} (h : inodeRow? line = some row) (hNew : row.1 ∉ s.2) :
    (dfiLine s line).isSome = true ↔ InodesCount row := by
  rw [dfiLine_of_some h, if_neg hNew, InodesCount]
  split
  · rename_i hTotal
    simp [hTotal]
  · rename_i hTotal
    have hFalse := Bool.eq_false_of_not_eq_true hTotal
    obtain ⟨share, hShare⟩ := Option.isSome_iff_exists.mp
      (isSome_div? (ne_zero_of_not_le hFalse) (toFloat row.2.2))
    rw [Option.isSome_map, inodeUse?, hShare, ← isSome_toInt?, ← isSome_toInt?, hFalse]
    cases toInt? row.2.1 <;> cases toInt? row.2.2 <;> simp

theorem seen_dfiLine {s t : List InodeUse × List Text} {line : Text} {row : Text × Text × Text}
    (h : inodeRow? line = some row) (hNew : row.1 ∉ s.2) (hLine : dfiLine s line = some t) :
    t.2 = s.2 ++ [row.1] := by
  rw [dfiLine_of_some h, if_neg hNew] at hLine
  split at hLine
  · cases hLine
    rfl
  · obtain ⟨use, -, rfl⟩ := Option.map_eq_some_iff.mp hLine
    rfl

theorem isSome_dfiLines_iff (lines : List Text) (s : List InodeUse × List Text) :
    (lines.foldlM dfiLine s).isSome = true ↔
      InodesReadable s.2 (lines.filterMap inodeRow?) := by
  induction lines generalizing s with
  | nil =>
    refine iff_of_true rfl fun front row rest hSplit => ?_
    exact absurd hSplit (by simp)
  | cons line lines ih =>
    rw [List.foldlM_cons]
    cases hRow : inodeRow? line with
    | none =>
      rw [dfiLine_of_none hRow, Option.bind_eq_bind, Option.bind_some, ih,
        List.filterMap_cons_none hRow]
    | some row =>
      rw [List.filterMap_cons_some hRow, inodesReadable_cons_iff]
      by_cases hSeen : row.1 ∈ s.2
      · rw [dfiLine_of_some hRow, if_pos hSeen, Option.bind_eq_bind, Option.bind_some, ih,
          inodesReadable_of_mem hSeen]
        simp [hSeen]
      · rw [← isSome_dfiLine_iff hRow hSeen]
        simp only [hSeen, not_false_eq_true, true_implies]
        refine isSome_bind_of_forall fun t ht => ?_
        rw [ih, seen_dfiLine hRow hSeen ht]

theorem isSome_parseDfi_iff (text : Text) : (parseDfi text).isSome = true ↔
    InodesReadable [] ((tableRows text).filterMap inodeRow?) := by
  rw [parseDfi, ← isSome_dfiLines_iff (tableRows text) ([], [])]
  refine (isSome_bind_of_forall (P := True) fun s _ => ?_).trans (iff_of_eq (and_true _))
  simp

end GpuMon.Collector

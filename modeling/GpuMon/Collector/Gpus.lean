import GpuMon.Collector.Processes

/-!
# The GPU sections of a poll (`ssh_collector.py`)

The entries of the first query are completed from three more, found by the index or the uuid of
their card.

* `isSome_parseGpus_iff`, `isSome_mergeGpuHealth_iff`, ..: what makes the parsers raise.
-/

namespace GpuMon.Collector

open PyText PyFloat PyNum BatchLoop

/-! ## The parsers -/

/-- An entry of `processes`. -/
structure GpuApp where
  pid : Int
  memMb : PyFloat
  user : Text
  command : Text

/-- An entry of `gpus`; its processes are those of `_merge_gpu_apps`. -/
structure PolledGpu where
  gpu : Gpu PyFloat
  processes : List GpuApp := []

/-- `int(_gval(v))`. -/
def gint? (v : Text) : Option Int := (gval v).truncate?

def gpuLine (acc : List PolledGpu × Text) (line : Text) : Option (List PolledGpu × Text) :=
  let parts := splitComma (strip line)
  if strip line = [] ∨ parts.length < 12 then some acc
  else do
    let driver ← parts[11]?
    let index ← parts[0]?.bind gint?
    let gpu := GpuQuery.gpuEntry index (← parts[1]?) (← parts[2]?) (← parts[3]?) (← parts[4]?)
      (← parts[5]?) (← parts[6]?) (← parts[7]?) (← parts[8]?) (← parts[9]?) (← parts[10]?)
    some (acc.1 ++ [{ gpu := gpu }], driver)

/-- `_parse_gpus`: the cards, and the version of the driver. -/
def parseGpus (text : Text) : Option (List PolledGpu × Text) :=
  if strip text = [] ∨ contains "__NO_NVIDIA__" text then some ([], [])
  else (splitlines text).foldlM gpuLine ([], [])

/-- `int(x)` where a `ValueError` is caught and an `OverflowError` is not. -/
def caughtInt : PyFloat → Option (Option Int)
  | .finite x => some (some (truncate x))
  | .nan => some none
  | .infinite _ => none

/-- The entry that a dictionary built from the list has for a key: the last one with it. -/
def modifyLast {α : Type} (p : α → Bool) (f : α → α) : List α → List α
  | [] => []
  | a :: rest =>
    if rest.any p then a :: modifyLast p f rest
    else if p a then f a :: rest
    else a :: rest

def hasIndex (idx : Int) (g : PolledGpu) : Bool := g.gpu.index = some idx

/-- The digits of an integer in a base, with single underscores between them. -/
def digitsIn? (base : Nat) (digits : Text) : Option Int :=
  let groups := splitOn '_' digits
  let value (c : Char) : Nat :=
    if 'a' ≤ c.toLower ∧ c.toLower ≤ 'z' then c.toLower.toNat - 'a'.toNat + 10
    else (digitValue c).getD base
  if groups.all fun g => g ≠ [] && g.all fun c => value c < base then
    some (groups.flatten.foldl (fun n c => base * n + value c) 0 : Nat)
  else none

/-- `int(t, 0)`: the base is given by the letter after a leading zero; without one the number has
no leading zeros. -/
def intBase0? (t : Text) : Option Int :=
  let (negative, digits) := match strip t with
    | '-' :: digits => (true, digits)
    | '+' :: digits => (false, digits)
    | digits => (false, digits)
  let afterLetter (rest : Text) : Text := if rest.head? = some '_' then rest.tail else rest
  let magnitude := match digits with
    | '0' :: letter :: rest =>
      if letter.toLower = 'x' then digitsIn? 16 (afterLetter rest)
      else if letter.toLower = 'o' then digitsIn? 8 (afterLetter rest)
      else if letter.toLower = 'b' then digitsIn? 2 (afterLetter rest)
      else (int? digits).filter fun n => n = 0
    | digits => (int? digits).filter fun n => n = 0 || (digits.head?.bind digitValue) ≠ some 0
  magnitude.map fun n => if negative then -n else n

/-- `_THROTTLE_BITS`, by the place of the bit. -/
def throttleBits : List (Nat × Text) :=
  [(0, "GPU_IDLE"), (1, "APPLICATIONS_CLOCKS"), (2, "SW_POWER_CAP"), (3, "HW_SLOWDOWN"),
    (4, "SYNC_BOOST"), (5, "SW_THERMAL_SLOWDOWN"), (6, "HW_THERMAL_SLOWDOWN"),
    (7, "HW_POWER_BRAKE_SLOWDOWN")]

/-- `_throttle_reasons`. -/
def throttleReasons (bitmask : Text) : List Text :=
  match intBase0? bitmask with
  | none => []
  | some mask => (throttleBits.filter fun b => mask / 2 ^ b.1 % 2 = 1).map Prod.snd

/-- `_is_na`. -/
def isNa (v : Text) : Bool := lower (strip v) ∈ GpuQuery.notAvailable

/-- `int(_gval(parts[i]))`, as a number of the entry. -/
def intColumn (parts : List Text) (i : Nat) : Option PyFloat :=
  (parts[i]?.bind gint?).map fun n : Int => finite (n : ℚ)

/-- What a row writes into the entry of its card, the index left alone. -/
structure Change where
  apply : Gpu PyFloat → Gpu PyFloat
  index_eq : ∀ g, (apply g).index = g.index

/-- A row of `GPUHEALTH`. -/
def healthOf (parts : List Text) : Option Change := do
  let serial ← parts[1]?
  let pciBusId ← parts[2]?
  let memTemperature ← parts[3]?
  let throttleMask ← parts[4]?
  let eccMode ← parts[5]?
  let pstate ← parts[13]?
  let eccCorrectedVolatile ← intColumn parts 6
  let eccUncorrectedVolatile ← intColumn parts 7
  let eccCorrectedTotal ← intColumn parts 8
  let eccUncorrectedTotal ← intColumn parts 9
  let remappedPending ← intColumn parts 10
  let remappedFailure ← intColumn parts 11
  let retiredPending ← intColumn parts 12
  let pcieGenCurrent ← intColumn parts 14
  let pcieGenMax ← intColumn parts 15
  let pcieWidthCurrent ← intColumn parts 16
  let pcieWidthMax ← intColumn parts 17
  some
    { apply := fun g => { g with
        serial := some serial
        pciBusId := some pciBusId
        memTemperature := some (gval memTemperature)
        throttleMask := some throttleMask
        throttleReasons := throttleReasons throttleMask
        eccMode := some (if isNa eccMode then [] else eccMode)
        eccSupported := !isNa eccMode
        eccCorrectedVolatile := some eccCorrectedVolatile
        eccUncorrectedVolatile := some eccUncorrectedVolatile
        eccCorrectedTotal := some eccCorrectedTotal
        eccUncorrectedTotal := some eccUncorrectedTotal
        remappedPending := some remappedPending
        remappedFailure := some remappedFailure
        retiredPending := some retiredPending
        pstate := some pstate
        pcieGenCurrent := some pcieGenCurrent
        pcieGenMax := some pcieGenMax
        pcieWidthCurrent := some pcieWidthCurrent
        pcieWidthMax := some pcieWidthMax }
      index_eq := fun _ => rfl }

/-- A row of `GPUCLOCK`; the last columns may be missing. -/
def clocksOf (parts : List Text) : Option Change := do
  let graphics ← parts[1]?
  let memory ← parts[2]?
  let graphicsMax ← parts[3]?
  let memoryMax ← parts[4]?
  let encoder ← if 5 < parts.length then (intColumn parts 5).map some else some none
  some
    { apply := fun g => { g with
        clockGraphics := some (gval graphics)
        clockMemory := some (gval memory)
        clockGraphicsMax := some (gval graphicsMax)
        clockMemoryMax := some (gval memoryMax)
        encoderSessions := encoder.or g.encoderSessions
        computeMode := parts[6]?.or g.computeMode }
      index_eq := fun _ => rfl }

/-- A row that begins with the index of a card, of at least `columns` columns. -/
def mergeRow (columns : Nat) (update : List Text → Option Change)
    (gpus : List PolledGpu) (parts : List Text) : Option (List PolledGpu) :=
  if parts.length < columns then some gpus
  else do
    match ← caughtInt (gval (← parts[0]?)) with
    | none => some gpus
    | some idx =>
      if gpus.any (hasIndex idx) then do
        let change ← update parts
        some (modifyLast (hasIndex idx) (fun g => { g with gpu := change.apply g.gpu }) gpus)
      else some gpus

def healthLine (gpus : List PolledGpu) (line : Text) : Option (List PolledGpu) :=
  if strip line = [] then some gpus else mergeRow 18 healthOf gpus (splitComma (strip line))

/-- `_merge_gpu_health`. -/
def mergeGpuHealth (text : Text) (gpus : List PolledGpu) : Option (List PolledGpu) :=
  if strip text = [] then some gpus else (splitlines text).foldlM healthLine gpus

def clockLine (gpus : List PolledGpu) (line : Text) : Option (List PolledGpu) :=
  if strip line = [] ∨ contains "Field " (strip line) then some gpus
  else mergeRow 5 clocksOf gpus (splitComma (strip line))

/-- `_merge_gpu_clocks`. -/
def mergeGpuClocks (text : Text) (gpus : List PolledGpu) : Option (List PolledGpu) :=
  if strip text = [] then some gpus else (splitlines text).foldlM clockLine gpus

/-- The name is read before the number of its process. -/
def nameLine (names : Dict Int Text) (line : Text) : Option (Dict Int Text) :=
  let parts := splitComma (strip line)
  if strip line = [] ∨ parts.length < 2 then some names
  else do
    let name ← parts[1]?.bind executableName
    match ← caughtInt (toFloat (← parts[0]?)) with
    | none => some names
    | some pid => some (names.set pid name)

def appEntry (names : Dict Int Text) (psIndex : Dict Int Process) (pid : Int) (mem : Text) :
    GpuApp :=
  let process := psIndex.get? pid
  let name := match names.get? pid with
    | none | some [] => (process.map Process.command).getD []
    | some name => name
  { pid, memMb := gval mem, user := (process.map Process.user).getD [], command := name.take 80 }

def addApp (app : GpuApp) (g : PolledGpu) : PolledGpu :=
  { g with processes := g.processes ++ [app] }

def appLine (names : Dict Int Text) (psIndex : Dict Int Process) (gpus : List PolledGpu)
    (line : Text) : Option (List PolledGpu) :=
  let parts := splitComma (strip line)
  if strip line = [] ∨ parts.length < 3 then some gpus
  else do
    let uuid ← parts[0]?
    let pidText ← parts[1]?
    let mem ← parts.getLast?
    match ← caughtInt (toFloat pidText) with
    | none => some gpus
    | some pid =>
      let app := appEntry names psIndex pid mem
      let isTarget (g : PolledGpu) : Bool := g.gpu.uuid = some uuid
      some (if gpus.any isTarget then modifyLast isTarget (addApp app) gpus
        else gpus.modifyHead (addApp app))

/-- `_merge_gpu_apps`. -/
def mergeGpuApps (appsText namesText : Text) (gpus : List PolledGpu)
    (psIndex : Dict Int Process) : Option (List PolledGpu) := do
  let names ← (splitlines namesText).foldlM nameLine .empty
  (splitlines appsText).foldlM (appLine names psIndex) gpus

/-! ## What makes them raise -/

theorem isSome_gint?_iff {v : Text} : (gint? v).isSome = true ↔ (gval v).isFinite = true := by
  rw [gint?, isSome_truncate?]

theorem length_splitComma_blank {line : Text} (h : strip line = []) :
    (splitComma (strip line)).length = 1 := by
  rw [h]
  decide

/-- A row that is passed over has too few columns. -/
theorem length_lt_of_skipped {line : Text} {columns : Nat} (hColumns : 2 ≤ columns)
    (hSkip : strip line = [] ∨ (splitComma (strip line)).length < columns) :
    ¬columns ≤ (splitComma (strip line)).length := by
  rcases hSkip with hBlank | hShort
  · rw [length_splitComma_blank hBlank]
    omega
  · omega

/-- A row of twelve columns has a finite index. -/
def GpuReadable (line : Text) : Prop :=
  12 ≤ (splitComma (strip line)).length →
    ∀ index, (splitComma (strip line))[0]? = some index → (gval index).isFinite = true

theorem isSome_gpuLine_iff (acc : List PolledGpu × Text) (line : Text) :
    (gpuLine acc line).isSome = true ↔ GpuReadable line := by
  rw [gpuLine, GpuReadable]
  split
  · rename_i hSkip
    exact iff_of_true rfl fun hLength => absurd hLength (length_lt_of_skipped (by omega) hSkip)
  · rename_i hSkip
    have hLength : 12 ≤ (splitComma (strip line)).length := by
      rw [not_or, not_lt] at hSkip
      exact hSkip.2
    simp (disch := omega) only [List.getElem?_eq_getElem, Option.bind_eq_bind, Option.bind_some,
      hLength, true_implies, Option.some.injEq, forall_eq', ← isSome_gint?_iff]
    cases gint? (splitComma (strip line))[0] <;> simp

def GpusReadable (text : Text) : Prop :=
  strip text ≠ [] → contains "__NO_NVIDIA__" text = false →
    ∀ line ∈ splitlines text, GpuReadable line

theorem isSome_parseGpus_iff (text : Text) :
    (parseGpus text).isSome = true ↔ GpusReadable text := by
  rw [parseGpus, GpusReadable]
  split
  · rename_i hSkip
    refine iff_of_true rfl fun hText hNvidia => ?_
    rw [hNvidia] at hSkip
    exact (hSkip.elim hText Bool.false_ne_true).elim
  · rename_i hSkip
    simp only [not_or, Bool.not_eq_true] at hSkip
    simp only [hSkip.1, hSkip.2, not_false_eq_true, ne_eq, true_implies]
    exact isSome_foldlM_forall_iff isSome_gpuLine_iff _ _

/-- The cards of the entries. -/
def indices (gpus : List PolledGpu) : List Int := gpus.filterMap fun g => g.gpu.index

theorem indices_cons (g : PolledGpu) (rest : List PolledGpu) :
    indices (g :: rest) = g.gpu.index.toList ++ indices rest := by
  cases hIndex : g.gpu.index <;> simp [indices, hIndex]

/-- The card of a row, where there is one. -/
def cardOf? (line : Text) : Option Int :=
  if strip line = [] ∨ (splitComma (strip line)).length < 12 then none
  else (splitComma (strip line))[0]?.bind gint?

/-- The cards that the first query lists. -/
def knownCards (text : Text) : List Int :=
  if strip text = [] ∨ contains "__NO_NVIDIA__" text then []
  else (splitlines text).filterMap cardOf?

theorem indices_gpuLine {acc next : List PolledGpu × Text} {line : Text}
    (h : gpuLine acc line = some next) :
    indices next.1 = indices acc.1 ++ (cardOf? line).toList := by
  rw [gpuLine] at h
  rw [cardOf?]
  split at h
  · rename_i hSkip
    cases h
    rw [if_pos hSkip, Option.toList_none, List.append_nil]
  · rename_i hSkip
    rw [if_neg hSkip]
    obtain ⟨driver, -, h⟩ := Option.bind_eq_some_iff.mp h
    obtain ⟨index, hIndex, h⟩ := Option.bind_eq_some_iff.mp h
    rw [hIndex, Option.toList_some]
    iterate 10 obtain ⟨_, -, h⟩ := Option.bind_eq_some_iff.mp h
    cases h
    rw [indices, List.filterMap_append]
    rfl

theorem indices_parseGpus {text driver : Text} {gpus : List PolledGpu}
    (h : parseGpus text = some (gpus, driver)) : indices gpus = knownCards text := by
  rw [parseGpus] at h
  rw [knownCards]
  split at h
  · rename_i hSkip
    cases h
    rw [if_pos hSkip]
    rfl
  · rename_i hSkip
    rw [if_neg hSkip]
    have hLoop : ∀ (lines : List Text) (acc next : List PolledGpu × Text),
        lines.foldlM gpuLine acc = some next →
          indices next.1 = indices acc.1 ++ lines.filterMap cardOf? := by
      intro lines
      induction lines with
      | nil =>
        rintro acc next ⟨⟩
        simp
      | cons line lines ih =>
        intro acc next h
        rw [List.foldlM_cons, Option.bind_eq_bind, Option.bind_eq_some_iff] at h
        obtain ⟨middle, hLine, hRest⟩ := h
        rw [ih middle next hRest, indices_gpuLine hLine, List.append_assoc]
        cases hCard : cardOf? line <;> simp [hCard]
    exact hLoop _ _ _ h

theorem isSome_caughtInt_iff {x : PyFloat} :
    (caughtInt x).isSome = true ↔ ∀ negative, x ≠ .infinite negative := by
  cases x <;> simp [caughtInt]

theorem any_hasIndex_iff {gpus : List PolledGpu} {idx : Int} :
    gpus.any (hasIndex idx) = true ↔ idx ∈ indices gpus := by
  simp [hasIndex, indices, List.any_eq_true]

theorem indices_modifyLast {p : PolledGpu → Bool} {f : PolledGpu → PolledGpu}
    (hf : ∀ g, (f g).gpu.index = g.gpu.index) (gpus : List PolledGpu) :
    indices (modifyLast p f gpus) = indices gpus := by
  induction gpus with
  | nil => rfl
  | cons g rest ih =>
    rw [modifyLast]
    split
    · rw [indices_cons, ih, indices_cons]
    · split
      · rw [indices_cons, hf, indices_cons]
      · rfl

theorem indices_mergeRow {columns : Nat} {update : List Text → Option Change}
    {gpus next : List PolledGpu} {parts : List Text}
    (h : mergeRow columns update gpus parts = some next) : indices next = indices gpus := by
  rw [mergeRow] at h
  split at h
  · cases h
    rfl
  · simp only [Option.bind_eq_bind, Option.bind_eq_some_iff] at h
    obtain ⟨first, -, found, -, h⟩ := h
    split at h
    · cases h
      rfl
    · split at h
      · obtain ⟨change, -, h⟩ := Option.bind_eq_some_iff.mp h
        cases h
        exact indices_modifyLast (fun g => change.index_eq g.gpu) gpus
      · cases h
        rfl

/-- A row of so many columns has no infinite index, and finite numbers in the columns of a card
that is known. -/
def RowReadable (cards : List Int) (columns : Nat) (numbers : List Nat)
    (parts : List Text) : Prop :=
  columns ≤ parts.length → ∀ first, parts[0]? = some first →
    (∀ negative, gval first ≠ .infinite negative) ∧
      ∀ x, gval first = .finite x → truncate x ∈ cards →
        ∀ i ∈ numbers, ∀ v, parts[i]? = some v → (gval v).isFinite = true

theorem isSome_mergeRow_iff {columns : Nat} (hColumns : 0 < columns)
    {update : List Text → Option Change} {numbers : List Nat} {parts : List Text}
    (hUpdate : columns ≤ parts.length → ((update parts).isSome = true ↔
      ∀ i ∈ numbers, ∀ v, parts[i]? = some v → (gval v).isFinite = true)) (gpus : List PolledGpu) :
    (mergeRow columns update gpus parts).isSome = true ↔
      RowReadable (indices gpus) columns numbers parts := by
  rw [mergeRow, RowReadable]
  split
  · rename_i hShort
    exact iff_of_true rfl fun hLength => absurd hLength (by omega)
  · rename_i hShort
    rw [not_lt] at hShort
    rw [List.getElem?_eq_getElem (by omega)]
    simp only [hShort, true_implies, Option.bind_eq_bind, Option.bind_some, Option.some.injEq,
      forall_eq']
    rw [← hUpdate hShort]
    cases hFirst : gval parts[0] with
    | infinite negative => simp [caughtInt]
    | nan => simp [caughtInt]
    | finite x =>
      simp only [caughtInt, Option.bind_some, ne_eq, reduceCtorEq, not_false_eq_true,
        implies_true, true_and, PyFloat.finite.injEq, forall_eq', ← any_hasIndex_iff]
      split
      · rename_i hKnown
        simp only [hKnown, true_implies]
        cases update parts <;> simp
      · rename_i hKnown
        simp [hKnown]

/-- The columns of `GPUHEALTH` that are read as integers. -/
def healthColumns : List Nat := [6, 7, 8, 9, 10, 11, 12, 14, 15, 16, 17]

theorem isSome_intColumn_iff {parts : List Text} {i : Nat} (h : i < parts.length) :
    (intColumn parts i).isSome = true ↔ ∀ v, parts[i]? = some v → (gval v).isFinite = true := by
  rw [intColumn, List.getElem?_eq_getElem h, Option.bind_some, Option.isSome_map, isSome_gint?_iff]
  simp

theorem isSome_healthOf_iff {parts : List Text} (h : 18 ≤ parts.length) :
    (healthOf parts).isSome = true ↔
      ∀ i ∈ healthColumns, ∀ v, parts[i]? = some v → (gval v).isFinite = true := by
  have hColumns : (∀ i ∈ healthColumns, ∀ v, parts[i]? = some v → (gval v).isFinite = true) ↔
      ∀ i ∈ healthColumns, (intColumn parts i).isSome = true := by
    refine forall₂_congr fun i hi => (isSome_intColumn_iff ?_).symm
    have hBound : ∀ i ∈ healthColumns, i < 18 := by decide
    exact (hBound i hi).trans_le h
  rw [hColumns]
  simp only [healthColumns, List.forall_mem_cons, List.not_mem_nil, false_implies, implies_true]
  have hText : ∀ i < 18, (parts[i]?).isSome = true := fun i hi => by
    rw [List.getElem?_eq_getElem (hi.trans_le h)]
    rfl
  rw [healthOf]
  -- the six columns that are texts, and then the integers
  iterate 6
    refine (isSome_bind_of_forall fun _ _ => ?_).trans (and_iff_right (hText _ (by decide)))
  iterate 11 refine isSome_bind_of_forall fun _ _ => ?_
  exact iff_of_true rfl trivial

theorem isSome_clocksOf_iff {parts : List Text} (h : 5 ≤ parts.length) :
    (clocksOf parts).isSome = true ↔
      ∀ i ∈ [5], ∀ v, parts[i]? = some v → (gval v).isFinite = true := by
  rw [clocksOf]
  simp (disch := omega) only [List.getElem?_eq_getElem, Option.bind_eq_bind, Option.bind_some,
    List.mem_singleton, forall_eq]
  split
  · rename_i hEncoder
    rw [← isSome_intColumn_iff hEncoder]
    cases intColumn parts 5 <;> simp
  · rename_i hShort
    simp [List.getElem?_eq_none (not_lt.mp hShort)]

/-- A row of `GPUHEALTH`. -/
def HealthReadable (cards : List Int) (line : Text) : Prop :=
  RowReadable cards 18 healthColumns (splitComma (strip line))

theorem isSome_healthLine_iff (gpus : List PolledGpu) (line : Text) :
    (healthLine gpus line).isSome = true ↔ HealthReadable (indices gpus) line := by
  rw [healthLine]
  split
  · rename_i hBlank
    refine iff_of_true rfl fun hLength => ?_
    rw [length_splitComma_blank hBlank] at hLength
    exact absurd hLength (by decide)
  · exact isSome_mergeRow_iff (by decide) isSome_healthOf_iff gpus

theorem indices_healthLine {gpus next : List PolledGpu} {line : Text}
    (h : healthLine gpus line = some next) : indices next = indices gpus := by
  rw [healthLine] at h
  split at h
  · cases h
    rfl
  · exact indices_mergeRow h

theorem indices_foldlM {step : List PolledGpu → Text → Option (List PolledGpu)}
    (hStep : ∀ gpus line next, step gpus line = some next → indices next = indices gpus)
    {lines : List Text} {gpus next : List PolledGpu} (h : lines.foldlM step gpus = some next) :
    indices next = indices gpus := by
  induction lines generalizing gpus with
  | nil =>
    cases h
    rfl
  | cons line lines ih =>
    rw [List.foldlM_cons, Option.bind_eq_bind, Option.bind_eq_some_iff] at h
    obtain ⟨middle, hLine, hRest⟩ := h
    exact (ih hRest).trans (hStep gpus line middle hLine)

/-- A section is merged when each of its lines is, for the cards there are. -/
theorem isSome_mergeLines_iff {mergeLine : List PolledGpu → Text → Option (List PolledGpu)}
    {Readable : List Int → Text → Prop}
    (hLine : ∀ gpus line, (mergeLine gpus line).isSome = true ↔ Readable (indices gpus) line)
    (hCards : ∀ gpus line next, mergeLine gpus line = some next → indices next = indices gpus)
    (text : Text) (gpus : List PolledGpu) :
    (if strip text = [] then some gpus
      else (splitlines text).foldlM mergeLine gpus).isSome = true ↔
      (strip text ≠ [] → ∀ line ∈ splitlines text, Readable (indices gpus) line) := by
  split
  · rename_i hBlank
    exact iff_of_true rfl fun hText => (hText hBlank).elim
  · rename_i hText
    simp only [hText, ne_eq, not_false_eq_true, true_implies]
    refine isSome_foldlM_iff (I := fun g => indices g = indices gpus) (fun g line hg => ?_)
      (fun g line next hg h => (hCards g line next h).trans hg) rfl
    rw [hLine, hg]

theorem indices_mergeGpuHealth {text : Text} {gpus next : List PolledGpu}
    (h : mergeGpuHealth text gpus = some next) : indices next = indices gpus := by
  rw [mergeGpuHealth] at h
  split at h
  · cases h
    rfl
  · exact indices_foldlM (fun _ _ _ => indices_healthLine) h

theorem isSome_mergeGpuHealth_iff (text : Text) (gpus : List PolledGpu) :
    (mergeGpuHealth text gpus).isSome = true ↔
      (strip text ≠ [] → ∀ line ∈ splitlines text, HealthReadable (indices gpus) line) :=
  isSome_mergeLines_iff isSome_healthLine_iff (fun _ _ _ => indices_healthLine) text gpus

/-- A row of `GPUCLOCK`. -/
def ClockReadable (cards : List Int) (line : Text) : Prop :=
  contains "Field " (strip line) = false → RowReadable cards 5 [5] (splitComma (strip line))

theorem isSome_clockLine_iff (gpus : List PolledGpu) (line : Text) :
    (clockLine gpus line).isSome = true ↔ ClockReadable (indices gpus) line := by
  rw [clockLine, ClockReadable]
  split
  · rename_i hSkip
    refine iff_of_true rfl fun hField hLength => ?_
    rcases hSkip with hBlank | hError
    · rw [length_splitComma_blank hBlank] at hLength
      exact absurd hLength (by decide)
    · rw [hField] at hError
      cases hError
  · rename_i hSkip
    simp only [not_or, Bool.not_eq_true] at hSkip
    simp only [hSkip.2, true_implies]
    exact isSome_mergeRow_iff (by decide) isSome_clocksOf_iff gpus

theorem indices_clockLine {gpus next : List PolledGpu} {line : Text}
    (h : clockLine gpus line = some next) : indices next = indices gpus := by
  rw [clockLine] at h
  split at h
  · cases h
    rfl
  · exact indices_mergeRow h

theorem isSome_mergeGpuClocks_iff (text : Text) (gpus : List PolledGpu) :
    (mergeGpuClocks text gpus).isSome = true ↔
      (strip text ≠ [] → ∀ line ∈ splitlines text, ClockReadable (indices gpus) line) :=
  isSome_mergeLines_iff isSome_clockLine_iff (fun _ _ _ => indices_clockLine) text gpus

/-- A row of `GPUAPPNAME` has a name, and no infinite process number. -/
def NameReadable (line : Text) : Prop :=
  2 ≤ (splitComma (strip line)).length →
    (∀ name, (splitComma (strip line))[1]? = some name → name ≠ []) ∧
      ∀ pid, (splitComma (strip line))[0]? = some pid →
        ∀ negative, toFloat pid ≠ .infinite negative

theorem isSome_executableName_iff {command : Text} :
    (executableName command).isSome = true ↔ strip command ≠ [] := by
  refine ⟨fun h hBlank => ?_, isSome_executableName⟩
  rw [executableName, hBlank] at h
  cases h

theorem isSome_nameLine_iff (names : Dict Int Text) (line : Text) :
    (nameLine names line).isSome = true ↔ NameReadable line := by
  rw [nameLine, NameReadable]
  split
  · rename_i hSkip
    exact iff_of_true rfl fun hLength => absurd hLength (length_lt_of_skipped (by omega) hSkip)
  · rename_i hSkip
    have hLength : 2 ≤ (splitComma (strip line)).length := by
      rw [not_or, not_lt] at hSkip
      exact hSkip.2
    have hName : strip (splitComma (strip line))[1] = (splitComma (strip line))[1] := by
      obtain ⟨piece, -, hPiece⟩ :=
        List.mem_map.mp (List.getElem_mem (l := splitComma (strip line)) (n := 1) hLength)
      rw [← hPiece, strip_strip]
    rw [List.getElem?_eq_getElem (by omega), List.getElem?_eq_getElem (by omega)]
    simp only [hLength, true_implies, Option.bind_eq_bind, Option.bind_some, Option.some.injEq,
      forall_eq']
    rw [← hName, ← isSome_executableName_iff, ← isSome_caughtInt_iff, hName]
    refine isSome_bind_of_forall fun name _ => ?_
    cases caughtInt (toFloat (splitComma (strip line))[0]) with
    | none => simp
    | some pid => cases pid <;> simp

/-- A row of `GPUAPPS` has no infinite process number. -/
def AppReadable (line : Text) : Prop :=
  3 ≤ (splitComma (strip line)).length → ∀ pid, (splitComma (strip line))[1]? = some pid →
    ∀ negative, toFloat pid ≠ .infinite negative

theorem isSome_appLine_iff (names : Dict Int Text) (psIndex : Dict Int Process)
    (gpus : List PolledGpu) (line : Text) :
    (appLine names psIndex gpus line).isSome = true ↔ AppReadable line := by
  rw [appLine, AppReadable]
  split
  · rename_i hSkip
    exact iff_of_true rfl fun hLength => absurd hLength (length_lt_of_skipped (by omega) hSkip)
  · rename_i hSkip
    have hLength : 3 ≤ (splitComma (strip line)).length := by
      rw [not_or, not_lt] at hSkip
      exact hSkip.2
    have hne : splitComma (strip line) ≠ [] := List.ne_nil_of_length_pos (by omega)
    rw [List.getElem?_eq_getElem (by omega), List.getElem?_eq_getElem (by omega),
      List.getLast?_eq_some_getLast hne]
    simp only [hLength, true_implies, Option.bind_eq_bind, Option.bind_some, Option.some.injEq,
      forall_eq']
    rw [← isSome_caughtInt_iff]
    cases caughtInt (toFloat (splitComma (strip line))[1]) with
    | none => simp
    | some pid => cases pid <;> simp

theorem isSome_mergeGpuApps_iff (appsText namesText : Text) (gpus : List PolledGpu)
    (psIndex : Dict Int Process) : (mergeGpuApps appsText namesText gpus psIndex).isSome = true ↔
      (∀ line ∈ splitlines namesText, NameReadable line) ∧
        ∀ line ∈ splitlines appsText, AppReadable line := by
  have hNames := isSome_foldlM_forall_iff isSome_nameLine_iff (splitlines namesText) .empty
  rw [← hNames, mergeGpuApps]
  refine isSome_bind_of_forall fun names _ => ?_
  exact isSome_foldlM_forall_iff (isSome_appLine_iff names psIndex) _ _

end GpuMon.Collector

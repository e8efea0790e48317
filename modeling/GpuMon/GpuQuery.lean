import GpuMon.Detectors

/-!
# The GPU query (`remote_scripts.py`, `ssh_collector.py`)

The fast script asks `nvidia-smi` for twelve columns and, where an old driver refuses them, for
eight; the collector parses what was printed.

* `parseGpus_primary`: a table of twelve columns gives one entry a row.
* `parseGpus_fallback`: a table of eight columns gives no entry.
* `missing_of_listed`: a card among the parsed ones is not reported missing.
* `gpus_faithful_iff`: every row printed becomes its entry, and no listed card is reported
  missing, exactly when the wide query was printed without the parser's sentinel in it, or
  nothing was.
-/

namespace GpuMon.GpuQuery

open PyText Detectors

/-! ## The parser -/

/-- `_NA`. -/
def notAvailable : List Text :=
  ["[n/a]", "n/a", "not supported", "[not supported]", "na", "[n/a] "]

/-- `_to_float`. -/
def toFloat (v : Text) (default : PyFloat) : PyFloat := (PyFloat.float? (strip v)).getD default

/-- `_gval`. -/
def gval (v : Text) : PyFloat := if lower (strip v) ∈ notAvailable then 0 else toFloat v 0

/-- The entry of a line with its columns. -/
def gpuEntry (index : Int) (uuid name utilization utilMemory memUsed memTotal temperature power
    limit fan : Text) : Gpu PyFloat where
  index := some index
  uuid := some uuid
  name := some name
  utilization := some (gval utilization)
  utilMemory := some (gval utilMemory)
  memUsedMb := some (gval memUsed)
  memTotalMb := some (gval memTotal)
  temperature := some (gval temperature)
  powerDraw := some (gval power)
  powerLimit := some (gval limit)
  fanSpeed := some (gval fan)
  clockGraphics := some 0
  clockMemory := some 0
  clockGraphicsMax := some 0
  clockMemoryMax := some 0
  encoderSessions := some 0
  decoderSessions := some 0
  pstate := some []
  computeMode := some []
  serial := some []
  pciBusId := some []
  memTemperature := some 0
  throttleMask := some []
  eccMode := some []
  eccCorrectedVolatile := some 0
  eccUncorrectedVolatile := some 0
  eccCorrectedTotal := some 0
  eccUncorrectedTotal := some 0
  remappedPending := some 0
  remappedFailure := some 0
  retiredPending := some 0
  pcieGenCurrent := some 0
  pcieGenMax := some 0
  pcieWidthCurrent := some 0
  pcieWidthMax := some 0

/-- One line; `none` is the exception of `int` on an infinite index or `nan`. -/
def gpuLine (acc : List (Gpu PyFloat) × Text) (line : Text) :
    Option (List (Gpu PyFloat) × Text) :=
  match (splitOn ',' (strip line)).map strip with
  | index :: uuid :: name :: utilization :: utilMemory :: memUsed :: memTotal :: temperature ::
      power :: limit :: fan :: driver :: _ =>
    (gval index).truncate?.map fun i =>
      (acc.1 ++ [gpuEntry i uuid name utilization utilMemory memUsed memTotal temperature power
        limit fan], driver)
  | _ => some acc

/-- `_parse_gpus`. -/
def parseGpus (text : Text) : Option (List (Gpu PyFloat) × Text) :=
  if strip text = [] ∨ contains "__NO_NVIDIA__" text then some ([], [])
  else (splitlines text).foldlM gpuLine ([], [])

/-! ## The script -/

/-- `case "$G1" in *pattern*|.. ) G1='' ;;`. -/
def dropIf (patterns : List Text) (t : Text) : Text :=
  if patterns.any fun p => contains p t then [] else t

def primaryPatterns : List Text := ["Field ", "Not Supported", "Invalid", "No devices"]

def fallbackPatterns : List Text := ["Field ", "Invalid", "No devices"]

/-- The GPU section of the script, of what the two queries print. -/
def gpuSection (primary fallback : Text) : Text :=
  let g1 := dropIf primaryPatterns primary
  let g1 := if g1 = [] then dropIf fallbackPatterns fallback else g1
  if g1 = [] then "__NO_NVIDIA__" else g1

/-- A value of a query: one line, and no comma. -/
structure Field where
  text : Text
  isLine : IsLine text
  noComma : ',' ∉ text
  deriving DecidableEq

/-- A card and its values; the index is an `unsigned int`. -/
structure Card where
  index : Nat
  index_lt : index < 2 ^ 32
  uuid : Field
  name : Field
  utilization : Field
  utilMemory : Field
  memUsed : Field
  memTotal : Field
  temperature : Field
  powerDraw : Field
  powerLimit : Field
  fanSpeed : Field

/-- A host: its cards, the version of its driver, and what an old driver answers to the wide
query in place of a table, which the script recognises. -/
structure Host where
  cards : List Card
  driverVersion : Field
  refusal : Option Text
  refusal_dropped : ∀ t ∈ refusal, dropIf primaryPatterns t = []

namespace Card

/-- `index,gpu_uuid,name,utilization.gpu,utilization.memory,memory.used,memory.total,`
`temperature.gpu,power.draw,power.limit,fan.speed,driver_version`. -/
def primaryRow (driver : Field) (c : Card) : Text :=
  row [natText c.index, c.uuid.text, c.name.text, c.utilization.text, c.utilMemory.text,
    c.memUsed.text, c.memTotal.text, c.temperature.text, c.powerDraw.text, c.powerLimit.text,
    c.fanSpeed.text, driver.text]

/-- `index,gpu_uuid,name,utilization.gpu,memory.used,memory.total,temperature.gpu,`
`driver_version`. -/
def fallbackRow (driver : Field) (c : Card) : Text :=
  row [natText c.index, c.uuid.text, c.name.text, c.utilization.text, c.memUsed.text,
    c.memTotal.text, c.temperature.text, driver.text]

end Card

namespace Host

def primaryTable (h : Host) : Text := join ['\n'] (h.cards.map (Card.primaryRow h.driverVersion))

def fallbackTable (h : Host) : Text := join ['\n'] (h.cards.map (Card.fallbackRow h.driverVersion))

/-- What the wide query prints. -/
def primary (h : Host) : Text := h.refusal.getD h.primaryTable

/-- The GPU section that the host sends. -/
def gpuText (h : Host) : Text := gpuSection h.primary h.fallbackTable

end Host

/-! ## Which query is printed -/

inductive Query
  | wide
  | narrow
  deriving DecidableEq

namespace Host

variable (h : Host)

/-- The query whose rows are in the section; `none` when the section lists no card. -/
def query? : Option Query :=
  if h.refusal = none ∧ dropIf primaryPatterns h.primaryTable ≠ [] then some .wide
  else if dropIf fallbackPatterns h.fallbackTable ≠ [] then some .narrow
  else none

/-- The cards whose rows are in the section. -/
def printed : List Card := if h.query? = none then [] else h.cards

end Host

theorem dropIf_of_ne_nil {patterns : List Text} {t : Text} (h : dropIf patterns t ≠ []) :
    dropIf patterns t = t := by
  unfold dropIf at h ⊢
  split
  · rename_i hFound
    rw [if_pos hFound] at h
    exact absurd rfl h
  · rfl

namespace Host

variable {h : Host}

theorem gpuText_of_wide (hQuery : h.query? = some .wide) : h.gpuText = h.primaryTable := by
  unfold query? at hQuery
  split at hQuery
  · rename_i hWide
    have hPrimary : h.primary = h.primaryTable := by rw [primary, hWide.1, Option.getD_none]
    have hKept := dropIf_of_ne_nil hWide.2
    have hne : h.primaryTable ≠ [] := hKept ▸ hWide.2
    rw [gpuText, gpuSection, hPrimary, hKept]
    simp only [if_neg hne]
  · split at hQuery <;> cases hQuery

/-- Where the wide query is not printed, the script has dropped it. -/
theorem primary_dropped (hQuery : h.query? ≠ some .wide) : dropIf primaryPatterns h.primary = [] := by
  by_contra hKept
  apply hQuery
  have hNone : h.refusal = none := by
    cases hRefusal : h.refusal with
    | none => rfl
    | some t =>
      have hDropped := h.refusal_dropped t hRefusal
      rw [primary, hRefusal, Option.getD_some] at hKept
      exact absurd hDropped hKept
  rw [primary, hNone, Option.getD_none] at hKept
  exact if_pos ⟨hNone, hKept⟩

theorem gpuText_of_narrow (hQuery : h.query? = some .narrow) : h.gpuText = h.fallbackTable := by
  have hDropped := primary_dropped (h := h) (by rw [hQuery]; decide)
  unfold query? at hQuery
  split at hQuery
  · cases hQuery
  · split at hQuery
    · rename_i hNarrow
      have hKept := dropIf_of_ne_nil hNarrow
      have hne : h.fallbackTable ≠ [] := hKept ▸ hNarrow
      rw [gpuText, gpuSection, hDropped]
      simp only [if_true, hKept, if_neg hne]
    · cases hQuery

theorem gpuText_of_none (hQuery : h.query? = none) : h.gpuText = "__NO_NVIDIA__" := by
  have hDropped := primary_dropped (h := h) (by rw [hQuery]; decide)
  unfold query? at hQuery
  split at hQuery
  · cases hQuery
  · split at hQuery
    · cases hQuery
    · rename_i hNarrow
      rw [gpuText, gpuSection, hDropped]
      simp only [if_true, not_ne_iff.mp hNarrow]

theorem cards_ne_nil (hQuery : h.query? ≠ none) : h.cards ≠ [] := by
  intro hCards
  apply hQuery
  have hPrimary : h.primaryTable = [] := by rw [primaryTable, hCards]; rfl
  have hFallback : h.fallbackTable = [] := by rw [fallbackTable, hCards]; rfl
  rw [query?, hPrimary, hFallback, if_neg (fun hWide => hWide.2 rfl), if_neg (fun hNe => hNe rfl)]

end Host

/-! ## Rows -/

theorem gval_strip (v : Text) : gval (strip v) = gval v := by
  rw [gval, gval, toFloat, toFloat, strip_strip]

theorem natText_head (n : Nat) : ∀ c ∈ (natText n).head?, isSpace c = false := fun _ hc =>
  isSpace_of_isDigit (isDigit_of_mem_natText (List.mem_of_head? hc))

theorem strip_natText (n : Nat) : strip (natText n) = natText n :=
  strip_eq_self ⟨natText_head n, fun _ hc =>
    isSpace_of_isDigit (isDigit_of_mem_natText (List.mem_of_getLast? hc))⟩

theorem comma_not_mem_natText (n : Nat) : ',' ∉ natText n :=
  fun h => absurd (isDigit_of_mem_natText h) (by decide)

/-- The index is read back. -/
theorem truncate?_gval_natText {n : Nat} (hn : n < 2 ^ 32) :
    (gval (natText n)).truncate? = some (n : Int) := by
  have hLow : lower (natText n) ∉ notAvailable := by
    obtain ⟨c, rest, hCons⟩ := List.exists_cons_of_ne_nil (natText_ne_nil n)
    have hc : c.isDigit = true := isDigit_of_mem_natText (hCons ▸ List.mem_cons_self)
    have hHead : (lower (natText n)).head? = some c := by
      rw [hCons, lower, List.map_cons, List.head?_cons, PyFloat.toLower_of_isDigit hc]
    have hNames : ∀ t ∈ notAvailable, t.head?.any Char.isDigit = false := by decide
    intro hMem
    have hNone := hNames _ hMem
    rw [hHead, Option.any_some, hc] at hNone
    cases hNone
  have hSmall : (n : ℚ) < PyFloat.overflow := by
    have hCast : (n : ℚ) < 2 ^ 32 := by exact_mod_cast hn
    have hBound : (2 : ℚ) ^ 32 ≤ PyFloat.overflow := calc
      (2 : ℚ) ^ 32 ≤ (2 ^ 54 - 1) * 1 := by norm_num
      _ ≤ PyFloat.overflow :=
        mul_le_mul_of_nonneg_left (one_le_pow₀ (by norm_num)) (by norm_num)
    exact hCast.trans_le hBound
  rw [gval, strip_natText, if_neg hLow, toFloat, strip_natText, PyFloat.float?_natText hSmall]
  have hNonneg : (0 : ℚ) ≤ n := Nat.cast_nonneg n
  simp [PyFloat.truncate?, PyNum.truncate, hNonneg]

namespace Card

/-- The entry of a row of the wide query. -/
def entry (c : Card) : Gpu PyFloat :=
  gpuEntry c.index (strip c.uuid.text) (strip c.name.text) (strip c.utilization.text)
    (strip c.utilMemory.text) (strip c.memUsed.text) (strip c.memTotal.text)
    (strip c.temperature.text) (strip c.powerDraw.text) (strip c.powerLimit.text)
    (strip c.fanSpeed.text)

variable (driver : Field) (c : Card)

theorem columns_primaryRow : (splitOn ',' (strip (c.primaryRow driver))).map strip =
    [natText c.index, c.uuid.text, c.name.text, c.utilization.text, c.utilMemory.text,
      c.memUsed.text, c.memTotal.text, c.temperature.text, c.powerDraw.text, c.powerLimit.text,
      c.fanSpeed.text, driver.text].map strip := by
  refine columns_row (natText_ne_nil _) (natText_head _) (List.cons_ne_nil _ _) ?_
  simp only [List.forall_mem_cons]
  exact ⟨comma_not_mem_natText _, c.uuid.noComma, c.name.noComma, c.utilization.noComma,
    c.utilMemory.noComma, c.memUsed.noComma, c.memTotal.noComma, c.temperature.noComma,
    c.powerDraw.noComma, c.powerLimit.noComma, c.fanSpeed.noComma, driver.noComma,
    fun _ h => absurd h List.not_mem_nil⟩

theorem columns_fallbackRow : (splitOn ',' (strip (c.fallbackRow driver))).map strip =
    [natText c.index, c.uuid.text, c.name.text, c.utilization.text, c.memUsed.text,
      c.memTotal.text, c.temperature.text, driver.text].map strip := by
  refine columns_row (natText_ne_nil _) (natText_head _) (List.cons_ne_nil _ _) ?_
  simp only [List.forall_mem_cons]
  exact ⟨comma_not_mem_natText _, c.uuid.noComma, c.name.noComma, c.utilization.noComma,
    c.memUsed.noComma, c.memTotal.noComma, c.temperature.noComma, driver.noComma,
    fun _ h => absurd h List.not_mem_nil⟩

theorem gpuLine_primaryRow (acc : List (Gpu PyFloat) × Text) :
    gpuLine acc (c.primaryRow driver) = some (acc.1 ++ [c.entry], strip driver.text) := by
  rw [gpuLine, columns_primaryRow]
  simp only [List.map_cons, List.map_nil, strip_natText, truncate?_gval_natText c.index_lt,
    Option.map_some]
  rfl

/-- A row of eight columns is passed over. -/
theorem gpuLine_fallbackRow (acc : List (Gpu PyFloat) × Text) :
    gpuLine acc (c.fallbackRow driver) = some acc := by
  rw [gpuLine, columns_fallbackRow]
  rfl

theorem isLine_primaryRow : IsLine (c.primaryRow driver) := by
  refine isLine_join (by decide) ?_
  simp only [List.forall_mem_cons]
  exact ⟨isLine_natText _, c.uuid.isLine, c.name.isLine, c.utilization.isLine,
    c.utilMemory.isLine, c.memUsed.isLine, c.memTotal.isLine, c.temperature.isLine,
    c.powerDraw.isLine, c.powerLimit.isLine, c.fanSpeed.isLine, driver.isLine,
    fun _ h => absurd h List.not_mem_nil⟩

theorem isLine_fallbackRow : IsLine (c.fallbackRow driver) := by
  refine isLine_join (by decide) ?_
  simp only [List.forall_mem_cons]
  exact ⟨isLine_natText _, c.uuid.isLine, c.name.isLine, c.utilization.isLine, c.memUsed.isLine,
    c.memTotal.isLine, c.temperature.isLine, driver.isLine, fun _ h => absurd h List.not_mem_nil⟩

theorem foldlM_primaryRow (cards : List Card) (acc : List (Gpu PyFloat) × Text) :
    (cards.map (primaryRow driver)).foldlM gpuLine acc =
      some (acc.1 ++ cards.map entry, if cards = [] then acc.2 else strip driver.text) := by
  induction cards generalizing acc with
  | nil => simp
  | cons c rest ih =>
    rw [List.map_cons, List.foldlM_cons, gpuLine_primaryRow, Option.bind_eq_bind,
      Option.bind_some, ih]
    simp

theorem foldlM_fallbackRow (cards : List Card) (acc : List (Gpu PyFloat) × Text) :
    (cards.map (fallbackRow driver)).foldlM gpuLine acc = some acc := by
  induction cards with
  | nil => rfl
  | cons c rest ih =>
    rw [List.map_cons, List.foldlM_cons, gpuLine_fallbackRow, Option.bind_eq_bind,
      Option.bind_some, ih]

end Card

/-! ## Tables -/

/-- A table of rows that each begin with a digit: it is not blank, and its lines are the rows. -/
theorem table_lines {rows : List Text} (hne : rows ≠ []) (hLines : ∀ r ∈ rows, IsLine r)
    (hHead : ∀ r ∈ rows, r.head?.any Char.isDigit = true) :
    strip (join ['\n'] rows) ≠ [] ∧ splitlines (join ['\n'] rows) = rows := by
  constructor
  · obtain ⟨r, rest, rfl⟩ := List.exists_cons_of_ne_nil hne
    obtain ⟨c, hc, hDigit⟩ := (Option.any_eq_true _ _).mp (hHead r List.mem_cons_self)
    obtain ⟨t, rfl⟩ := List.head?_eq_some_iff.mp hc
    obtain ⟨u, hJoin⟩ : ∃ u, join ['\n'] ((c :: t) :: rest) = c :: u := by
      cases rest with
      | nil => exact ⟨t, by simp [join, List.intercalate]⟩
      | cons r' rest => exact ⟨_, by rw [join_cons_cons, List.append_assoc, List.cons_append]⟩
    rw [hJoin]
    exact strip_ne_nil (isSpace_of_isDigit hDigit)
  · rw [splitlines_join hLines, if_neg]
    intro hLast
    have hDigit := hHead [] (List.mem_of_getLast? hLast)
    cases hDigit

theorem row_head {n : Nat} {a : Text} {rest : List Text} :
    (row (natText n :: a :: rest)).head?.any Char.isDigit = true := by
  obtain ⟨c, t, hCons⟩ := List.exists_cons_of_ne_nil (natText_ne_nil n)
  have hc : c.isDigit = true := isDigit_of_mem_natText (hCons ▸ List.mem_cons_self)
  rw [row, join_cons_cons, hCons]
  exact hc

namespace Host

variable {h : Host}

theorem parseGpus_primary (hCards : h.cards ≠ [])
    (hSentinel : contains "__NO_NVIDIA__" h.primaryTable = false) :
    parseGpus h.primaryTable = some (h.cards.map Card.entry, strip h.driverVersion.text) := by
  obtain ⟨hBlank, hLines⟩ := table_lines (List.map_eq_nil_iff.not.mpr hCards)
    (List.forall_mem_map.mpr fun c _ => Card.isLine_primaryRow h.driverVersion c)
    (List.forall_mem_map.mpr fun c _ => row_head)
  have hParse : ¬(strip h.primaryTable = [] ∨ contains "__NO_NVIDIA__" h.primaryTable = true) := by
    rintro (hEmpty | hFound)
    · exact hBlank hEmpty
    · rw [hSentinel] at hFound
      cases hFound
  rw [parseGpus, if_neg hParse, primaryTable, hLines, Card.foldlM_primaryRow, if_neg hCards,
    List.nil_append]

theorem parseGpus_fallback (hCards : h.cards ≠ []) :
    parseGpus h.fallbackTable = some ([], []) := by
  obtain ⟨-, hLines⟩ := table_lines (List.map_eq_nil_iff.not.mpr hCards)
    (List.forall_mem_map.mpr fun c _ => Card.isLine_fallbackRow h.driverVersion c)
    (List.forall_mem_map.mpr fun c _ => row_head)
  rw [parseGpus]
  split
  · rfl
  · rw [fallbackTable, hLines, Card.foldlM_fallbackRow]

end Host

/-! ## A poll -/

/-- The entry has what the row of the card says. -/
def Describes (g : Gpu PyFloat) (c : Card) : Prop :=
  g.index = some (c.index : Int) ∧ g.uuid = some (strip c.uuid.text) ∧
    g.name = some (strip c.name.text) ∧ g.utilization = some (gval c.utilization.text) ∧
    g.memUsedMb = some (gval c.memUsed.text) ∧ g.memTotalMb = some (gval c.memTotal.text) ∧
    g.temperature = some (gval c.temperature.text)

namespace Host

/-- A card with this uuid is in the section. -/
def Lists (h : Host) (uuid : Text) : Prop := ∃ c ∈ h.printed, strip c.uuid.text = uuid

/-- The detector marks no listed card, and the events it opens are about other cards. -/
def ReportsOnlyAbsent (h : Host) (gpus : List (Gpu PyFloat)) : Prop :=
  ∀ (env : Environment) (server : Server) (hostname : Text) (baseline : List GpuBaseline)
    (events : Table AlertEvent),
    let r := detectGpuMissing env server hostname gpus baseline events
    (∀ p ∈ baseline.zip r.1, h.Lists p.1.gpuUuid → p.2.missingSince = none) ∧
      ∀ ev ∈ r.2.rows, ev.isOpen = true → ev ∈ events.rows ∨ ∃ b ∈ baseline,
        ¬h.Lists b.gpuUuid ∧ ev.message = keyedMessage b.gpuUuid (missingMessage b)

/-- The printed rows and the entries correspond one to one, the driver is read, and no listed
card is reported missing. -/
def Faithful (h : Host) : Prop :=
  ∃ gpus driver, parseGpus h.gpuText = some (gpus, driver) ∧
    List.Forall₂ Describes gpus h.printed ∧
    (h.printed ≠ [] → driver = strip h.driverVersion.text) ∧ h.ReportsOnlyAbsent gpus

variable {h : Host}

theorem lists_iff {gpus : List (Gpu PyFloat)} (hGpus : List.Forall₂ Describes gpus h.printed)
    (uuid : Text) : h.Lists uuid ↔ some uuid ∈ gpus.map Gpu.uuid := by
  unfold Lists
  generalize h.printed = cards at hGpus ⊢
  induction hGpus with
  | nil => simp
  | @cons g c gpus cards hHead _ ih =>
    obtain ⟨-, hUuid, -⟩ := hHead
    rw [List.map_cons, List.mem_cons, ← ih, hUuid]
    constructor
    · rintro ⟨c', hc', rfl⟩
      rcases List.mem_cons.mp hc' with rfl | hc'
      · exact .inl rfl
      · exact .inr ⟨c', hc', rfl⟩
    · rintro (hSame | ⟨c', hc', hSame⟩)
      · exact ⟨c, List.mem_cons_self, (Option.some.inj hSame).symm⟩
      · exact ⟨c', List.mem_cons_of_mem c hc', hSame⟩

/-- The detector does its part on entries that correspond to the rows. -/
theorem reportsOnlyAbsent {gpus : List (Gpu PyFloat)}
    (hGpus : List.Forall₂ Describes gpus h.printed) : h.ReportsOnlyAbsent gpus := by
  intro env server hostname baseline events
  constructor
  · intro p hp hListed
    exact missing_of_listed env server hostname gpus baseline events p hp
      ((lists_iff hGpus _).mp hListed)
  · intro ev hev hOpen
    rcases opened_of_detectGpuMissing env server hostname gpus baseline events hev hOpen with
      hOld | ⟨b, hb, hAbsent, hMessage⟩
    · exact .inl hOld
    · exact .inr ⟨b, hb, fun hListed => hAbsent ((lists_iff hGpus _).mp hListed), hMessage⟩

theorem printed_of_query {q : Query} (hQuery : h.query? = some q) : h.printed = h.cards := by
  rw [printed, hQuery]
  rfl

theorem not_faithful_of_empty (hQuery : h.query? ≠ none)
    (hParse : parseGpus h.gpuText = some ([], [])) : ¬h.Faithful := by
  rintro ⟨gpus, driver, hGpus, hRows, -, -⟩
  rw [hParse] at hGpus
  cases hGpus
  rw [printed, if_neg hQuery] at hRows
  exact cards_ne_nil hQuery (List.forall₂_nil_left_iff.mp hRows)

theorem not_faithful_of_narrow (hQuery : h.query? = some .narrow) : ¬h.Faithful := by
  have hSome : h.query? ≠ none := by rw [hQuery]; decide
  refine not_faithful_of_empty hSome ?_
  rw [gpuText_of_narrow hQuery]
  exact parseGpus_fallback (cards_ne_nil hSome)

theorem faithful_of_wide (hQuery : h.query? = some .wide)
    (hSentinel : contains "__NO_NVIDIA__" h.primaryTable = false) : h.Faithful := by
  have hCards : h.cards ≠ [] := cards_ne_nil (by rw [hQuery]; decide)
  have hRows : List.Forall₂ Describes (h.cards.map Card.entry) h.printed := by
    rw [printed_of_query hQuery, List.forall₂_map_left_iff]
    exact List.forall₂_same.mpr fun c _ => ⟨rfl, rfl, rfl, congrArg some (gval_strip _),
      congrArg some (gval_strip _), congrArg some (gval_strip _), congrArg some (gval_strip _)⟩
  refine ⟨_, _, ?_, hRows, fun _ => rfl, reportsOnlyAbsent hRows⟩
  rw [gpuText_of_wide hQuery, parseGpus_primary hCards hSentinel]

theorem faithful_of_none (hQuery : h.query? = none) : h.Faithful := by
  have hPrinted : h.printed = [] := if_pos hQuery
  have hRows : List.Forall₂ Describes [] h.printed := by rw [hPrinted]; exact .nil
  refine ⟨[], [], ?_, hRows, fun hNe => absurd hPrinted hNe, reportsOnlyAbsent hRows⟩
  rw [gpuText_of_none hQuery]
  decide +kernel

end Host

/-- The rows are read faithfully exactly when they are those of the wide query and do not hold
the sentinel, or when there are none. -/
theorem gpus_faithful_iff (h : Host) : h.Faithful ↔ h.query? = none ∨
    (h.query? = some .wide ∧ contains "__NO_NVIDIA__" h.primaryTable = false) := by
  constructor
  · intro hFaithful
    rcases hQuery : h.query? with _ | q
    · exact .inl rfl
    · cases q with
      | wide =>
        refine .inr ⟨rfl, ?_⟩
        by_contra hFound
        refine Host.not_faithful_of_empty (by rw [hQuery]; decide) ?_ hFaithful
        rw [Host.gpuText_of_wide hQuery, parseGpus, if_pos (.inr (by simpa using hFound))]
      | narrow => exact absurd hFaithful (Host.not_faithful_of_narrow hQuery)
  · rintro (hNone | ⟨hWide, hSentinel⟩)
    · exact Host.faithful_of_none hNone
    · exact Host.faithful_of_wide hWide hSentinel

/-- A host whose driver does not know the field of the memory utilization. -/
def oldHost : Host where
  cards := [{
    index := 0
    index_lt := by decide
    uuid := ⟨"GPU-5e0f7b9c-1c52-4c2d-9a0f-3f1d2a6b8c44", by decide, by decide⟩
    name := ⟨"Tesla K10.G1.8GB", by decide, by decide⟩
    utilization := ⟨"37", by decide, by decide⟩
    utilMemory := ⟨"[Not Supported]", by decide, by decide⟩
    memUsed := ⟨"2048", by decide, by decide⟩
    memTotal := ⟨"3583", by decide, by decide⟩
    temperature := ⟨"51", by decide, by decide⟩
    powerDraw := ⟨"80.10", by decide, by decide⟩
    powerLimit := ⟨"117.50", by decide, by decide⟩
    fanSpeed := ⟨"[Not Supported]", by decide, by decide⟩ }]
  driverVersion := ⟨"304.54", by decide, by decide⟩
  refusal := some "Field \"utilization.memory\" is not a valid field to query."
  refusal_dropped := by decide +kernel

theorem oldHost_misread :
    oldHost.gpuText = ("0, GPU-5e0f7b9c-1c52-4c2d-9a0f-3f1d2a6b8c44, Tesla K10.G1.8GB, 37, ".toList ++
      "2048, 3583, 51, 304.54".toList) ∧ ¬oldHost.Faithful := by
  refine ⟨by decide +kernel, ?_⟩
  exact Host.not_faithful_of_narrow (by decide +kernel)

end GpuMon.GpuQuery

import GpuMon.CardTime
import GpuMon.Library.BatchLoop

/-!
# The utilization report (`enterprise.cluster_utilization_report`)

The report adds up the rollup rows of every GPU server over a window. Rows written before card
time was recorded have no `gpu_sample_minutes`; a server with such a row has no idle ratio, and
neither has the report as a whole.

* `written_cardTime`: a row written by a rollup has no more idle minutes than sample minutes.
* `rows_of_rollHour`: legacy rows and rows written by rollups are all that rollups leave.
* `idle_ratios`: the report never divides by zero, and every idle ratio is a percentage between
  0 and 100, or missing, which it is exactly when a row without card time contributes.
-/

namespace GpuMon.Utilization

open PyNum PyText Rollup

inductive ReportError
  | zeroDivision
  deriving DecidableEq

/-- Python's `/`. -/
def quotient (num den : ℚ) : Except ReportError ℚ :=
  if den = 0 then .error .zeroDivision else .ok (num / den)

/-- `round(num / den * scale, 1) if den else 0`. -/
def guarded (scale num den : ℚ) : Except ReportError ℚ :=
  if den ≠ 0 then (quotient num den).map fun q => roundTo 1 (q * scale) else .ok 0

/-- `idle_ratio_pct`. -/
def idleRatio (available : Bool) (idle total : ℚ) : Except ReportError (Option ℚ) :=
  if available && total ≠ 0 then (quotient idle total).map fun q => some (roundTo 1 (q * 100))
  else if available then .ok (some 0) else .ok none

structure Store where
  servers : Table Server
  hourly : List ServerMetricHourly

structure ServerReport where
  serverId : Nat
  serverName : Text
  tags : List Text
  hoursCovered : ℚ
  successRate : ℚ
  gpuUtilAvg : ℚ
  gpuPowerAvgW : ℚ
  idleHeldMinutes : Int
  idleHeldGpuHours : ℚ
  gpuHours : Option ℚ
  gpuSampleMinutes : Option ℚ
  idleHeldGpuMinutes : ℚ
  idleRatioPct : Option ℚ
  cardTimeAvailable : Bool
  cardTimeEstimated : Bool
  deriving DecidableEq

structure Report where
  windowHours : Nat
  totalGpuHours : Option ℚ
  totalIdleGpuHours : ℚ
  idleRatioPct : Option ℚ
  cardTimeComplete : Bool
  cardTimeEstimated : Bool
  servers : List ServerReport
  deriving DecidableEq

/-- The GPU servers, those with a tag if one is given. -/
def reportServers (tag : Text) (db : Store) : List Server :=
  let servers := db.servers.rows.filter fun s => s.enabled && s.serverType ≠ ("cpu" : Text)
  if tag = [] then servers else servers.filter fun s => tag ∈ s.tags

/-- The rows of a server in the window. -/
def rowsOf (now : Int) (hours : Nat) (db : Store) (s : Server) : List ServerMetricHourly :=
  db.hourly.filter fun r => r.serverId = s.id && now - seconds (hours * 3600) ≤ r.hour

/-- `available`. -/
def available (rows : List ServerMetricHourly) : Bool :=
  rows.all fun r => r.gpuSampleMinutes ≠ none

/-- `gpu_minutes`. -/
def gpuMinutes (rows : List ServerMetricHourly) : ℚ :=
  (rows.map fun r => r.gpuSampleMinutes.getD 0).sum

/-- `precise_idle`. -/
def preciseIdle (rows : List ServerMetricHourly) : ℚ :=
  (rows.map fun r => r.idleHeldGpuMinutes.getD r.idleHeldMinutes).sum

/-- The entry of a server. -/
def serverReport (s : Server) (rows : List ServerMetricHourly) :
    Except ReportError ServerReport := do
  let samples := (rows.map ServerMetricHourly.samples).sum
  let ok := (rows.map ServerMetricHourly.okSamples).sum
  let weighted := (rows.map fun r => r.gpuUtilAvg * (r.okSamples : ℚ)).sum
  let powerW := (rows.map fun r => r.gpuPowerAvg * (r.okSamples : ℚ)).sum
  let successRate ← guarded 100 ok samples
  let gpuUtilAvg ← guarded 1 weighted ok
  let gpuPowerAvgW ← guarded 1 powerW ok
  let idleRatioPct ← idleRatio (available rows) (preciseIdle rows) (gpuMinutes rows)
  return {
    serverId := s.id
    serverName := s.name
    tags := s.tags
    hoursCovered := roundTo 1 rows.length
    successRate
    gpuUtilAvg
    gpuPowerAvgW
    idleHeldMinutes := (rows.map ServerMetricHourly.idleHeldMinutes).sum
    idleHeldGpuHours := roundTo 4 (preciseIdle rows / 60)
    gpuHours := if available rows then some (roundTo 4 (gpuMinutes rows / 60)) else none
    gpuSampleMinutes := if available rows then some (gpuMinutes rows) else none
    idleHeldGpuMinutes := preciseIdle rows
    idleRatioPct
    cardTimeAvailable := available rows
    cardTimeEstimated := rows.any ServerMetricHourly.gpuTimeEstimated }

/-- `cluster_utilization_report`. -/
def clusterUtilizationReport (now : Int) (hours : Nat) (tag : Text) (db : Store) :
    Except ReportError Report := do
  let covered := (reportServers tag db).filter fun s => rowsOf now hours db s ≠ []
  let entries ← covered.mapM fun s => serverReport s (rowsOf now hours db s)
  let out := entries.insertionSort fun a b => b.idleHeldMinutes ≤ a.idleHeldMinutes
  let complete := out.all ServerReport.cardTimeAvailable
  let totalMinutes := (out.map fun e => e.gpuSampleMinutes.getD 0).sum
  let totalIdleMinutes := (out.map ServerReport.idleHeldGpuMinutes).sum
  let idleRatioPct ← idleRatio complete totalIdleMinutes totalMinutes
  return {
    windowHours := hours
    totalGpuHours := if complete then some (roundTo 4 (totalMinutes / 60)) else none
    totalIdleGpuHours := roundTo 4 (totalIdleMinutes / 60)
    idleRatioPct
    cardTimeComplete := complete
    cardTimeEstimated := out.any ServerReport.cardTimeEstimated
    servers := out }

/-! ## The rows -/

/-- A row from before card time was recorded. -/
def Legacy (r : ServerMetricHourly) : Prop := r.gpuSampleMinutes = none

/-- A row that a rollup computed (`Rolled.mem_iff`). -/
def WrittenByRollHour (r : ServerMetricHourly) : Prop :=
  ∃ hourStart hourEnd interval sid serverRows previous,
    r = aggregate hourStart hourEnd interval sid serverRows previous

theorem weight_idleHeldCount_le (m : ServerMetric) :
    weight idleHeldCount m ≤ weight gpuCount m := by
  unfold weight
  split
  · exact Nat.cast_le.mpr List.countP_le_length
  · exact le_rfl

theorem weight_nonneg (count : ServerMetric → Nat) (m : ServerMetric) : 0 ≤ weight count m := by
  unfold weight
  split
  · exact Nat.cast_nonneg _
  · exact le_rfl

/-- Idle minutes are minutes of samples. -/
theorem written_cardTime {r : ServerMetricHourly} (h : WrittenByRollHour r) :
    ∃ total idle, r.gpuSampleMinutes = some total ∧ r.idleHeldGpuMinutes = some idle ∧
      0 ≤ idle ∧ idle ≤ total := by
  obtain ⟨hourStart, hourEnd, interval, sid, serverRows, previous, rfl⟩ := h
  obtain ⟨hTotal, hIdle⟩ := aggregate_cardTime hourStart hourEnd interval sid serverRows previous
  refine ⟨_, _, hTotal, hIdle, ?_, ?_⟩
  · exact div_nonneg (Timeline.spanSum_nonneg _ _ _ _ (weight_nonneg _) _) (by norm_num)
  · exact div_le_div_of_nonneg_right
      (Timeline.spanSum_mono _ _ _ _ weight_idleHeldCount_le _) (by norm_num)

/-- A rollup leaves legacy rows and rows of its own. -/
theorem rows_of_rollHour {db db' : Rollup.Store} {hourStart hourEnd : Int} {serverIds : List Nat}
    {interval : Int} (hRows : ∀ r ∈ db.hourly, Legacy r ∨ WrittenByRollHour r)
    (h : Rolled db hourStart hourEnd serverIds interval db') :
    ∀ r ∈ db'.hourly, Legacy r ∨ WrittenByRollHour r := by
  intro r hr
  rw [h.hourly, List.mem_append, List.mem_append] at hr
  rcases hr with (hOld | hKept) | hNew
  · exact hRows r (List.mem_of_mem_filter hOld)
  · obtain ⟨sid, -, hRow⟩ := List.mem_filterMap.mp hKept
    obtain ⟨row, hOld, rfl⟩ := Option.map_eq_some_iff.mp hRow
    have hBefore := hRows row (existing_some hOld).1
    unfold keepRow
    split
    · rename_i hLegacy
      exact .inl hLegacy
    · exact hBefore
  · obtain ⟨sid, -, rfl⟩ := List.mem_map.mp hNew
    exact .inr ⟨_, _, _, _, _, _, rfl⟩

section Ratios

variable {rows : List ServerMetricHourly}

theorem available_iff : available rows = true ↔ ∀ r ∈ rows, ¬Legacy r := by
  simp [available, Legacy]

/-- The minutes of rows with card time. -/
theorem minutes_of_rows (hRows : ∀ r ∈ rows, Legacy r ∨ WrittenByRollHour r)
    (hAvailable : available rows = true) :
    0 ≤ preciseIdle rows ∧ preciseIdle rows ≤ gpuMinutes rows := by
  have hEach : ∀ r ∈ rows, 0 ≤ r.idleHeldGpuMinutes.getD r.idleHeldMinutes ∧
      r.idleHeldGpuMinutes.getD r.idleHeldMinutes ≤ r.gpuSampleMinutes.getD 0 := by
    intro r hr
    have hWritten := (hRows r hr).resolve_left (available_iff.mp hAvailable r hr)
    obtain ⟨total, idle, hTotal, hIdle, hNonneg, hLe⟩ := written_cardTime hWritten
    rw [hTotal, hIdle]
    exact ⟨hNonneg, hLe⟩
  constructor
  · refine List.sum_nonneg fun x hx => ?_
    obtain ⟨r, hr, rfl⟩ := List.mem_map.mp hx
    exact (hEach r hr).1
  · exact List.sum_le_sum fun r hr => (hEach r hr).2

/-- The idle share of rows, in percent; it is zero when they have no minutes. -/
def exactRatio (rows : List ServerMetricHourly) : ℚ := preciseIdle rows / gpuMinutes rows * 100

/-- What an idle ratio says of the rows it is made of. -/
def RatioOk (rows : List ServerMetricHourly) (ratio : Option ℚ) : Prop :=
  (ratio = none ↔ ∃ r ∈ rows, Legacy r) ∧
    ∀ pct, ratio = some pct → pct = roundTo 1 (exactRatio rows) ∧
      (0 ≤ exactRatio rows ∧ exactRatio rows ≤ 100) ∧ 0 ≤ pct ∧ pct ≤ 100

theorem exactRatio_mem (hRows : ∀ r ∈ rows, Legacy r ∨ WrittenByRollHour r)
    (hAvailable : available rows = true) : 0 ≤ exactRatio rows ∧ exactRatio rows ≤ 100 := by
  obtain ⟨hNonneg, hLe⟩ := minutes_of_rows hRows hAvailable
  have hRatio : preciseIdle rows / gpuMinutes rows ≤ 1 := div_le_one_of_le₀ hLe (hNonneg.trans hLe)
  have hSign : 0 ≤ preciseIdle rows / gpuMinutes rows := div_nonneg hNonneg (hNonneg.trans hLe)
  unfold exactRatio
  constructor <;> linarith

theorem idleRatio_ok (hRows : ∀ r ∈ rows, Legacy r ∨ WrittenByRollHour r) :
    ∃ ratio, idleRatio (available rows) (preciseIdle rows) (gpuMinutes rows) = .ok ratio ∧
      RatioOk rows ratio := by
  cases hAvailable : available rows with
  | false =>
    refine ⟨none, rfl, iff_of_true rfl ?_, fun pct h => by cases h⟩
    simpa [available, Legacy] using hAvailable
  | true =>
    have hBounds := exactRatio_mem hRows hAvailable
    refine ⟨some (roundTo 1 (exactRatio rows)), ?_, ?_, fun pct h => ?_⟩
    · unfold idleRatio exactRatio quotient
      by_cases hZero : gpuMinutes rows = 0
      · norm_num [hZero, roundTo, roundHalfEven]
      · simp [hZero, Except.map]
    · have hNone := available_iff.mp hAvailable
      refine iff_of_false (fun h => by cases h) ?_
      rintro ⟨r, hr, hLegacy⟩
      exact hNone r hr hLegacy
    · cases h
      refine ⟨rfl, hBounds, ?_⟩
      exact_mod_cast roundTo_mem 0 100 (by exact_mod_cast hBounds.1) (by exact_mod_cast hBounds.2)

theorem guarded_ok (scale num den : ℚ) : ∃ q, guarded scale num den = .ok q := by
  unfold guarded quotient
  by_cases hZero : den = 0
  · simp [hZero]
  · simp [hZero, Except.map]

end Ratios

/-! ## The report -/

section Reports

variable {now : Int} {hours : Nat} {tag : Text} {db : Store}

/-- What an entry says of the rows of its server. -/
structure EntryOk (now : Int) (hours : Nat) (db : Store) (s : Server) (e : ServerReport) :
    Prop where
  serverId : e.serverId = s.id
  cardTimeAvailable : e.cardTimeAvailable = available (rowsOf now hours db s)
  gpuSampleMinutes : e.gpuSampleMinutes =
    if available (rowsOf now hours db s) then some (gpuMinutes (rowsOf now hours db s)) else none
  idleHeldGpuMinutes : e.idleHeldGpuMinutes = preciseIdle (rowsOf now hours db s)
  ratio : RatioOk (rowsOf now hours db s) e.idleRatioPct

theorem rowsOf_ok (now : Int) (hours : Nat)
    (hRows : ∀ r ∈ db.hourly, Legacy r ∨ WrittenByRollHour r) (s : Server) :
    ∀ r ∈ rowsOf now hours db s, Legacy r ∨ WrittenByRollHour r :=
  fun r hr => hRows r (List.mem_of_mem_filter hr)

theorem serverReport_ok (now : Int) (hours : Nat)
    (hRows : ∀ r ∈ db.hourly, Legacy r ∨ WrittenByRollHour r) (s : Server) :
    ∃ e, serverReport s (rowsOf now hours db s) = .ok e ∧ EntryOk now hours db s e := by
  obtain ⟨successRate, hSuccess⟩ := guarded_ok 100
    ((rowsOf now hours db s).map ServerMetricHourly.okSamples).sum
    ((rowsOf now hours db s).map ServerMetricHourly.samples).sum
  obtain ⟨utilAvg, hUtil⟩ := guarded_ok 1
    ((rowsOf now hours db s).map fun r => r.gpuUtilAvg * (r.okSamples : ℚ)).sum
    ((rowsOf now hours db s).map ServerMetricHourly.okSamples).sum
  obtain ⟨powerAvg, hPower⟩ := guarded_ok 1
    ((rowsOf now hours db s).map fun r => r.gpuPowerAvg * (r.okSamples : ℚ)).sum
    ((rowsOf now hours db s).map ServerMetricHourly.okSamples).sum
  obtain ⟨ratio, hRatio, hOk⟩ := idleRatio_ok (rowsOf_ok now hours hRows s)
  unfold serverReport
  dsimp only
  rw [hSuccess, hUtil, hPower, hRatio]
  exact ⟨_, rfl, rfl, rfl, rfl, rfl, hOk⟩

/-- The rows that contribute to the report. -/
def contributing (now : Int) (hours : Nat) (tag : Text) (db : Store) : List ServerMetricHourly :=
  (reportServers tag db).flatMap (rowsOf now hours db)

theorem preciseIdle_append (rows rows' : List ServerMetricHourly) :
    preciseIdle (rows ++ rows') = preciseIdle rows + preciseIdle rows' := by
  simp [preciseIdle]

theorem gpuMinutes_append (rows rows' : List ServerMetricHourly) :
    gpuMinutes (rows ++ rows') = gpuMinutes rows + gpuMinutes rows' := by
  simp [gpuMinutes]

/-- The totals over the entries are those over the rows. -/
theorem totals_of_entries {servers : List Server} {entries : List ServerReport}
    (h : List.Forall₂ (EntryOk now hours db) servers entries) :
    entries.all ServerReport.cardTimeAvailable =
        available (servers.flatMap (rowsOf now hours db)) ∧
      (entries.map ServerReport.idleHeldGpuMinutes).sum =
        preciseIdle (servers.flatMap (rowsOf now hours db)) ∧
      (available (servers.flatMap (rowsOf now hours db)) = true →
        (entries.map fun e => e.gpuSampleMinutes.getD 0).sum =
          gpuMinutes (servers.flatMap (rowsOf now hours db))) := by
  induction h with
  | nil => simp [available, preciseIdle, gpuMinutes]
  | @cons s e servers entries hEntry _ ih =>
    obtain ⟨hAll, hIdle, hMinutes⟩ := ih
    have hSplit : available (rowsOf now hours db s ++ servers.flatMap (rowsOf now hours db)) =
        (available (rowsOf now hours db s) &&
          available (servers.flatMap (rowsOf now hours db))) := List.all_append
    rw [List.flatMap_cons, hSplit, preciseIdle_append, gpuMinutes_append, List.all_cons, hAll,
      List.map_cons, List.map_cons, List.sum_cons, List.sum_cons, hIdle, hEntry.cardTimeAvailable,
      hEntry.idleHeldGpuMinutes]
    refine ⟨rfl, rfl, fun hAvailable => ?_⟩
    obtain ⟨hHere, hRest⟩ := Bool.and_eq_true_iff.mp hAvailable
    rw [hMinutes hRest, hEntry.gpuSampleMinutes, if_pos hHere]
    rfl

/-- Servers without rows add nothing. -/
theorem flatMap_covered (servers : List Server) :
    (servers.filter fun s => rowsOf now hours db s ≠ []).flatMap (rowsOf now hours db) =
      servers.flatMap (rowsOf now hours db) := by
  induction servers with
  | nil => rfl
  | cons s rest ih =>
    rw [List.filter_cons, List.flatMap_cons]
    split
    · rw [List.flatMap_cons, ih]
    · rename_i hCovered
      rw [ih, show rowsOf now hours db s = [] by simpa using hCovered, List.nil_append]

end Reports

/-- Every report: no division by zero, and every idle ratio a percentage or missing. -/
theorem idle_ratios (now : Int) (hours : Nat) (tag : Text) (db : Store)
    (hRows : ∀ r ∈ db.hourly, Legacy r ∨ WrittenByRollHour r) :
    ∃ report, clusterUtilizationReport now hours tag db = .ok report ∧
      (∀ e ∈ report.servers, ∃ s ∈ reportServers tag db,
        e.serverId = s.id ∧ rowsOf now hours db s ≠ [] ∧
          RatioOk (rowsOf now hours db s) e.idleRatioPct) ∧
      RatioOk (contributing now hours tag db) report.idleRatioPct := by
  let covered := (reportServers tag db).filter fun s => rowsOf now hours db s ≠ []
  have hCalls : ∀ s ∈ covered, ∃ e, serverReport s (rowsOf now hours db s) = .ok e ∧
      EntryOk now hours db s e := fun s _ => serverReport_ok now hours hRows s
  obtain ⟨entries, hEntries, hOk⟩ := BatchLoop.exists_mapM_ok hCalls
  obtain ⟨hComplete, hIdle, hMinutes⟩ := totals_of_entries hOk
  rw [flatMap_covered] at hComplete hIdle hMinutes
  have hContributing : ∀ r ∈ contributing now hours tag db, Legacy r ∨ WrittenByRollHour r := by
    intro r hr
    obtain ⟨s, -, hr⟩ := List.mem_flatMap.mp hr
    exact rowsOf_ok now hours hRows s r hr
  obtain ⟨ratio, hRatio, hRatioOk⟩ := idleRatio_ok hContributing
  -- sorting the entries changes no total
  have hPerm := List.perm_insertionSort
    (fun a b : ServerReport => b.idleHeldMinutes ≤ a.idleHeldMinutes) entries
  have hTotal : idleRatio (available (contributing now hours tag db))
      (preciseIdle (contributing now hours tag db))
        (entries.map fun e => e.gpuSampleMinutes.getD 0).sum = .ok ratio := by
    cases hAvailable : available (contributing now hours tag db) with
    | true =>
      rw [hMinutes hAvailable]
      rw [hAvailable] at hRatio
      exact hRatio
    | false =>
      rw [hAvailable] at hRatio
      exact hRatio
  have hRatioOut : idleRatio ((entries.insertionSort fun a b =>
        b.idleHeldMinutes ≤ a.idleHeldMinutes).all ServerReport.cardTimeAvailable)
      ((entries.insertionSort fun a b =>
        b.idleHeldMinutes ≤ a.idleHeldMinutes).map ServerReport.idleHeldGpuMinutes).sum
      ((entries.insertionSort fun a b =>
        b.idleHeldMinutes ≤ a.idleHeldMinutes).map fun e => e.gpuSampleMinutes.getD 0).sum =
        .ok ratio := by
    rw [hPerm.all_eq, (hPerm.map _).sum_eq, (hPerm.map _).sum_eq, hComplete, hIdle]
    exact hTotal
  unfold clusterUtilizationReport
  dsimp only
  rw [hEntries]
  simp only [bind, Except.bind]
  rw [hRatioOut]
  refine ⟨_, rfl, fun e he => ?_, hRatioOk⟩
  obtain ⟨s, hCovered, hEntry⟩ := BatchLoop.exists_of_mem_results hOk (hPerm.mem_iff.mp he)
  obtain ⟨hServer, hSome⟩ := List.mem_filter.mp hCovered
  exact ⟨s, hServer, hEntry.serverId, of_decide_eq_true hSome, hEntry.ratio⟩

/-- A server with a row of either kind. -/
def mixedRows : Store where
  servers := .singleton { id := 1 }
  hourly := [{ serverId := 1, hour := 0, samples := 60, okSamples := 60, idleHeldMinutes := 5 },
    aggregate (seconds 3600) (seconds 7200) 60 1
      [{ id := 1, serverId := 1, collectedAt := seconds 3600, gpus := [{}] }] none]

theorem idle_ratios_mixedRows :
    ∃ report, clusterUtilizationReport (seconds 7200) 24 [] mixedRows = .ok report ∧
      report.idleRatioPct = none := by
  obtain ⟨report, hReport, -, hRatio, -⟩ := idle_ratios (seconds 7200) 24 [] mixedRows <| by
    intro r hr
    rcases List.mem_cons.mp hr with rfl | hr
    · exact .inl rfl
    · obtain rfl := List.mem_singleton.mp hr
      exact .inr ⟨_, _, _, _, _, _, rfl⟩
  have hLegacy : ∃ r ∈ contributing (seconds 7200) 24 [] mixedRows,
      r.gpuSampleMinutes = none := by decide +kernel
  exact ⟨report, hReport, hRatio.mpr hLegacy⟩

end GpuMon.Utilization

import GpuMon.Cockpit.History

/-!
# The history of a server (`api/metrics.server_history`)

The samples of the last hours become a series for the charts. Every sample counts for its place,
those of a stride are looked at, and the ok ones among them are kept.

* `history_eq_nil_iff`: the series is empty when no ok sample stands at a multiple of the stride.
* `length_history_le`: the series is bounded, however many samples there are.
* `serverHistory_nonempty_iff`: the windows whose ok samples cannot all be missed.

Numbers are exact. Samples of one instant are read in the order of the table.
-/

namespace GpuMon.Metrics

open PyNum Cockpit

/-! ## The series -/

/-- An interface of the JSON list `net_ifaces`, in bytes a second. -/
structure NetIface where
  rxBps : Option ℚ := none
  txBps : Option ℚ := none
  deriving DecidableEq

/-- A sample with its interfaces and disks. -/
structure HistoryMetric extends ServerMetric where
  netIfaces : List NetIface := []
  diskIo : List DiskIo := []
  deriving DecidableEq

structure SeriesPoint where
  time : Int
  cpuPercent : ℚ
  memPercent : ℚ
  swapPercent : ℚ
  diskPercent : ℚ
  gpuUtil : ℚ
  gpuMemPercent : ℚ
  gpuMemUsedMb : ℚ
  gpuTemp : ℚ
  gpuPower : ℚ
  gpuClock : Int
  load1 : ℚ
  loadPerCore : ℚ
  netRxBps : ℚ
  netTxBps : ℚ
  diskReadBps : ℚ
  diskWriteBps : ℚ
  deriving DecidableEq

/-- `round(sum(values) / len(values), 1) if values else 0`. -/
def roundedAverage (values : List ℚ) : ℚ :=
  if values ≠ [] then roundTo 1 (values.sum / values.length) else 0

/-- `round(max(values), 1) if values else 0`. -/
def roundedMax (values : List ℚ) : ℚ := values.max?.elim 0 (roundTo 1)

/-- `used / total * 100 if total else 0`. -/
def percentOf (used total : ℚ) : ℚ := if total ≠ 0 then used / total * 100 else 0

/-- The readings of the cards that are there and not zero. -/
def readings (read : Gpu ℚ → Option ℚ) (gpus : List (Gpu ℚ)) : List ℚ :=
  (gpus.map fun g => (read g).getD 0).filter (· ≠ 0)

/-- The memory of the cards that say how much they have. -/
def memPcts (gpus : List (Gpu ℚ)) : List ℚ :=
  (gpus.filter fun g => 0 < g.memTotalMb.getD 0).map fun g =>
    g.memUsedMb.getD 0 / g.memTotalMb.getD 0 * 100

/-- The body of the loop. -/
def pointOf (m : HistoryMetric) : SeriesPoint where
  time := m.collectedAt
  cpuPercent := m.cpuPercent
  memPercent := roundTo 1 (percentOf m.memUsedMb m.memTotalMb)
  swapPercent := roundTo 1 (percentOf m.swapUsedMb m.swapTotalMb)
  diskPercent := roundedMax (m.disks.map Disk.percent)
  gpuUtil := roundedAverage (m.gpus.map fun g => g.utilization.getD 0)
  gpuMemPercent := roundedAverage (memPcts m.gpus)
  gpuMemUsedMb := roundTo 1 (m.gpus.map fun g => g.memUsedMb.getD 0).sum
  gpuTemp := roundedMax (readings Gpu.temperature m.gpus)
  gpuPower := roundTo 1 (readings Gpu.powerDraw m.gpus).sum
  gpuClock :=
    let clocks := readings Gpu.clockGraphics m.gpus
    if clocks ≠ [] then roundHalfEven (clocks.sum / clocks.length) else 0
  load1 := m.load1
  loadPerCore := if m.cpuCount ≠ 0 then roundTo 2 (m.load1 / m.cpuCount) else 0
  netRxBps := roundTo 1 (m.netIfaces.map fun i => i.rxBps.getD 0).sum
  netTxBps := roundTo 1 (m.netIfaces.map fun i => i.txBps.getD 0).sum
  diskReadBps := roundTo 1 (m.diskIo.map fun d => d.readBps.getD 0).sum
  diskWriteBps := roundTo 1 (m.diskIo.map fun d => d.writeBps.getD 0).sum

/-- `max(1, row_count // 720)`. -/
def stride (rowCount : Nat) : Nat := max 1 (rowCount / 720)

/-- A sample at its place is kept. -/
def isKept (stride : Nat) (m : HistoryMetric) (idx : Nat) : Bool :=
  m.status = .ok && idx % stride = 0

/-- The loop over the rows of the query, whose count is taken by a query with the same filters. -/
def history (rows : List HistoryMetric) : List SeriesPoint :=
  rows.zipIdx.filterMap fun p =>
    if isKept (stride rows.length) p.1 p.2 then some (pointOf p.1) else none

/-- The rows of the query. -/
def windowRows (metrics : List HistoryMetric) (serverId : Nat) (since : Int) :
    List HistoryMetric :=
  (metrics.filter fun m => m.serverId = serverId && since ≤ m.collectedAt).insertionSort
    fun a b => a.collectedAt ≤ b.collectedAt

/-- `server_history`. -/
def serverHistory (metrics : List HistoryMetric) (serverId : Nat) (now : Int) (hours : Nat) :
    List SeriesPoint :=
  history (windowRows metrics serverId (historySince now hours))

/-! ## What is kept -/

theorem stride_pos (n : Nat) : 0 < stride n := Nat.lt_of_lt_of_le Nat.zero_lt_one (Nat.le_max_left 1 _)

theorem history_eq_nil_iff (rows : List HistoryMetric) :
    history rows = [] ↔ ∀ i row, rows[i]? = some row → row.status = .ok →
      ¬stride rows.length ∣ i := by
  rw [history, List.filterMap_eq_nil_iff]
  constructor
  · intro h i row hRow hOk hPlace
    have hKept := h (row, i) (List.mem_zipIdx_iff_getElem?.mpr hRow)
    simp [isKept, hOk, Nat.mod_eq_zero_of_dvd hPlace] at hKept
  · rintro h ⟨row, i⟩ hMem
    have hRow := List.mem_zipIdx_iff_getElem?.mp hMem
    refine if_neg fun hKept => ?_
    simp only [isKept, Bool.and_eq_true, decide_eq_true_eq] at hKept
    exact h i row hRow hKept.1 (Nat.dvd_of_mod_eq_zero hKept.2)

/-- The multiples of a number below another. -/
theorem countP_dvd_range {s : Nat} (hs : 0 < s) (n : Nat) :
    (List.range n).countP (fun i => decide (i % s = 0)) = (n + s - 1) / s := by
  induction n with
  | zero => exact (Nat.div_eq_of_lt (by omega)).symm
  | succ n ih =>
    have hNext : n + 1 + s - 1 = (n + s - 1) + 1 := by omega
    have hShift : s ∣ (n + s - 1) + 1 ↔ n % s = 0 := by
      have hSum : (n + s - 1) + 1 = n + s := by omega
      rw [hSum, Nat.dvd_add_self_right, Nat.dvd_iff_mod_eq_zero]
    rw [List.range_succ, List.countP_append, ih, hNext, Nat.succ_div]
    simp [hShift]

/-- The places that are looked at. -/
theorem countP_places (rows : List HistoryMetric) {s : Nat} (hs : 0 < s) :
    rows.zipIdx.countP (fun q => decide (q.2 % s = 0)) = (rows.length + s - 1) / s := by
  rw [← countP_dvd_range hs, List.range_eq_range', ← List.zipIdx_map_snd 0 rows, List.countP_map]
  rfl

theorem length_history_le (rows : List HistoryMetric) : (history rows).length ≤ 1440 := by
  have hPos := stride_pos rows.length
  have hKept : (history rows).length ≤
      rows.zipIdx.countP fun q => decide (q.2 % stride rows.length = 0) := by
    rw [history, List.length_filterMap_eq_countP]
    refine List.countP_mono_left fun q _ hq => ?_
    by_cases h : isKept (stride rows.length) q.1 q.2 = true
    · rw [isKept, Bool.and_eq_true] at h
      exact h.2
    · rw [if_neg h] at hq
      cases hq
  rw [countP_places rows hPos] at hKept
  refine hKept.trans (Nat.le_of_lt_succ ((Nat.div_lt_iff_lt_mul hPos).mpr ?_))
  rw [stride]
  omega

/-- The ok samples. -/
def okCount (rows : List HistoryMetric) : Nat := rows.countP fun m => m.status = .ok

/-- Ok samples that are all missed stand beside the places of the stride. -/
theorem okCount_of_history_eq_nil {rows : List HistoryMetric} (h : history rows = []) :
    okCount rows + (rows.length + stride rows.length - 1) / stride rows.length ≤ rows.length := by
  have hOk : okCount rows = rows.zipIdx.countP fun q => q.1.status = .ok := by
    rw [okCount, ← List.zipIdx_map_fst 0 rows, List.countP_map, List.zipIdx_map_fst]
    rfl
  have hMissed : okCount rows ≤
      rows.zipIdx.countP fun q => !decide (q.2 % stride rows.length = 0) := by
    rw [hOk]
    refine List.countP_mono_left fun q hq hStatus => ?_
    have hPlace := (history_eq_nil_iff rows).mp h q.2 q.1 (List.mem_zipIdx_iff_getElem?.mp hq)
      (of_decide_eq_true hStatus)
    simpa using fun hZero => hPlace (Nat.dvd_of_mod_eq_zero hZero)
  have hAll := List.length_eq_countP_add_countP (l := rows.zipIdx)
    fun q => decide (q.2 % stride rows.length = 0)
  rw [List.length_zipIdx, countP_places rows (stride_pos _)] at hAll
  simp only [decide_eq_true_eq, decide_not] at hAll
  omega

/-! ## Samples that are missed -/

/-- A window whose samples are errors at the places of the stride. -/
def missedRows (time : Nat → Int) (n : Nat) : List HistoryMetric :=
  (List.range n).map fun i =>
    { id := i, serverId := 1, collectedAt := time i,
      status := if i % stride n = 0 then .error else .ok }

section Missed

variable {time : Nat → Int} {n : Nat}

theorem length_missedRows : (missedRows time n).length = n := by
  rw [missedRows, List.length_map, List.length_range]

theorem history_missedRows : history (missedRows time n) = [] := by
  rw [history_eq_nil_iff, length_missedRows]
  intro i row hRow hOk hPlace
  rw [missedRows, List.getElem?_map, Option.map_eq_some_iff] at hRow
  obtain ⟨j, hj, rfl⟩ := hRow
  obtain ⟨hLt, rfl⟩ := List.getElem?_eq_some_iff.mp hj
  rw [List.getElem_range, if_pos (Nat.mod_eq_zero_of_dvd hPlace)] at hOk
  cases hOk

/-- All the others are ok. -/
theorem okCount_missedRows (time : Nat → Int) (n : Nat) :
    okCount (missedRows time n) + (n + stride n - 1) / stride n = n := by
  have hAll := List.length_eq_countP_add_countP (l := List.range n)
    fun i => decide (i % stride n = 0)
  rw [List.length_range, countP_dvd_range (stride_pos n)] at hAll
  have hOk : okCount (missedRows time n) =
      (List.range n).countP fun i => !decide (i % stride n = 0) := by
    rw [okCount, missedRows, List.countP_map]
    refine List.countP_congr fun i _ => ?_
    by_cases hPlace : i % stride n = 0 <;> simp [hPlace]
  simp only [decide_eq_true_eq, decide_not] at hAll
  omega

theorem windowRows_missedRows (hTime : Monotone time) {since : Int} (hSince : ∀ i, since ≤ time i) :
    windowRows (missedRows time n) 1 since = missedRows time n := by
  have hFilter : (missedRows time n).filter
      (fun m => m.serverId = 1 && since ≤ m.collectedAt) = missedRows time n := by
    rw [List.filter_eq_self]
    intro m hm
    obtain ⟨i, -, rfl⟩ := List.mem_map.mp hm
    simp [hSince]
  rw [windowRows, hFilter]
  refine List.Pairwise.insertionSort_eq ?_
  rw [missedRows, List.pairwise_map]
  exact List.pairwise_lt_range.imp fun h => hTime h.le

end Missed

/-- So many samples cannot all be missed when half of them are ok. -/
theorem history_ne_nil {rows : List HistoryMetric}
    (hCount : rows.length < 1440 ∨ rows.length < 2160 ∧ rows.length % 2 = 1)
    (hHalf : rows.length ≤ 2 * okCount rows) (hSome : 0 < okCount rows) : history rows ≠ [] := by
  intro hNil
  have hMissed := okCount_of_history_eq_nil hNil
  by_cases hShort : rows.length < 1440
  · have hStride : stride rows.length = 1 := by
      rw [stride]
      omega
    rw [hStride] at hMissed
    omega
  · have hStride : stride rows.length = 2 := by
      rw [stride]
      omega
    rw [hStride] at hMissed
    omega

/-- For every other number of samples there is a window whose ok samples are all missed. -/
theorem half_okCount_missedRows {time : Nat → Int} {n : Nat} (hLong : 1440 ≤ n)
    (hCount : n < 2160 → n % 2 = 0) : n ≤ 2 * okCount (missedRows time n) := by
  have hOk := okCount_missedRows time n
  have hPos := stride_pos n
  have hPlaces : (n + stride n - 1) / stride n ≤ n / 2 := by
    by_cases hTwo : n < 2160
    · have hStride : stride n = 2 := by
        rw [stride]
        omega
      have hEven := hCount hTwo
      rw [hStride]
      omega
    · have hStride : 3 ≤ stride n ∧ stride n ≤ n / 720 := by
        rw [stride]
        omega
      refine Nat.le_of_lt_succ ((Nat.div_lt_iff_lt_mul hPos).mpr ?_)
      calc n + stride n - 1 < (n / 2 + 1) * 3 := by omega
        _ ≤ (n / 2 + 1) * stride n := Nat.mul_le_mul_left _ hStride.1
  omega

/-- A window of a server has a series when an ok sample stands at a place of the stride. With half
of the samples ok, that is sure for fewer than 1440 of them, and for an odd number below 2160. -/
theorem serverHistory_nonempty_iff (metrics : List HistoryMetric) (serverId : Nat) (now : Int)
    (hours : Nat) :
    (serverHistory metrics serverId now hours ≠ [] ↔
      ∃ i row, (windowRows metrics serverId (historySince now hours))[i]? = some row ∧
        row.status = .ok ∧
          stride (windowRows metrics serverId (historySince now hours)).length ∣ i) ∧
    (serverHistory metrics serverId now hours).length ≤ 1440 ∧
    ∀ n, (∀ metrics serverId now hours,
      (windowRows metrics serverId (historySince now hours)).length = n →
        n ≤ 2 * okCount (windowRows metrics serverId (historySince now hours)) →
        0 < okCount (windowRows metrics serverId (historySince now hours)) →
          serverHistory metrics serverId now hours ≠ []) ↔
      n < 1440 ∨ n < 2160 ∧ n % 2 = 1 := by
  refine ⟨?_, length_history_le _, fun n => ⟨fun h => ?_, ?_⟩⟩
  · rw [serverHistory, ne_eq, history_eq_nil_iff]
    simp only [not_forall, not_not, exists_prop]
  · by_contra hCount
    have hWindow : windowRows (missedRows (fun _ => 0) n) 1 (historySince 0 1) =
        missedRows (fun _ => 0) n :=
      windowRows_missedRows monotone_const fun _ => by decide
    have hHalf : n ≤ 2 * okCount (missedRows (fun _ => 0) n) :=
      half_okCount_missedRows (by omega) (by omega)
    have hEmpty := h (missedRows (fun _ => 0) n) 1 0 1
    rw [serverHistory, hWindow] at hEmpty
    exact hEmpty length_missedRows hHalf (by omega) history_missedRows
  · rintro hCount metrics serverId now hours rfl hHalf hSome
    exact history_ne_nil hCount hHalf hSome

/-- A day of samples, a minute apart, every second one an error. -/
def missedDay : List HistoryMetric := missedRows (fun i => minutes i) 1440

theorem serverHistory_misses_half :
    windowRows missedDay 1 (historySince (minutes 1440) 24) = missedDay ∧
      missedDay.length = 1440 ∧ okCount missedDay = 720 ∧
      serverHistory missedDay 1 (minutes 1440) 24 = [] := by
  have hTime : Monotone fun i : Nat => minutes i := fun i j hij => by
    simp only [minutes, seconds]
    omega
  have hSince : historySince (minutes 1440) 24 = 0 := by decide
  have hWindow : windowRows missedDay 1 (historySince (minutes 1440) 24) = missedDay := by
    rw [hSince, missedDay]
    refine windowRows_missedRows hTime fun i => ?_
    simp only [minutes, seconds]
    omega
  have hOk : okCount missedDay + (1440 + stride 1440 - 1) / stride 1440 = 1440 := by
    rw [missedDay]
    exact okCount_missedRows _ _
  have hStride : stride 1440 = 2 := by decide
  rw [hStride] at hOk
  refine ⟨hWindow, ?_, ?_, ?_⟩
  · rw [missedDay, length_missedRows]
  · generalize okCount missedDay = ok at hOk ⊢
    omega
  · rw [serverHistory, hWindow, missedDay, history_missedRows]

end GpuMon.Metrics

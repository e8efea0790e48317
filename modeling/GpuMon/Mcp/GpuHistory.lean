import GpuMon.Library.BatchLoop
import GpuMon.Metrics.History

/-!
# The history tool (`mcp_server/server.gpu_monitor_get_gpu_history`)

A client asks for at most `max_points` samples of a window. A longer answer of the monitor is
thinned: the samples at evenly spread places are kept, each place rounded to an integer.

* `indices_increasing`: the places are different ones, from the first sample to the last.
* `pointOf_ofPoint`: the numbers of the monitor are shown as they are.
* `pointCount_getGpuHistory`: so an answer that is thinned has as many points as were asked for.

The places are computed exactly. `Api` stands for the monitor and the search for the server in it.
-/

namespace GpuMon.Mcp

open PyNum BatchLoop

structure GpuMonitorApiError where
  message : Text
  deriving DecidableEq

/-- A sample of the payload; `none` is a key without a number. -/
structure HistoryRow where
  time : Option Int := none
  gpuUtil : Option ℚ := none
  gpuMemUsedMb : Option ℚ := none
  gpuMemPercent : Option ℚ := none
  gpuTemp : Option ℚ := none
  gpuPower : Option ℚ := none
  gpuClock : Option ℚ := none
  deriving DecidableEq

/-- The monitor sends the points of its own series. -/
def HistoryRow.ofPoint (p : Metrics.SeriesPoint) : HistoryRow where
  time := p.time
  gpuUtil := p.gpuUtil
  gpuMemUsedMb := p.gpuMemUsedMb
  gpuMemPercent := p.gpuMemPercent
  gpuTemp := p.gpuTemp
  gpuPower := p.gpuPower
  gpuClock := (p.gpuClock : ℚ)

/-- A server of the monitor: what is told of it, and its number. -/
structure Resolved (σ : Type) where
  id : Nat
  shown : σ

/-- `_resolve_server` and `api.get` of the history; an answer that is not a list is `none`. -/
structure Api (σ : Type) where
  resolveServer : Text → Except GpuMonitorApiError (Resolved σ)
  getHistory : (serverId : Nat) → (hours : Int) →
    Except GpuMonitorApiError (Option (List HistoryRow))

/-- `_as_list`. -/
def asList (payload : Option (List HistoryRow)) (label : Text) :
    Except GpuMonitorApiError (List HistoryRow) :=
  match payload with
  | some rows => .ok rows
  | none => .error ⟨"GPU Monitor returned an invalid " ++ label ++ " payload"⟩

theorem asList_eq_ok {payload : Option (List HistoryRow)} {label : Text}
    {rows : List HistoryRow} : asList payload label = .ok rows ↔ payload = some rows := by
  cases payload with
  | none => exact iff_of_false (nomatch ·) (nomatch ·)
  | some rows' =>
    exact ⟨fun h => congrArg some (Except.ok.inj h), fun h => congrArg Except.ok (Option.some.inj h)⟩

/-- `_number`. -/
def number (value : Option ℚ) : ℚ := value.getD 0

/-- `_rounded` with one digit. -/
def rounded (value : Option ℚ) : ℚ := roundTo 1 (number value)

/-! ## Thinning -/

/-- `(len(rows) - 1) / (max_points - 1)`. -/
def scale (n maxPoints : Nat) : ℚ := ((n : ℚ) - 1) / ((maxPoints : ℚ) - 1)

/-- `sorted({round(i * scale) for i in range(max_points)})`. -/
def indices (n maxPoints : Nat) : List Int :=
  ((List.range maxPoints).map fun (i : Nat) =>
    roundHalfEven (i * scale n maxPoints)).dedup.insertionSort (· ≤ ·)

/-- The rows that are shown. -/
def thinned (rows : List HistoryRow) (maxPoints : Nat) : List HistoryRow :=
  if maxPoints < rows.length then
    (indices rows.length maxPoints).filterMap fun index => rows[index.toNat]?
  else rows

/-! ## The places -/

section Places

variable {n m : Nat}

theorem one_lt_scale (hPoints : 2 ≤ m) (hLong : m < n) : 1 < scale n m := by
  have hPoints' : (2 : ℚ) ≤ m := by exact_mod_cast hPoints
  have hLong' : (m : ℚ) < n := by exact_mod_cast hLong
  rw [scale, one_lt_div (by linarith)]
  linarith

/-- The last place, before it is rounded. -/
theorem sub_one_mul_scale (n : Nat) (hPoints : 2 ≤ m) :
    ((m - 1 : Nat) : ℚ) * scale n m = ((n : Int) - 1 : Int) := by
  have hPoints' : (2 : ℚ) ≤ m := by exact_mod_cast hPoints
  have hNonzero : (m : ℚ) - 1 ≠ 0 := by linarith
  rw [Nat.cast_pred (by omega), scale, mul_div_cancel₀ _ hNonzero]
  push_cast
  rfl

/-- Steps longer than one do not meet after rounding. -/
theorem places_increasing (hPoints : 2 ≤ m) (hLong : m < n) :
    ((List.range m).map fun (i : Nat) => roundHalfEven (i * scale n m)).Pairwise (· < ·) := by
  have hScale := one_lt_scale hPoints hLong
  rw [List.pairwise_map]
  refine List.pairwise_lt_range.imp fun {i j} hij => roundHalfEven_lt_of_add_one_lt ?_
  have hStep : (i : ℚ) + 1 ≤ j := by exact_mod_cast hij
  calc (i : ℚ) * scale n m + 1 < i * scale n m + scale n m := by linarith
    _ = (i + 1) * scale n m := by ring
    _ ≤ j * scale n m := mul_le_mul_of_nonneg_right hStep (by linarith)

/-- So the set has them all, and they are in order already. -/
theorem indices_eq (hPoints : 2 ≤ m) (hLong : m < n) :
    indices n m = (List.range m).map fun (i : Nat) => roundHalfEven (i * scale n m) := by
  have hIncreasing := places_increasing hPoints hLong
  have hNodup : ((List.range m).map fun (i : Nat) => roundHalfEven (i * scale n m)).Nodup :=
    hIncreasing.imp fun h => ne_of_lt h
  rw [indices, hNodup.dedup]
  exact (hIncreasing.imp fun h => h.le).insertionSort_eq

theorem length_indices (hPoints : 2 ≤ m) (hLong : m < n) : (indices n m).length = m := by
  rw [indices_eq hPoints hLong, List.length_map, List.length_range]

theorem head?_indices (hPoints : 2 ≤ m) (hLong : m < n) : (indices n m).head? = some 0 := by
  have hZero : roundHalfEven (((0 : Nat) : ℚ) * scale n m) = 0 := by
    rw [Nat.cast_zero, zero_mul]
    exact roundHalfEven_intCast 0
  rw [indices_eq hPoints hLong, List.head?_map, List.head?_range, if_neg (by omega),
    Option.map_some, hZero]

theorem getLast?_indices (hPoints : 2 ≤ m) (hLong : m < n) :
    (indices n m).getLast? = some ((n : Int) - 1) := by
  rw [indices_eq hPoints hLong, List.getLast?_map, List.getLast?_range, if_neg (by omega),
    Option.map_some, sub_one_mul_scale n hPoints, roundHalfEven_intCast]

/-- A rounded step is at most one longer than the step. -/
theorem roundHalfEven_step_le (i : Nat) :
    roundHalfEven ((i + 1 : Nat) * scale n m) - roundHalfEven (i * scale n m) ≤
      ⌈scale n m⌉ + 1 := by
  have hHere := (abs_le.mp (abs_roundHalfEven_sub_le (i * scale n m))).1
  have hNext := (abs_le.mp (abs_roundHalfEven_sub_le ((i + 1 : Nat) * scale n m))).2
  have hCeil := Int.le_ceil (scale n m)
  have hStep : ((i + 1 : Nat) : ℚ) * scale n m = i * scale n m + scale n m := by
    push_cast
    ring
  rw [hStep] at hNext ⊢
  have hLe : (roundHalfEven (i * scale n m + scale n m) : ℚ) - roundHalfEven (i * scale n m) ≤
      ⌈scale n m⌉ + 1 := by linarith
  exact_mod_cast hLe

theorem steps_indices (hPoints : 2 ≤ m) (hLong : m < n) :
    (indices n m).IsChain fun a b => b - a ≤ ⌈scale n m⌉ + 1 := by
  rw [indices_eq hPoints hLong, List.isChain_map, List.isChain_range]
  exact fun i _ => roundHalfEven_step_le i

/-- No place is outside of the rows. -/
theorem mem_indices (hPoints : 2 ≤ m) (hLong : m < n) {index : Int} (h : index ∈ indices n m) :
    0 ≤ index ∧ index.toNat < n := by
  rw [indices_eq hPoints hLong, List.mem_map] at h
  obtain ⟨i, hi, rfl⟩ := h
  have hi' : i ≤ m - 1 := Nat.le_sub_one_of_lt (List.mem_range.mp hi)
  have hScale := one_lt_scale hPoints hLong
  have hLow : ((0 : Int) : ℚ) ≤ i * scale n m := by
    rw [Int.cast_zero]
    exact mul_nonneg i.cast_nonneg (by linarith)
  have hHigh : (i : ℚ) * scale n m ≤ ((n : Int) - 1 : Int) := by
    rw [← sub_one_mul_scale n hPoints]
    exact mul_le_mul_of_nonneg_right (by exact_mod_cast hi') (by linarith)
  have hFirst := (Int.le_floor.mpr hLow).trans (floor_le_roundHalfEven _)
  have hLast := (roundHalfEven_le_ceil _).trans (Int.ceil_le.mpr hHigh)
  omega

/-- With more samples than points, exactly as many places as points are read: different ones, from
the first sample to the last, and no two neighbours much further apart than the scale. -/
theorem indices_increasing (hPoints : 2 ≤ m) (hLong : m < n) :
    (indices n m).Pairwise (· < ·) ∧ (indices n m).length = m ∧
      (indices n m).head? = some 0 ∧ (indices n m).getLast? = some ((n : Int) - 1) ∧
      (indices n m).IsChain fun a b =>
        b - a ≤ ⌈((n : ℚ) - 1) / ((m : ℚ) - 1)⌉ + 1 := by
  refine ⟨?_, length_indices hPoints hLong, head?_indices hPoints hLong,
    getLast?_indices hPoints hLong, steps_indices hPoints hLong⟩
  rw [indices_eq hPoints hLong]
  exact places_increasing hPoints hLong

/-- A step of one and a half has a tie at every second place. -/
theorem indices_increasing_ties :
    (indices 28 19).Pairwise (· < ·) ∧ (indices 28 19).length = 19 ∧
      (indices 28 19).head? = some 0 ∧ (indices 28 19).getLast? = some (((28 : Nat) : Int) - 1) ∧
      (indices 28 19).IsChain fun a b =>
        b - a ≤ ⌈(((28 : Nat) : ℚ) - 1) / (((19 : Nat) : ℚ) - 1)⌉ + 1 :=
  indices_increasing (by omega) (by omega)

end Places

/-- As many rows are kept as were asked for. -/
theorem length_thinned {rows : List HistoryRow} {m : Nat} (hPoints : 2 ≤ m) :
    (thinned rows m).length = min rows.length m := by
  by_cases hLong : m < rows.length
  · rw [thinned, if_pos hLong, List.length_filterMap_eq_countP, Nat.min_eq_right hLong.le]
    refine Eq.trans ?_ (length_indices hPoints hLong)
    rw [List.countP_eq_length]
    intro index hMem
    have hIndex := (mem_indices hPoints hLong hMem).2
    rw [List.getElem?_eq_getElem hIndex]
    rfl
  · rw [thinned, if_neg hLong, Nat.min_eq_left (Nat.le_of_not_lt hLong)]

/-! ## The answer -/

structure HistoryPoint where
  time : Option Int
  utilizationPct : ℚ
  memoryUsedMb : ℚ
  memoryUsedPct : ℚ
  maximumTemperatureC : ℚ
  powerDrawW : ℚ
  averageGraphicsClockMhz : ℚ
  deriving DecidableEq

def pointOf (row : HistoryRow) : HistoryPoint where
  time := row.time
  utilizationPct := rounded row.gpuUtil
  memoryUsedMb := rounded row.gpuMemUsedMb
  memoryUsedPct := rounded row.gpuMemPercent
  maximumTemperatureC := rounded row.gpuTemp
  powerDrawW := rounded row.gpuPower
  averageGraphicsClockMhz := rounded row.gpuClock

theorem roundTo_roundedAverage (values : List ℚ) :
    roundTo 1 (Metrics.roundedAverage values) = Metrics.roundedAverage values := by
  unfold Metrics.roundedAverage
  split
  · exact roundTo_roundTo 1 _
  · exact roundTo_intCast 1 0

theorem roundTo_roundedMax (values : List ℚ) :
    roundTo 1 (Metrics.roundedMax values) = Metrics.roundedMax values := by
  unfold Metrics.roundedMax
  cases values.max? with
  | none => exact roundTo_intCast 1 0
  | some greatest => exact roundTo_roundTo 1 greatest

/-- The points of the monitor are rounded already. -/
theorem pointOf_ofPoint (m : Metrics.HistoryMetric) :
    pointOf (.ofPoint (Metrics.pointOf m)) = {
      time := some m.collectedAt
      utilizationPct := (Metrics.pointOf m).gpuUtil
      memoryUsedMb := (Metrics.pointOf m).gpuMemUsedMb
      memoryUsedPct := (Metrics.pointOf m).gpuMemPercent
      maximumTemperatureC := (Metrics.pointOf m).gpuTemp
      powerDrawW := (Metrics.pointOf m).gpuPower
      averageGraphicsClockMhz := (Metrics.pointOf m).gpuClock } := by
  show HistoryPoint.mk _ (roundTo 1 _) (roundTo 1 _) (roundTo 1 _) (roundTo 1 _) (roundTo 1 _)
    (roundTo 1 _) = _
  congr 1
  · exact roundTo_roundedAverage _
  · exact roundTo_roundTo 1 _
  · exact roundTo_roundedAverage _
  · exact roundTo_roundedMax _
  · exact roundTo_roundTo 1 _
  · exact roundTo_intCast 1 _

structure HistorySummary where
  averageUtilizationPct : ℚ
  maximumTemperatureC : ℚ
  averagePowerDrawW : ℚ
  deriving DecidableEq

def summaryOf (points : List HistoryPoint) : HistorySummary where
  averageUtilizationPct := Metrics.roundedAverage (points.map HistoryPoint.utilizationPct)
  maximumTemperatureC := Metrics.roundedMax (points.map HistoryPoint.maximumTemperatureC)
  averagePowerDrawW := Metrics.roundedAverage (points.map HistoryPoint.powerDrawW)

structure GpuHistory (σ : Type) where
  server : σ
  windowHours : Int
  pointCount : Nat
  summary : HistorySummary
  points : List HistoryPoint

/-- `gpu_monitor_get_gpu_history`. A `bool`, which is refused like a number out of range, is no
integer here. -/
def getGpuHistory {σ : Type} (api : Api σ) (server : Text) (hours maxPoints : Int) :
    Except GpuMonitorApiError (GpuHistory σ) :=
  if ¬(1 ≤ hours ∧ hours ≤ 168) then .error ⟨"hours must be between 1 and 168"⟩
  else if ¬(10 ≤ maxPoints ∧ maxPoints ≤ 720) then
    .error ⟨"max_points must be between 10 and 720"⟩
  else do
    let resolved ← api.resolveServer server
    let payload ← api.getHistory resolved.id hours
    let rows ← asList payload "GPU history"
    let points := (thinned rows maxPoints.toNat).map pointOf
    return {
      server := resolved.shown
      windowHours := hours
      pointCount := points.length
      summary := summaryOf points
      points := points }

/-- What an answer says of the requests behind it. -/
theorem getGpuHistory_eq_ok {σ : Type} {api : Api σ} {server : Text} {hours maxPoints : Int}
    {answer : GpuHistory σ} (h : getGpuHistory api server hours maxPoints = .ok answer) :
    (1 ≤ hours ∧ hours ≤ 168) ∧ (10 ≤ maxPoints ∧ maxPoints ≤ 720) ∧
      ∃ resolved rows, api.resolveServer server = .ok resolved ∧
        api.getHistory resolved.id hours = .ok (some rows) ∧
        answer = {
          server := resolved.shown
          windowHours := hours
          pointCount := (thinned rows maxPoints.toNat).length
          summary := summaryOf ((thinned rows maxPoints.toNat).map pointOf)
          points := (thinned rows maxPoints.toNat).map pointOf } := by
  unfold getGpuHistory at h
  by_cases hHours : 1 ≤ hours ∧ hours ≤ 168
  · by_cases hMax : 10 ≤ maxPoints ∧ maxPoints ≤ 720
    · rw [if_neg (not_not_intro hHours), if_neg (not_not_intro hMax)] at h
      obtain ⟨resolved, hResolved, h⟩ := ok_of_bind h
      obtain ⟨payload, hPayload, h⟩ := ok_of_bind h
      obtain ⟨rows, hRows, h⟩ := ok_of_bind h
      rw [asList_eq_ok] at hRows
      subst hRows
      refine ⟨hHours, hMax, resolved, rows, hResolved, hPayload, ?_⟩
      rw [← Except.ok.inj h, List.length_map]
    · rw [if_neg (not_not_intro hHours), if_pos hMax] at h
      cases h
  · rw [if_pos hHours] at h
    cases h

/-- A client never gets more points than it asked for, and fewer only when there are fewer. -/
theorem pointCount_getGpuHistory {σ : Type} {api : Api σ} {server : Text} {hours maxPoints : Int}
    {answer : GpuHistory σ} (h : getGpuHistory api server hours maxPoints = .ok answer) :
    ∃ resolved rows, api.getHistory resolved hours = .ok (some rows) ∧
      answer.points.length = answer.pointCount ∧
      (answer.pointCount : Int) = min (rows.length : Int) maxPoints := by
  obtain ⟨-, ⟨hMin, -⟩, resolved, rows, -, hPayload, rfl⟩ := getGpuHistory_eq_ok h
  have hLength : (thinned rows maxPoints.toNat).length = min rows.length maxPoints.toNat :=
    length_thinned (by omega)
  refine ⟨resolved.id, rows, hPayload, List.length_map _, ?_⟩
  show ((thinned rows maxPoints.toNat).length : Int) = _
  rw [hLength]
  omega

end GpuMon.Mcp

import GpuMon.Library.Dict
import GpuMon.Library.PyNum
import GpuMon.Models

/-!
# The hourly rollup (`scheduler._roll_hour`)

`rollHour` turns the raw samples of one closed hour into one `ServerMetricHourly` row per
server. Two kinds of columns come out of it:

* the averages, over the samples collected inside the hour;
* the card time (`gpu_sample_minutes`, `idle_held_gpu_minutes`), an integral over time: each
  sample counts until the next sample, until its own period has passed, or until the hour is
  over. The one sample before the hour that may still hold is consulted as well.

A server without raw samples in the hour keeps the rollup row it already has.
`rollHour_ok` says what the table looks like afterwards.
-/

namespace GpuMon.Rollup

open PyNum

/-- The tables of the rollup, with the constraints the database enforces on them. -/
structure Store where
  servers : List Nat
  metrics : List ServerMetric
  hourly : List ServerMetricHourly
  metricIds : (metrics.map ServerMetric.id).Nodup
  metricServer : ∀ m ∈ metrics, m.serverId ∈ servers
  hourlyKeys : (hourly.map fun r => (r.serverId, r.hour)).Nodup

theorem hourlyKeys_nil :
    (([] : List ServerMetricHourly).map fun r => (r.serverId, r.hour)).Nodup := List.nodup_nil

inductive Error
  /-- `uq_metric_hourly` rejects a second row for a server and hour. -/
  | integrity
  deriving DecidableEq

/-! ## The queries -/

/-- The raw samples of a server inside `[hourStart, hourEnd)`. -/
def hourRows (db : Store) (hourStart hourEnd : Int) (sid : Nat) : List ServerMetric :=
  db.metrics.filter fun m =>
    m.serverId = sid && hourStart ≤ m.collectedAt && m.collectedAt < hourEnd

def existingRows (db : Store) (hourStart : Int) (serverIds : List Nat) :
    List ServerMetricHourly :=
  db.hourly.filter fun r => decide (r.serverId ∈ serverIds) && r.hour = hourStart

def existingByServer (db : Store) (hourStart : Int) (serverIds : List Nat) :
    Dict Nat ServerMetricHourly :=
  Dict.ofList ((existingRows db hourStart serverIds).map fun r => (r.serverId, r))

/-- The last sample of a server before the hour, by `(collected_at, id)` descending. -/
def previousId (db : Store) (hourStart : Int) (sid : Nat) : Option Nat :=
  ((db.metrics.filter fun m => m.serverId = sid && m.collectedAt < hourStart).insertionSort
    fun a b => b.key ≤ a.key).head?.map ServerMetric.id

def previousByServer (db : Store) (hourStart : Int) (serverIds : List Nat) :
    Dict Nat ServerMetric :=
  let previousIds := (db.servers.filter fun s => s ∈ serverIds).map (previousId db hourStart)
  Dict.ofList ((db.metrics.filter fun m => some m.id ∈ previousIds).map fun m => (m.serverId, m))

/-! ## Card time -/

/-- `row.sample_interval_seconds or interval`. -/
def effectiveInterval (interval : Int) (row : ServerMetric) : Int :=
  match row.sampleIntervalSeconds with
  | some n => if n = 0 then interval else n
  | none => interval

/-- The condition under which a GPU of a sample counts as held idle. -/
def idleHeld (g : Gpu ℚ) : Bool :=
  let total := g.memTotalMb.getD 0
  let used := g.memUsedMb.getD 0
  let utilization := g.utilization.getD 0
  0 < total && 3 / 10 ≤ used / total && utilization ≤ 5

structure CardTime where
  gpuSampleMinutes : ℚ := 0
  idleHeldGpuMinutes : ℚ := 0
  gpuTimeEstimated : Bool := false

/-- The loop over the ordered samples. -/
def integrate (hourStart hourEnd : Int) (interval : Int) :
    List ServerMetric → CardTime → CardTime
  | [], acc => acc
  | row :: rest, acc =>
    if row.status ≠ .ok then integrate hourStart hourEnd interval rest acc
    else
      let sampledAt := row.collectedAt
      let nextTime := (rest.head?.map ServerMetric.collectedAt).getD hourEnd
      let expiresAt := sampledAt + seconds (effectiveInterval interval row)
      let secs := max 0 (totalSeconds
        (min (min nextTime expiresAt) hourEnd - max sampledAt hourStart))
      if secs = 0 then integrate hourStart hourEnd interval rest acc
      else
        let mins := secs / 60
        integrate hourStart hourEnd interval rest
          { gpuSampleMinutes := acc.gpuSampleMinutes + row.gpus.length * mins
            idleHeldGpuMinutes := row.gpus.foldl
              (fun idle g => if idleHeld g then idle + mins else idle) acc.idleHeldGpuMinutes
            gpuTimeEstimated := acc.gpuTimeEstimated || row.sampleIntervalSeconds.isNone }

/-! ## One rollup row -/

def average (values : List ℚ) : ℚ := values.sum / values.length

/-- `round(sum(values) / len(values), 1) if values else 0`. -/
def roundedAverage (values : List ℚ) : ℚ := if values = [] then 0 else roundTo 1 (average values)

/-- `round(max(values), 1) if values else 0`. -/
def roundedMax (values : List ℚ) : ℚ := (values.max?.map (roundTo 1)).getD 0

def memPercents (ok : List ServerMetric) : List ℚ :=
  (ok.filter fun r => r.memTotalMb ≠ 0).map fun r => r.memUsedMb / r.memTotalMb * 100

def gpuMemPercents (gpus : List (Gpu ℚ)) : List ℚ :=
  (gpus.filter fun g => 0 < g.memTotalMb.getD 0).map fun g =>
    g.memUsedMb.getD 0 / g.memTotalMb.getD 0 * 100

/-- The averages, which are left at their defaults when no sample of the hour is ok. -/
def withAverages (ok : List ServerMetric) (agg : ServerMetricHourly) : ServerMetricHourly :=
  if ok = [] then agg
  else
    let gpus := ok.flatMap ServerMetric.gpus
    let utils := gpus.map fun g => g.utilization.getD 0
    let powers := (gpus.map fun g => g.powerDraw.getD 0).filter (· ≠ 0)
    { agg with
      cpuAvg := roundedAverage (ok.map ServerMetric.cpuPercent)
      cpuMax := roundedMax (ok.map ServerMetric.cpuPercent)
      memAvgPct := roundedAverage (memPercents ok)
      gpuUtilAvg := roundedAverage utils
      gpuUtilMax := roundedMax utils
      gpuMemPctAvg := roundedAverage (gpuMemPercents gpus)
      gpuPowerAvg := roundedAverage powers
      netRxAvgBps := roundedAverage (ok.map ServerMetric.netRxBytes)
      netTxAvgBps := roundedAverage (ok.map ServerMetric.netTxBytes) }

/-- The samples to integrate over: those of the hour and the one carried in. -/
def ordered (serverRows : List ServerMetric) (previous : Option ServerMetric) :
    List ServerMetric :=
  (serverRows ++ previous.toList).insertionSort fun a b => a.key ≤ b.key

def aggregate (hourStart hourEnd : Int) (interval : Int) (sid : Nat)
    (serverRows : List ServerMetric) (previous : Option ServerMetric) : ServerMetricHourly :=
  let ok := serverRows.filter fun r => r.status = .ok
  let time := integrate hourStart hourEnd interval (ordered serverRows previous)
    { gpuTimeEstimated := ok.any fun r => r.sampleIntervalSeconds.isNone }
  withAverages ok
    { serverId := sid
      hour := hourStart
      samples := serverRows.length
      okSamples := ok.length
      idleHeldMinutes := truncate (time.idleHeldGpuMinutes + 1 / 1000000000)
      gpuSampleMinutes := some time.gpuSampleMinutes
      idleHeldGpuMinutes := some time.idleHeldGpuMinutes
      gpuTimeEstimated := time.gpuTimeEstimated }

/-! ## The loop over the servers -/

/-- A rollup row whose raw samples are gone: only the request to rebuild it is withdrawn. -/
def keepRow (row : ServerMetricHourly) : ServerMetricHourly :=
  if row.gpuSampleMinutes = none then { row with gpuTimeEstimated := false } else row

structure RollState where
  existing : Dict Nat ServerMetricHourly
  kept : List ServerMetricHourly
  aggregates : List ServerMetricHourly

def rollServer (db : Store) (hourStart hourEnd : Int) (interval : Int)
    (previous : Dict Nat ServerMetric) (st : RollState) (sid : Nat) : RollState :=
  match hourRows db hourStart hourEnd sid, st.existing.get? sid with
  | [], some row =>
    { st with existing := st.existing.erase sid, kept := st.kept ++ [keepRow row] }
  | serverRows, _ =>
    { st with aggregates := st.aggregates ++
        [aggregate hourStart hourEnd interval sid serverRows (previous.get? sid)] }

/-- `_roll_hour`. The rows still in `existing` after the loop are deleted. -/
def rollHour (db : Store) (hourStart hourEnd : Int) (serverIds : List Nat)
    (interval : Int) : Except Error Store :=
  let existing := existingByServer db hourStart serverIds
  let previous := previousByServer db hourStart serverIds
  let st := serverIds.foldl (rollServer db hourStart hourEnd interval previous)
    ⟨existing, [], []⟩
  let untouched := db.hourly.filter fun r =>
    !(decide (r.serverId ∈ serverIds) && r.hour = hourStart)
  let hourly : List ServerMetricHourly := untouched ++ st.kept ++ st.aggregates
  if h : (hourly.map fun r : ServerMetricHourly => (r.serverId, r.hour)).Nodup then
    .ok { db with hourly := hourly, hourlyKeys := h }
  else .error .integrity

/-! ## The table after a rollup -/

/-- A rollup row of this hour is kept: there are no raw samples to replace it with. -/
def keepsRow (db : Store) (hourStart hourEnd : Int) (existing : Dict Nat ServerMetricHourly)
    (sid : Nat) : Prop :=
  hourRows db hourStart hourEnd sid = [] ∧ (existing.get? sid).isSome

instance (db : Store) (hourStart hourEnd : Int) (existing : Dict Nat ServerMetricHourly)
    (sid : Nat) : Decidable (keepsRow db hourStart hourEnd existing sid) := by
  unfold keepsRow
  infer_instance

theorem rollServer_kept {db : Store} {hourStart hourEnd : Int} {interval : Int}
    {previous : Dict Nat ServerMetric} {st : RollState} {sid : Nat} {row : ServerMetricHourly}
    (hRows : hourRows db hourStart hourEnd sid = []) (hRow : st.existing.get? sid = some row) :
    rollServer db hourStart hourEnd interval previous st sid =
      { st with existing := st.existing.erase sid, kept := st.kept ++ [keepRow row] } := by
  simp only [rollServer, hRows, hRow]

theorem rollServer_computed {db : Store} {hourStart hourEnd : Int} {interval : Int}
    {previous : Dict Nat ServerMetric} {st : RollState} {sid : Nat}
    (h : ¬ keepsRow db hourStart hourEnd st.existing sid) :
    rollServer db hourStart hourEnd interval previous st sid =
      { st with aggregates := st.aggregates ++ [aggregate hourStart hourEnd interval sid
          (hourRows db hourStart hourEnd sid) (previous.get? sid)] } := by
  unfold rollServer
  split
  · rename_i row hRows hRow
    exact absurd ⟨hRows, by rw [hRow]; rfl⟩ h
  · rfl

/-- The loop, over distinct servers: each is kept or computed on its own. -/
theorem foldl_rollServer (db : Store) (hourStart hourEnd : Int) (interval : Int)
    (previous : Dict Nat ServerMetric) {serverIds : List Nat} (hNodup : serverIds.Nodup)
    (st : RollState) :
    let final := serverIds.foldl (rollServer db hourStart hourEnd interval previous) st
    final.kept = st.kept ++
        (serverIds.filter fun s => keepsRow db hourStart hourEnd st.existing s).filterMap
          (fun s => (st.existing.get? s).map keepRow) ∧
      final.aggregates = st.aggregates ++
        (serverIds.filter fun s => ¬ keepsRow db hourStart hourEnd st.existing s).map fun s =>
          aggregate hourStart hourEnd interval s (hourRows db hourStart hourEnd s)
            (previous.get? s) := by
  induction serverIds generalizing st with
  | nil => simp
  | cons sid rest ih =>
    obtain ⟨hNotMem, hRest⟩ := List.nodup_cons.mp hNodup
    rw [List.foldl_cons]
    by_cases hKeep : keepsRow db hourStart hourEnd st.existing sid
    · obtain ⟨hRows, hSome⟩ := hKeep
      obtain ⟨row, hRow⟩ := Option.isSome_iff_exists.mp hSome
      -- the row of `sid` leaves `existing`, which no later server looks at
      have hSame : ∀ s ∈ rest, (st.existing.erase sid).get? s = st.existing.get? s := by
        intro s hs
        rw [Dict.get?_erase, if_neg (fun h : s = sid => hNotMem (h ▸ hs))]
      have hKeepSame : ∀ s ∈ rest, (keepsRow db hourStart hourEnd (st.existing.erase sid) s ↔
          keepsRow db hourStart hourEnd st.existing s) := by
        intro s hs
        unfold keepsRow
        rw [hSame s hs]
      obtain ⟨hKept, hAgg⟩ := ih hRest
        { st with existing := st.existing.erase sid, kept := st.kept ++ [keepRow row] }
      rw [rollServer_kept hRows hRow]
      have hsid : keepsRow db hourStart hourEnd st.existing sid := ⟨hRows, hSome⟩
      refine ⟨?_, ?_⟩
      · rw [hKept, List.filter_cons_of_pos (by simpa using hsid)]
        simp only [List.filterMap_cons, hRow, Option.map_some, List.append_assoc,
          List.singleton_append]
        rw [List.filter_congr fun s hs => decide_eq_decide.mpr (hKeepSame s hs),
          List.filterMap_congr fun s hs => by rw [hSame s (List.mem_of_mem_filter hs)]]
      · rw [hAgg, List.filter_cons_of_neg (by simpa using hsid)]
        rw [List.filter_congr fun s hs =>
          decide_eq_decide.mpr (not_congr (hKeepSame s hs))]
    · obtain ⟨hKept, hAgg⟩ := ih hRest
        { st with aggregates := st.aggregates ++ [aggregate hourStart hourEnd interval sid
          (hourRows db hourStart hourEnd sid) (previous.get? sid)] }
      rw [rollServer_computed hKeep]
      refine ⟨?_, ?_⟩
      · rw [hKept, List.filter_cons_of_neg (by simpa using hKeep)]
      · rw [hAgg, List.filter_cons_of_pos (by simpa using hKeep)]
        simp only [List.map_cons, List.append_assoc, List.singleton_append]

theorem existing_some {db : Store} {hourStart : Int} {serverIds : List Nat} {sid : Nat}
    {row : ServerMetricHourly}
    (h : (existingByServer db hourStart serverIds).get? sid = some row) :
    row ∈ db.hourly ∧ row.serverId = sid ∧ row.hour = hourStart := by
  unfold existingByServer at h
  rw [Dict.get?_ofList_map] at h
  obtain ⟨hmem, hs⟩ := List.mem_filter.mp (List.mem_of_getLast? h)
  obtain ⟨hIn, hKey⟩ := List.mem_filter.mp hmem
  simp only [Bool.and_eq_true, decide_eq_true_eq] at hKey hs
  exact ⟨hIn, hs, hKey.2⟩

theorem existing_isSome {db : Store} {hourStart : Int} {serverIds : List Nat} {sid : Nat}
    (hsid : sid ∈ serverIds) :
    ((existingByServer db hourStart serverIds).get? sid).isSome ↔
      ∃ row ∈ db.hourly, row.serverId = sid ∧ row.hour = hourStart := by
  constructor
  · intro h
    obtain ⟨row, hrow⟩ := Option.isSome_iff_exists.mp h
    exact ⟨row, existing_some hrow⟩
  · rintro ⟨row, hIn, rfl, rfl⟩
    unfold existingByServer existingRows
    rw [Dict.get?_ofList_map, List.getLast?_isSome]
    refine List.ne_nil_of_mem (a := row) (List.mem_filter.mpr ⟨?_, by simp⟩)
    exact List.mem_filter.mpr ⟨hIn, by simp [hsid]⟩

@[simp] theorem keepRow_key (row : ServerMetricHourly) :
    ((keepRow row).serverId, (keepRow row).hour) = (row.serverId, row.hour) := by
  unfold keepRow
  split <;> rfl

@[simp] theorem aggregate_key (hourStart hourEnd : Int) (interval : Int) (sid : Nat)
    (serverRows : List ServerMetric) (previous : Option ServerMetric) :
    ((aggregate hourStart hourEnd interval sid serverRows previous).serverId,
      (aggregate hourStart hourEnd interval sid serverRows previous).hour) = (sid, hourStart) := by
  unfold aggregate withAverages
  dsimp only
  split <;> rfl

/-- The rollup rows of this hour after a call: one per listed server. -/
structure Rolled (db : Store) (hourStart hourEnd : Int) (serverIds : List Nat)
    (interval : Int) (db' : Store) : Prop where
  servers : db'.servers = db.servers
  metrics : db'.metrics = db.metrics
  hourly : db'.hourly =
    (db.hourly.filter fun r => !(decide (r.serverId ∈ serverIds) && r.hour = hourStart)) ++
      (serverIds.filter fun s => keepsRow db hourStart hourEnd
        (existingByServer db hourStart serverIds) s).filterMap
          (fun s => ((existingByServer db hourStart serverIds).get? s).map keepRow) ++
      (serverIds.filter fun s => ¬ keepsRow db hourStart hourEnd
        (existingByServer db hourStart serverIds) s).map fun s =>
          aggregate hourStart hourEnd interval s (hourRows db hourStart hourEnd s)
            ((previousByServer db hourStart serverIds).get? s)

/-- The keys of the rows put back for this hour are the listed servers, each once. -/
theorem rolled_keys (db : Store) (hourStart hourEnd : Int) (serverIds : List Nat)
    (interval : Int) :
    (((serverIds.filter fun s => keepsRow db hourStart hourEnd
        (existingByServer db hourStart serverIds) s).filterMap
          (fun s => ((existingByServer db hourStart serverIds).get? s).map keepRow) ++
      (serverIds.filter fun s => ¬ keepsRow db hourStart hourEnd
        (existingByServer db hourStart serverIds) s).map fun s =>
          aggregate hourStart hourEnd interval s (hourRows db hourStart hourEnd s)
            ((previousByServer db hourStart serverIds).get? s)).map
        fun r => (r.serverId, r.hour)).Perm (serverIds.map fun s => (s, hourStart)) := by
  have hKept : (((serverIds.filter fun s => keepsRow db hourStart hourEnd
      (existingByServer db hourStart serverIds) s).filterMap
        (fun s => ((existingByServer db hourStart serverIds).get? s).map keepRow)).map
          fun r => (r.serverId, r.hour)) =
      (serverIds.filter fun s => keepsRow db hourStart hourEnd
        (existingByServer db hourStart serverIds) s).map fun s => (s, hourStart) := by
    rw [List.map_filterMap, ← List.filterMap_eq_map]
    refine List.filterMap_congr fun s hs => ?_
    obtain ⟨-, hSome⟩ := of_decide_eq_true (List.mem_filter.mp hs).2
    obtain ⟨row, hrow⟩ := Option.isSome_iff_exists.mp hSome
    obtain ⟨-, rfl, rfl⟩ := existing_some hrow
    simp [hrow]
  rw [List.map_append, hKept, List.map_map]
  have hSplit := List.filter_append_perm (fun s => decide (keepsRow db hourStart hourEnd
    (existingByServer db hourStart serverIds) s)) serverIds
  refine .trans ?_ (hSplit.map fun s => (s, hourStart))
  rw [List.map_append]
  refine .append_left _ (.of_eq ?_)
  simp only [decide_not]
  exact List.map_congr_left fun s _ => aggregate_key ..

/-- Over distinct servers the call succeeds. -/
theorem rollHour_ok (db : Store) (hourStart hourEnd : Int) {serverIds : List Nat}
    (interval : Int) (hNodup : serverIds.Nodup) :
    ∃ db', rollHour db hourStart hourEnd serverIds interval = .ok db' ∧
      Rolled db hourStart hourEnd serverIds interval db' := by
  obtain ⟨hKept, hAgg⟩ := foldl_rollServer db hourStart hourEnd interval
    (previousByServer db hourStart serverIds) hNodup
    ⟨existingByServer db hourStart serverIds, [], []⟩
  have hUnique : ((db.hourly.filter fun r =>
      !(decide (r.serverId ∈ serverIds) && r.hour = hourStart)) ++
      (serverIds.foldl (rollServer db hourStart hourEnd interval
        (previousByServer db hourStart serverIds))
        ⟨existingByServer db hourStart serverIds, [], []⟩).kept ++
      (serverIds.foldl (rollServer db hourStart hourEnd interval
        (previousByServer db hourStart serverIds))
        ⟨existingByServer db hourStart serverIds, [], []⟩).aggregates |>.map
      fun r : ServerMetricHourly => (r.serverId, r.hour)).Nodup := by
    rw [hKept, hAgg, List.append_assoc, List.map_append]
    simp only [List.nil_append]
    have hKeys := rolled_keys db hourStart hourEnd serverIds interval
    refine List.Nodup.append (db.hourlyKeys.sublist (List.filter_sublist.map _))
      (hKeys.nodup_iff.mpr (hNodup.map fun a b h => (Prod.mk.inj h).1)) ?_
    intro key hOld hNew
    obtain ⟨r, hr, rfl⟩ := List.mem_map.mp hOld
    obtain ⟨s, hs, hEq⟩ := List.mem_map.mp (hKeys.mem_iff.mp hNew)
    obtain ⟨rfl, rfl⟩ := Prod.mk.inj hEq
    simp [hs] at hr
  refine ⟨_, dif_pos hUnique, rfl, rfl, ?_⟩
  dsimp only
  rw [hKept, hAgg]
  simp

/-- A server whose row is not kept gets exactly the row computed from its samples. -/
theorem Rolled.mem_iff {db db' : Store} {hourStart hourEnd : Int} {serverIds : List Nat}
    {interval : Int} (h : Rolled db hourStart hourEnd serverIds interval db') {sid : Nat}
    (hsid : sid ∈ serverIds)
    (hRolled : ¬ (hourRows db hourStart hourEnd sid = [] ∧
      ∃ row ∈ db.hourly, row.serverId = sid ∧ row.hour = hourStart))
    (row : ServerMetricHourly) :
    (row ∈ db'.hourly ∧ row.serverId = sid ∧ row.hour = hourStart) ↔
      row = aggregate hourStart hourEnd interval sid (hourRows db hourStart hourEnd sid)
        ((previousByServer db hourStart serverIds).get? sid) := by
  have hNotKept : ¬ keepsRow db hourStart hourEnd (existingByServer db hourStart serverIds) sid := by
    rw [keepsRow, existing_isSome hsid]
    exact hRolled
  have hAgg : aggregate hourStart hourEnd interval sid (hourRows db hourStart hourEnd sid)
      ((previousByServer db hourStart serverIds).get? sid) ∈ db'.hourly := by
    rw [h.hourly]
    refine List.mem_append_right _ (List.mem_map.mpr ⟨sid, ?_, rfl⟩)
    exact List.mem_filter.mpr ⟨hsid, by simpa using hNotKept⟩
  have hKey := aggregate_key hourStart hourEnd interval sid (hourRows db hourStart hourEnd sid)
    ((previousByServer db hourStart serverIds).get? sid)
  constructor
  · rintro ⟨hMem, rfl, rfl⟩
    exact List.inj_on_of_nodup_map db'.hourlyKeys hMem hAgg hKey.symm
  · rintro rfl
    exact ⟨hAgg, (Prod.mk.inj hKey).1, (Prod.mk.inj hKey).2⟩

/-- What a rollup leaves of a server whose row it computes. -/
theorem rollHour_row (db : Store) (hourStart hourEnd : Int) {serverIds : List Nat}
    (interval : Int) (hNodup : serverIds.Nodup) {sid : Nat} (hsid : sid ∈ serverIds)
    (hRolled : ¬ (hourRows db hourStart hourEnd sid = [] ∧
      ∃ row ∈ db.hourly, row.serverId = sid ∧ row.hour = hourStart)) :
    ∃ db', rollHour db hourStart hourEnd serverIds interval = .ok db' ∧
      ∀ row, (row ∈ db'.hourly ∧ row.serverId = sid ∧ row.hour = hourStart) ↔
        row = aggregate hourStart hourEnd interval sid (hourRows db hourStart hourEnd sid)
          ((previousByServer db hourStart serverIds).get? sid) := by
  obtain ⟨db', hOk, hRolledTo⟩ := rollHour_ok db hourStart hourEnd interval hNodup
  exact ⟨db', hOk, hRolledTo.mem_iff hsid hRolled⟩

end GpuMon.Rollup

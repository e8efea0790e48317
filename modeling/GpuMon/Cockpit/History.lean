import GpuMon.Cockpit.Power

/-!
# The history of the cluster (`cockpit._cluster_history`)

The ok samples of the last hours fall into buckets of one minute. A server that is polled more
often than once a minute has several samples in a bucket; the power is averaged over them, the
rates of the network and of the disks are added up.

* `powerTotal_eq`: the power of a bucket is the sum of the servers' means.
* `clusterHistory_totals_iff`: the other totals are so exactly when no server has several samples
  in a minute that add up to anything.

Times are in microseconds, numbers are exact.
-/

namespace GpuMon.Cockpit

open Grouping PyNum

/-! ## Samples and buckets -/

/-- A disk of the JSON list `disk_io`, in bytes a second. -/
structure DiskIo where
  readBps : Option ℚ := none
  writeBps : Option ℚ := none
  deriving DecidableEq

/-- A sample with its disks; a card with a memory size has its used memory too, since the source
reads the one without a default when it finds the other. -/
structure CockpitMetric extends ServerMetric where
  diskIo : List DiskIo := []
  memUsed : ∀ g ∈ gpus, g.memTotalMb.getD 0 ≠ 0 → g.memUsedMb.isSome := by decide

def CockpitMetric.watts (m : CockpitMetric) : ℚ := gpuWatts m.toServerMetric

structure GpuTotals where
  utilTotal : ℚ := 0
  utilCount : Nat := 0
  memTotal : ℚ := 0
  memCount : Nat := 0
  tempMax : ℚ := 0
  deriving DecidableEq

structure Bucket where
  cpuTotal : ℚ := 0
  cpuCount : Nat := 0
  memTotal : ℚ := 0
  memCount : Nat := 0
  gpu : GpuTotals := {}
  netRxTotal : ℚ := 0
  netTxTotal : ℚ := 0
  diskReadTotal : ℚ := 0
  diskWriteTotal : ℚ := 0
  gpuPowerBySrv : Dict Nat (ℚ × Nat) := Dict.empty
  deriving DecidableEq

/-- The body of the loop over the cards. -/
def addGpu (t : GpuTotals) (g : Gpu ℚ) : GpuTotals :=
  let total := g.memTotalMb.getD 0
  { utilTotal := t.utilTotal + g.utilization.getD 0
    utilCount := t.utilCount + 1
    memTotal := if total ≠ 0 then t.memTotal + g.memUsedMb.getD 0 / total * 100 else t.memTotal
    memCount := if total ≠ 0 then t.memCount + 1 else t.memCount
    tempMax := max t.tempMax (g.temperature.getD 0) }

def addPower (p : ℚ × Nat) (m : CockpitMetric) : ℚ × Nat := (p.1 + m.watts, p.2 + 1)

/-- The body of the loop over the samples. -/
def addSample (b : Bucket) (m : CockpitMetric) : Bucket :=
  { cpuTotal := b.cpuTotal + m.cpuPercent
    cpuCount := b.cpuCount + 1
    memTotal := if m.memTotalMb ≠ 0 then b.memTotal + m.memUsedMb / m.memTotalMb * 100
      else b.memTotal
    memCount := if m.memTotalMb ≠ 0 then b.memCount + 1 else b.memCount
    gpu := m.gpus.foldl addGpu b.gpu
    netRxTotal := b.netRxTotal + m.netRxBytes
    netTxTotal := b.netTxTotal + m.netTxBytes
    diskReadTotal := m.diskIo.foldl (fun s d => s + d.readBps.getD 0) b.diskReadTotal
    diskWriteTotal := m.diskIo.foldl (fun s d => s + d.writeBps.getD 0) b.diskWriteTotal
    gpuPowerBySrv := b.gpuPowerBySrv.set m.serverId
      (addPower ((b.gpuPowerBySrv.get? m.serverId).getD (0, 0)) m) }

/-- The minute of a sample, counted from the epoch. -/
def minuteOf (m : CockpitMetric) : Int := m.collectedAt / minutes 1

/-- The rows of the query. -/
def historyRows (metrics : List CockpitMetric) (since : Int) : List CockpitMetric :=
  (metrics.filter fun m => decide (since ≤ m.collectedAt) && m.status = .ok).insertionSort
    fun a b => a.collectedAt ≤ b.collectedAt

def historyBuckets (metrics : List CockpitMetric) (since : Int) : Dict Int Bucket :=
  foldAt minuteOf {} addSample (historyRows metrics since)

/-! ## The series -/

/-- `_mean`. -/
def roundedMean (total : ℚ) (count : Nat) : ℚ := if count ≠ 0 then roundTo 1 (total / count) else 0

/-- The power of a bucket before it is rounded. -/
def powerTotal (b : Bucket) : ℚ :=
  (b.gpuPowerBySrv.entries.map fun p => p.2.1 / (p.2.2 : ℚ)).sum

structure Point where
  time : Int
  cpuPercent : ℚ
  memPercent : ℚ
  gpuUtil : ℚ
  gpuMemPercent : ℚ
  gpuTemp : ℚ
  gpuPower : ℚ
  netBps : ℚ
  netBpsTx : ℚ
  diskBps : ℚ
  diskBpsWrite : ℚ
  deriving DecidableEq

def pointOf (minute : Int) (b : Bucket) : Point where
  time := minutes minute
  cpuPercent := roundedMean b.cpuTotal b.cpuCount
  memPercent := roundedMean b.memTotal b.memCount
  gpuUtil := roundedMean b.gpu.utilTotal b.gpu.utilCount
  gpuMemPercent := roundedMean b.gpu.memTotal b.gpu.memCount
  gpuTemp := roundTo 1 b.gpu.tempMax
  gpuPower := roundTo 1 (powerTotal b)
  netBps := roundTo 1 b.netRxTotal
  netBpsTx := roundTo 1 b.netTxTotal
  diskBps := roundTo 1 b.diskReadTotal
  diskBpsWrite := roundTo 1 b.diskWriteTotal

/-- `since` of a query over so many hours. -/
def historySince (now : Int) (hours : Nat) : Int := now - minutes (hours * 60)

/-- `_cluster_history`. -/
def clusterHistory (metrics : List CockpitMetric) (now : Int) (hours : Nat) : List Point :=
  ((historyBuckets metrics (historySince now hours)).entries.insertionSort
    fun p q => p.1 ≤ q.1).map fun p => pointOf p.1 p.2

theorem mem_clusterHistory {metrics : List CockpitMetric} {now : Int} {hours : Nat} {point : Point} :
    point ∈ clusterHistory metrics now hours ↔
      ∃ minute b, (historyBuckets metrics (historySince now hours)).get? minute = some b ∧
        point = pointOf minute b := by
  simp only [clusterHistory, List.mem_map, List.mem_insertionSort, Prod.exists,
    Dict.get?_eq_some_iff, @eq_comm _ point]

/-! ## Totals of a bucket -/

/-- The rates that a bucket adds up. -/
inductive Rate
  | netRx
  | netTx
  | diskRead
  | diskWrite
  deriving DecidableEq

namespace Rate

/-- The rate of one sample. -/
def of : Rate → CockpitMetric → ℚ
  | netRx, m => m.netRxBytes
  | netTx, m => m.netTxBytes
  | diskRead, m => (m.diskIo.map fun d => d.readBps.getD 0).sum
  | diskWrite, m => (m.diskIo.map fun d => d.writeBps.getD 0).sum

/-- The total of a bucket. -/
def totalOf : Rate → Bucket → ℚ
  | netRx, b => b.netRxTotal
  | netTx, b => b.netTxTotal
  | diskRead, b => b.diskReadTotal
  | diskWrite, b => b.diskWriteTotal

theorem totalOf_addSample (rate : Rate) (b : Bucket) (m : CockpitMetric) :
    rate.totalOf (addSample b m) = rate.totalOf b + rate.of m := by
  have hDisks : ∀ (f : DiskIo → ℚ) (s : ℚ),
      m.diskIo.foldl (fun s d => s + f d) s = s + (m.diskIo.map f).sum := fun f s => foldl_add f _ s
  cases rate with
  | netRx => rfl
  | netTx => rfl
  | diskRead => exact hDisks _ _
  | diskWrite => exact hDisks _ _

/-- A bucket adds the rates of all of its samples. -/
theorem totalOf_foldl (rate : Rate) (rows : List CockpitMetric) :
    rate.totalOf (rows.foldl addSample {}) = total rate.of rows := by
  have hFold : rate.totalOf (rows.foldl addSample {}) =
      rows.foldl (fun s m => s + rate.of m) (rate.totalOf {}) :=
    (List.foldl_hom rate.totalOf fun b m => (totalOf_addSample rate b m).symm).symm
  rw [hFold, foldl_add]
  cases rate <;> exact zero_add _

end Rate

theorem foldl_addPower (rows : List CockpitMetric) (p : ℚ × Nat) :
    rows.foldl addPower p = (p.1 + total CockpitMetric.watts rows, p.2 + rows.length) := by
  induction rows generalizing p with
  | nil => simp
  | cons m rows ih =>
    rw [List.foldl_cons, ih, total_cons, List.length_cons, addPower]
    congr 1
    · rw [add_assoc]
    · omega

/-! ## Servers of a bucket -/

section Servers

variable (rows : List CockpitMetric)

/-- The servers that have samples among `rows`. -/
def sampledIn : Finset Nat := keys (fun m => m.serverId) rows

/-- The samples of a server. -/
def samplesOf (sid : Nat) : List CockpitMetric := group (fun m => m.serverId) sid rows

theorem gpuPowerBySrv_foldl : (rows.foldl addSample {}).gpuPowerBySrv =
    foldAt (fun m => m.serverId) (0, 0) addPower rows :=
  (List.foldl_hom Bucket.gpuPowerBySrv fun _ _ => rfl).symm

/-- The power of a bucket: the mean of each server's samples, added up. -/
theorem powerTotal_eq : powerTotal (rows.foldl addSample {}) =
    ∑ sid ∈ sampledIn rows, mean CockpitMetric.watts (samplesOf rows sid) := by
  rw [powerTotal, gpuPowerBySrv_foldl, sum_entries_foldAt fun p : ℚ × Nat => p.1 / (p.2 : ℚ)]
  refine Finset.sum_congr rfl fun sid _ => ?_
  rw [foldl_addPower, zero_add, zero_add, mean, samplesOf]

/-- The power and the rates of a bucket, as the sums of the means of each server. -/
structure SumsOfMeans (b : Bucket) : Prop where
  power : powerTotal b = ∑ sid ∈ sampledIn rows, mean CockpitMetric.watts (samplesOf rows sid)
  rate : ∀ rate : Rate,
    rate.totalOf b = ∑ sid ∈ sampledIn rows, mean rate.of (samplesOf rows sid)

/-- No server is counted several times: what it adds to a rate is the mean of its samples. -/
def CountedOnce : Prop :=
  ∀ (rate : Rate) (sid : Nat), total rate.of (samplesOf rows sid) = mean rate.of (samplesOf rows sid)

/-- A server with several samples has rates that add up to nothing. -/
def SampledOnce : Prop :=
  ∀ (rate : Rate) (sid : Nat),
    (samplesOf rows sid).length ≤ 1 ∨ total rate.of (samplesOf rows sid) = 0

theorem countedOnce_iff : CountedOnce rows ↔ SampledOnce rows :=
  forall_congr' fun _ => forall_congr' fun _ => total_eq_mean_iff

theorem sumsOfMeans_of_countedOnce (h : CountedOnce rows) :
    SumsOfMeans rows (rows.foldl addSample {}) where
  power := powerTotal_eq rows
  rate := fun rate => by
    rw [rate.totalOf_foldl, ← sum_total rate.of (Finset.Subset.refl (sampledIn rows))]
    exact Finset.sum_congr rfl fun sid _ => h rate sid

/-- Without negative rates the totals alone tell. -/
theorem sampledOnce_of_sums (hNonneg : ∀ rate : Rate, ∀ m ∈ rows, 0 ≤ rate.of m)
    (h : SumsOfMeans rows (rows.foldl addSample {})) : SampledOnce rows := by
  intro rate
  have hRate := h.rate rate
  rw [rate.totalOf_foldl] at hRate
  exact (total_eq_sum_mean_iff (hNonneg rate)).mp hRate

end Servers

/-- The samples of one bucket. -/
def bucketRows (metrics : List CockpitMetric) (since minute : Int) : List CockpitMetric :=
  group minuteOf minute (historyRows metrics since)

theorem historyBuckets_get? {metrics : List CockpitMetric} {since minute : Int} {b : Bucket} :
    (historyBuckets metrics since).get? minute = some b ↔
      bucketRows metrics since minute ≠ [] ∧
        (bucketRows metrics since minute).foldl addSample {} = b := by
  rw [historyBuckets, get?_foldAt, bucketRows]
  split <;> simp_all

/-- A minute without samples has no bucket, and no server in it. -/
theorem sampledOnce_of_buckets {rows : List CockpitMetric} (h : rows ≠ [] → SampledOnce rows) :
    SampledOnce rows := by
  by_cases hNil : rows = []
  · rw [hNil]
    exact fun _ _ => .inl (Nat.zero_le 1)
  · exact h hNil

/-- In every bucket the rates are the sums of the servers' means, with no server counted several
times, exactly when no server with several samples in a minute has a rate at all; the power of
every point is such a sum. -/
theorem clusterHistory_totals_iff (metrics : List CockpitMetric) (now : Int) (hours : Nat) :
    ((∀ minute b, (historyBuckets metrics (historySince now hours)).get? minute = some b →
        SumsOfMeans (bucketRows metrics (historySince now hours) minute) b ∧
          CountedOnce (bucketRows metrics (historySince now hours) minute)) ↔
      ∀ minute, SampledOnce (bucketRows metrics (historySince now hours) minute)) ∧
    ((∀ m ∈ metrics, ∀ rate : Rate, 0 ≤ rate.of m) →
      ((∀ minute b, (historyBuckets metrics (historySince now hours)).get? minute = some b →
          SumsOfMeans (bucketRows metrics (historySince now hours) minute) b) ↔
        ∀ minute, SampledOnce (bucketRows metrics (historySince now hours) minute))) ∧
    ∀ point ∈ clusterHistory metrics now hours, ∃ minute, point.gpuPower =
      roundTo 1 (∑ sid ∈ sampledIn (bucketRows metrics (historySince now hours) minute),
        mean CockpitMetric.watts
          (samplesOf (bucketRows metrics (historySince now hours) minute) sid)) := by
  refine ⟨?_, fun hNonneg => ?_, fun point hPoint => ?_⟩
  · refine ⟨fun h minute => sampledOnce_of_buckets fun hSome => ?_, fun hOnce minute b hGet => ?_⟩
    · exact (countedOnce_iff _).mp (h minute _ (historyBuckets_get?.mpr ⟨hSome, rfl⟩)).2
    · obtain ⟨-, rfl⟩ := historyBuckets_get?.mp hGet
      have hCounted := (countedOnce_iff _).mpr (hOnce minute)
      exact ⟨sumsOfMeans_of_countedOnce _ hCounted, hCounted⟩
  · refine ⟨fun h minute => sampledOnce_of_buckets fun hSome => ?_, fun hOnce minute b hGet => ?_⟩
    · refine sampledOnce_of_sums _ (fun rate m hm => hNonneg m ?_ rate)
        (h minute _ (historyBuckets_get?.mpr ⟨hSome, rfl⟩))
      have hRow : m ∈ historyRows metrics (historySince now hours) := (mem_group.mp hm).1
      exact List.mem_of_mem_filter ((List.mem_insertionSort _).mp hRow)
    · obtain ⟨-, rfl⟩ := historyBuckets_get?.mp hGet
      exact sumsOfMeans_of_countedOnce _ ((countedOnce_iff _).mpr (hOnce minute))
  · obtain ⟨minute, b, hGet, rfl⟩ := mem_clusterHistory.mp hPoint
    obtain ⟨-, rfl⟩ := historyBuckets_get?.mp hGet
    exact ⟨minute, congrArg (roundTo 1) (powerTotal_eq _)⟩

/-- A server that is polled twice in one minute, at 100 bytes a second each time. -/
def polledTwice : List CockpitMetric :=
  [{ id := 1, serverId := 1, collectedAt := 0, netRxBytes := 100 },
    { id := 2, serverId := 1, collectedAt := 1, netRxBytes := 100 }]

/-- Its rate is counted twice. -/
theorem polledTwice_doubled : ∃ b, (historyBuckets polledTwice 0).get? 0 = some b ∧
    b.netRxTotal = 200 ∧
    ∑ sid ∈ sampledIn (bucketRows polledTwice 0 0),
      mean Rate.netRx.of (samplesOf (bucketRows polledTwice 0 0) sid) = 100 ∧
    ¬ SumsOfMeans (bucketRows polledTwice 0 0) b := by
  have hMean : ∑ sid ∈ sampledIn (bucketRows polledTwice 0 0),
      mean Rate.netRx.of (samplesOf (bucketRows polledTwice 0 0) sid) = 100 := by decide +kernel
  have hTotal : Rate.netRx.totalOf ((bucketRows polledTwice 0 0).foldl addSample {}) = 200 := by
    decide +kernel
  refine ⟨_, historyBuckets_get?.mpr ⟨by decide +kernel, rfl⟩, hTotal, hMean, fun h => ?_⟩
  have hRate := h.rate .netRx
  rw [hTotal, hMean] at hRate
  exact absurd hRate (by decide)

end GpuMon.Cockpit

import GpuMon.Library.Grouping
import GpuMon.Library.PyNum
import GpuMon.Models

/-!
# The current power of the cluster (`cockpit._cluster_power_now`)

The query joins every sample with the time of its server's newest ok sample. The rows it returns
are not filtered by their status, and several samples of a server may carry the same time.

* `countsLatestOnce_iff`: each server adds the power of its newest sample, once, exactly when the
  other samples that the join returns for it add up to nothing.
-/

namespace GpuMon.Cockpit

open Grouping PyNum

/-! ## The query -/

/-- `sum(g.get("power_draw", 0) or 0 for g in (gpus or []))`. -/
def gpuWatts (m : ServerMetric) : ℚ := (m.gpus.map fun g => g.powerDraw.getD 0).sum

/-- `max(collected_at)` of the ok samples of a server. -/
def lastOkAt (metrics : Table ServerMetric) (sid : Nat) : Option Int :=
  ((metrics.rows.filter fun m => m.serverId = sid && m.status = .ok).map
    ServerMetric.collectedAt).max?

/-- The rows of the join. -/
def joinedRows (metrics : Table ServerMetric) : List ServerMetric :=
  metrics.rows.filter fun m => some m.collectedAt = lastOkAt metrics m.serverId

structure PowerNow where
  totalW : ℚ
  serversReporting : Nat
  deriving DecidableEq

/-- The body of the loop. -/
def addRow (now : PowerNow) (m : ServerMetric) : PowerNow :=
  let w := gpuWatts m
  if w ≠ 0 then ⟨now.totalW + w, now.serversReporting + 1⟩ else now

/-- The totals before they are rounded. -/
def powerTotals (metrics : Table ServerMetric) : PowerNow := (joinedRows metrics).foldl addRow ⟨0, 0⟩

/-- `_cluster_power_now`. -/
def clusterPowerNow (metrics : Table ServerMetric) : PowerNow :=
  let now := powerTotals metrics
  ⟨roundTo 1 now.totalW, now.serversReporting⟩

/-! ## What it stands for -/

section Latest

variable (metrics : Table ServerMetric)

/-- The newest sample of a server, by `(collected_at, id)`. -/
noncomputable def latestSample (sid : Nat) : Option ServerMetric :=
  (metrics.rows.filter fun m => m.serverId = sid).argmax ServerMetric.key

/-- The power of the newest sample, if it is ok. -/
noncomputable def latestWatts (sid : Nat) : ℚ :=
  match latestSample metrics sid with
  | some m => if m.status = .ok then gpuWatts m else 0
  | none => 0

/-- The servers that have samples. -/
def sampledServers : Finset Nat := keys ServerMetric.serverId metrics.rows

/-- The samples of a server at one time. -/
def rowsAt (sid : Nat) (t : Int) : List ServerMetric :=
  metrics.rows.filter fun m => m.serverId = sid && m.collectedAt = t

/-- The total is the sum of the newest powers, and each server has its own in it. -/
structure CountsLatestOnce : Prop where
  sum : (powerTotals metrics).totalW = ∑ sid ∈ sampledServers metrics, latestWatts metrics sid
  share : ∀ sid, total gpuWatts (group ServerMetric.serverId sid (joinedRows metrics)) =
    latestWatts metrics sid

/-- Nothing else of a server draws power at the time the join looks at. -/
structure LatestAlone : Prop where
  ok : ∀ sid m, latestSample metrics sid = some m → m.status = .ok →
    total gpuWatts ((rowsAt metrics sid m.collectedAt).erase m) = 0
  error : ∀ sid m, latestSample metrics sid = some m → m.status = .error →
    ∀ t, lastOkAt metrics sid = some t → total gpuWatts (rowsAt metrics sid t) = 0

end Latest

section Join

variable {metrics : Table ServerMetric} {sid : Nat} {m : ServerMetric}

theorem totalW_eq (metrics : Table ServerMetric) :
    (powerTotals metrics).totalW = total gpuWatts (joinedRows metrics) := by
  have hFold : ∀ (rows : List ServerMetric) (now : PowerNow),
      (rows.foldl addRow now).totalW = now.totalW + total gpuWatts rows := by
    intro rows
    induction rows with
    | nil => simp
    | cons m rows ih =>
      intro now
      rw [List.foldl_cons, ih, total_cons, ← add_assoc]
      congr 1
      unfold addRow
      dsimp only
      split
      · rfl
      · rename_i hZero
        rw [not_not.mp hZero, add_zero]
  simp [powerTotals, hFold]

theorem group_joinedRows (metrics : Table ServerMetric) (sid : Nat) :
    group ServerMetric.serverId sid (joinedRows metrics) =
      (lastOkAt metrics sid).elim [] (rowsAt metrics sid) := by
  unfold group joinedRows
  rw [List.filter_filter]
  cases h : lastOkAt metrics sid with
  | none =>
    rw [Option.elim_none, List.filter_eq_nil_iff]
    intro m _ hm
    obtain ⟨hServer, hAt⟩ := Bool.and_eq_true_iff.mp hm
    rw [of_decide_eq_true hServer, h] at hAt
    cases hAt
  | some t =>
    refine List.filter_congr fun m _ => ?_
    by_cases hServer : m.serverId = sid
    · simp [hServer, h]
    · simp [hServer]

theorem latestSample_mem (h : latestSample metrics sid = some m) :
    m ∈ metrics.rows ∧ m.serverId = sid := by
  simpa using List.mem_filter.mp (List.argmax_mem h)

theorem lastOkAt_of_latest (h : latestSample metrics sid = some m) (hOk : m.status = .ok) :
    lastOkAt metrics sid = some m.collectedAt := by
  obtain ⟨hMem, hServer⟩ := latestSample_mem h
  rw [lastOkAt, List.max?_eq_some_iff]
  refine ⟨List.mem_map_of_mem (List.mem_filter.mpr ⟨hMem, by simp [hServer, hOk]⟩), ?_⟩
  intro t ht
  obtain ⟨m', hm', rfl⟩ := List.mem_map.mp ht
  obtain ⟨hMem', hOwn⟩ := List.mem_filter.mp hm'
  have hKey : m'.key ≤ m.key := List.le_of_mem_argmax
    (List.mem_filter.mpr ⟨hMem', (Bool.and_eq_true_iff.mp hOwn).1⟩) h
  rcases Prod.Lex.le_iff.mp hKey with hLt | hEq
  · exact le_of_lt hLt
  · exact le_of_eq hEq.1

/-- The share of a server whose newest sample is ok: that sample and the others of its time. -/
theorem share_of_ok (h : latestSample metrics sid = some m) (hOk : m.status = .ok) :
    total gpuWatts (group ServerMetric.serverId sid (joinedRows metrics)) =
      latestWatts metrics sid + total gpuWatts ((rowsAt metrics sid m.collectedAt).erase m) := by
  obtain ⟨hMem, hServer⟩ := latestSample_mem h
  have hAt : m ∈ rowsAt metrics sid m.collectedAt :=
    List.mem_filter.mpr ⟨hMem, by simp [hServer]⟩
  have hWatts : latestWatts metrics sid = gpuWatts m := by
    unfold latestWatts
    rw [h]
    exact if_pos hOk
  rw [group_joinedRows, lastOkAt_of_latest h hOk, hWatts]
  exact (List.sum_map_erase gpuWatts hAt).symm

theorem latestWatts_of_error (h : latestSample metrics sid = some m) (hError : m.status = .error) :
    latestWatts metrics sid = 0 := by
  unfold latestWatts
  rw [h]
  exact if_neg (by rw [hError]; decide)

theorem share_of_none (h : latestSample metrics sid = none) :
    total gpuWatts (group ServerMetric.serverId sid (joinedRows metrics)) = latestWatts metrics sid := by
  have hNone : metrics.rows.filter (fun m => m.serverId = sid) = [] := List.argmax_eq_none.mp h
  have hGroup : group ServerMetric.serverId sid (joinedRows metrics) = [] := by
    rw [group, joinedRows, List.filter_filter, List.filter_eq_nil_iff]
    intro m hm hOwn
    exact List.filter_eq_nil_iff.mp hNone m hm (Bool.and_eq_true_iff.mp hOwn).1
  unfold latestWatts
  rw [hGroup, h]
  rfl

/-- The share of each server is right exactly when its other rows add nothing. -/
theorem share_iff (metrics : Table ServerMetric) :
    (∀ sid, total gpuWatts (group ServerMetric.serverId sid (joinedRows metrics)) =
      latestWatts metrics sid) ↔ LatestAlone metrics := by
  constructor
  · intro h
    refine ⟨fun sid m hLatest hOk => ?_, fun sid m hLatest hError t hAt => ?_⟩
    · have hShare := h sid
      rwa [share_of_ok hLatest hOk, add_eq_left] at hShare
    · have hShare := h sid
      rwa [group_joinedRows, hAt, latestWatts_of_error hLatest hError] at hShare
  · intro h sid
    cases hLatest : latestSample metrics sid with
    | none => exact share_of_none hLatest
    | some m =>
      cases hStatus : m.status with
      | ok => rw [share_of_ok hLatest hStatus, h.ok sid m hLatest hStatus, add_zero]
      | error =>
        rw [latestWatts_of_error hLatest hStatus, group_joinedRows]
        cases hAt : lastOkAt metrics sid with
        | none => rfl
        | some t => exact h.error sid m hLatest hStatus t hAt

theorem sum_shares (metrics : Table ServerMetric) : (powerTotals metrics).totalW =
    ∑ sid ∈ sampledServers metrics,
      total gpuWatts (group ServerMetric.serverId sid (joinedRows metrics)) := by
  rw [totalW_eq]
  refine (sum_total gpuWatts fun sid hsid => ?_).symm
  obtain ⟨m, hm, hServer⟩ := mem_keys.mp hsid
  exact mem_keys.mpr ⟨m, List.mem_of_mem_filter hm, hServer⟩

theorem gpuWatts_nonneg (h : ∀ g ∈ m.gpus, 0 ≤ g.powerDraw.getD 0) : 0 ≤ gpuWatts m := by
  refine List.sum_nonneg fun x hx => ?_
  obtain ⟨g, hg, rfl⟩ := List.mem_map.mp hx
  exact h g hg

/-- Without negative readings a server never adds less than its newest power. -/
theorem latestWatts_le_share (h : ∀ m ∈ metrics.rows, ∀ g ∈ m.gpus, 0 ≤ g.powerDraw.getD 0)
    (sid : Nat) : latestWatts metrics sid ≤
      total gpuWatts (group ServerMetric.serverId sid (joinedRows metrics)) := by
  cases hLatest : latestSample metrics sid with
  | none => exact le_of_eq (share_of_none hLatest).symm
  | some m =>
    cases hStatus : m.status with
    | ok =>
      rw [share_of_ok hLatest hStatus]
      refine le_add_of_nonneg_right (total_nonneg fun a ha => gpuWatts_nonneg (h a ?_))
      exact List.mem_of_mem_filter (List.mem_of_mem_erase ha)
    | error =>
      rw [latestWatts_of_error hLatest hStatus]
      refine total_nonneg fun a ha => gpuWatts_nonneg (h a ?_)
      exact List.mem_of_mem_filter (mem_group.mp ha).1

end Join

/-- Each server adds the power of its newest sample once exactly when nothing else of it is counted;
where no reading is negative, the total alone tells. -/
theorem countsLatestOnce_iff (metrics : Table ServerMetric) :
    (CountsLatestOnce metrics ↔ LatestAlone metrics) ∧
      ((∀ m ∈ metrics.rows, ∀ g ∈ m.gpus, 0 ≤ g.powerDraw.getD 0) →
        ((powerTotals metrics).totalW = ∑ sid ∈ sampledServers metrics, latestWatts metrics sid ↔
          LatestAlone metrics)) := by
  have hTotal : LatestAlone metrics → (powerTotals metrics).totalW =
      ∑ sid ∈ sampledServers metrics, latestWatts metrics sid := fun h => by
    rw [sum_shares]
    exact Finset.sum_congr rfl fun sid _ => (share_iff metrics).mpr h sid
  refine ⟨⟨fun h => (share_iff metrics).mp h.share, fun h => ⟨hTotal h, (share_iff metrics).mpr h⟩⟩,
    fun hNonneg => ⟨fun h => (share_iff metrics).mp fun sid => ?_, hTotal⟩⟩
  rw [sum_shares, eq_comm,
    Finset.sum_eq_sum_iff_of_le fun sid _ => latestWatts_le_share hNonneg sid] at h
  by_cases hsid : sid ∈ sampledServers metrics
  · exact (h sid hsid).symm
  · refine share_of_none (List.argmax_eq_none.mpr ?_)
    exact group_eq_nil_of_notMem hsid

/-- A server that drew 300 W and then stopped answering. -/
def unreachable : Table ServerMetric :=
  ⟨[{ id := 1, serverId := 1, collectedAt := 0, gpus := [{ powerDraw := some 300 }] },
    { id := 2, serverId := 1, collectedAt := 1, status := .error }], by decide⟩

/-- Its last successful reading stays in the total. -/
theorem unreachable_counted : ¬ CountsLatestOnce unreachable := by
  intro h
  have hTotal : (powerTotals unreachable).totalW = 300 := by decide +kernel
  have hLatest : ∑ sid ∈ sampledServers unreachable, latestWatts unreachable sid = 0 := by
    decide +kernel
  have hSame := h.sum
  rw [hTotal, hLatest] at hSame
  exact absurd hSame (by decide)

end GpuMon.Cockpit

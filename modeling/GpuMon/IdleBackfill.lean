import GpuMon.IdleState
import GpuMon.Library.Paging

/-!
# The walk through the history (`scheduler._backfill_idle_start`)

The walk reads pages of 2000 rows from the newest sample before an instant on, and stops at the
first sample in which the GPU is missing or not held idle.

* `backfillFrom_eq`: with enough turns, the pages are walked like one list of all samples.
* `backfill_finds_run`: what the walk returns, in terms of the stored samples.
-/

namespace GpuMon.IdleState

open Paging

/-- The GPU is present in the sample and held idle. -/
def idleIn (uuid : Text) (m : ServerMetric) : Bool := (findGpu m.gpus uuid).any gpuIsIdleHeld

/-- No two successful samples of the server have the same time. -/
def DistinctTimes (metrics : List ServerMetric) (serverId : Nat) : Prop :=
  (metrics.filter fun m => m.serverId = serverId && m.status = .ok).Pairwise
    fun a b => a.collectedAt ≠ b.collectedAt

/-- No sample that the query can return is newer. -/
def IsNewest (metrics : List ServerMetric) (serverId : Nat) (before : Int) (m : ServerMetric) :
    Prop :=
  m ∈ metrics ∧ isOlder serverId before m ∧
    ∀ r ∈ metrics, isOlder serverId before r → r.collectedAt ≤ m.collectedAt

/-- A run of idle samples up to an instant begins with this sample, and cannot be extended. -/
structure RunStart (metrics : List ServerMetric) (serverId : Nat) (uuid : Text) (before : Int)
    (m : ServerMetric) : Prop where
  mem : m ∈ metrics
  older : isOlder serverId before m
  idle : ∀ r ∈ metrics, isOlder serverId before r → m.collectedAt ≤ r.collectedAt → idleIn uuid r
  stops : ∀ r, IsNewest metrics serverId m.collectedAt r → idleIn uuid r = false

variable {metrics : List ServerMetric} {serverId : Nat} {uuid : Text} {cursor before : Int}

theorem isOlder_iff {m : ServerMetric} : isOlder serverId cursor m = true ↔
    (m.serverId = serverId ∧ m.status = .ok) ∧ m.collectedAt < cursor := by
  simp only [isOlder, Bool.and_eq_true, decide_eq_true_eq]
  tauto

theorem mem_olderSamples {m : ServerMetric} :
    m ∈ olderSamples metrics serverId cursor ↔ m ∈ metrics ∧ isOlder serverId cursor m := by
  rw [olderSamples, List.mem_insertionSort, List.mem_filter]

/-! ## One page -/

theorem scanPage_eq (uuid : Text) (rows : List ServerMetric) (start : Option Int) :
    scanPage uuid rows start =
      (((rows.takeWhile (idleIn uuid)).getLast?.map ServerMetric.collectedAt).or start,
        !rows.all (idleIn uuid)) := by
  induction rows generalizing start with
  | nil => rfl
  | cons m rows ih =>
    change (if idleIn uuid m then _ else _) = _
    by_cases h : idleIn uuid m = true
    · rw [if_pos h, ih, List.takeWhile_cons_of_pos h, List.getLast?_cons, List.all_cons, h]
      cases (rows.takeWhile (idleIn uuid)).getLast? <;> rfl
    · rw [if_neg h, List.takeWhile_cons_of_neg h, List.all_cons, Bool.eq_false_of_not_eq_true h]
      rfl

theorem olderSamples_descending (hTimes : DistinctTimes metrics serverId) (cursor : Int) :
    Descending ServerMetric.collectedAt (olderSamples metrics serverId cursor) := by
  apply descending_insertionSort
  have hSub : (metrics.filter (isOlder serverId cursor)).Sublist
      (metrics.filter fun m => m.serverId = serverId && m.status = .ok) := by
    refine List.monotone_filter_right _ fun m hm => ?_
    simpa using (isOlder_iff.mp hm).1
  exact hTimes.sublist hSub

theorem olderSamples_filter (hTimes : DistinctTimes metrics serverId) {earlier : Int}
    (hEarlier : earlier ≤ cursor) : olderSamples metrics serverId earlier =
      (olderSamples metrics serverId cursor).filter fun m => m.collectedAt < earlier := by
  refine (olderSamples_descending hTimes earlier).eq_of_perm
    ((olderSamples_descending hTimes cursor).filter _) ?_
  have hSame : metrics.filter (isOlder serverId earlier) =
      (metrics.filter (isOlder serverId cursor)).filter fun m => m.collectedAt < earlier := by
    rw [List.filter_filter]
    refine List.filter_congr fun m _ => ?_
    by_cases hm : m.collectedAt < earlier
    · simp [isOlder, hm, hm.trans_le hEarlier]
    · simp [isOlder, hm]
  refine (List.perm_insertionSort _ _).trans ?_
  rw [hSame]
  exact (List.perm_insertionSort _ _).symm.filter _

/-- The query from the last row of a page returns what comes after the page. -/
theorem olderSamples_next (hTimes : DistinctTimes metrics serverId)
    {rows rest : List ServerMetric} {last : ServerMetric}
    (hSplit : olderSamples metrics serverId cursor = rows ++ rest)
    (hLast : rows.getLast? = some last) :
    olderSamples metrics serverId last.collectedAt = rest := by
  have hMem : last ∈ olderSamples metrics serverId cursor :=
    hSplit ▸ List.mem_append_left rest (List.mem_of_getLast? hLast)
  have hBefore := (isOlder_iff.mp (mem_olderSamples.mp hMem).2).2
  have hDesc := olderSamples_descending hTimes cursor
  rw [hSplit] at hDesc
  rw [olderSamples_filter hTimes hBefore.le, hSplit, filter_lt_last hDesc hLast]

/-! ## All pages -/

theorem getLast?_takeWhile_append {α β : Type*} {p : α → Bool} {rows rest : List α}
    (hAll : rows.all p = true) (f : α → β) (start : Option β) :
    ((rest.takeWhile p).getLast?.map f).or (((rows.takeWhile p).getLast?.map f).or start) =
      (((rows ++ rest).takeWhile p).getLast?.map f).or start := by
  have hRows : rows.takeWhile p = rows :=
    List.takeWhile_eq_self_iff.mpr (List.all_eq_true.mp hAll)
  rw [List.takeWhile_append_of_pos (List.all_eq_true.mp hAll), hRows, List.getLast?_append]
  cases (rest.takeWhile p).getLast? <;> rfl

/-- The walk, page by page, is one walk through all samples. -/
theorem backfillFrom_eq (hTimes : DistinctTimes metrics serverId) {fuel : Nat} {start : Option Int}
    (hFuel : olderCount metrics serverId cursor < fuel) :
    backfillFrom metrics serverId uuid fuel cursor start =
      (scanPage uuid (olderSamples metrics serverId cursor) start).1 := by
  induction fuel generalizing cursor start with
  | zero => omega
  | succ fuel ih =>
    obtain ⟨rows, rest, hRows, hSplit, hShort⟩ : ∃ rows rest,
        (olderSamples metrics serverId cursor).take 2000 = rows ∧
          olderSamples metrics serverId cursor = rows ++ rest ∧ (rows.length < 2000 → rest = []) := by
      refine ⟨_, _, rfl, (List.take_append_drop 2000 _).symm, fun hLength => ?_⟩
      rw [List.length_take] at hLength
      exact List.drop_eq_nil_of_le (by omega)
    rw [backfillFrom]
    dsimp only
    rw [hRows, hSplit, scanPage_eq, scanPage_eq]
    cases hLast : rows.getLast? with
    | none =>
      obtain rfl := List.getLast?_eq_none_iff.mp hLast
      rw [hShort (by decide)]
      rfl
    | some last =>
      dsimp only
      by_cases hAll : rows.all (idleIn uuid) = true
      · by_cases hLength : rows.length < 2000
        · -- the last page
          rw [if_pos (by simp [hLength]), hShort hLength, List.append_nil]
        · -- a full page, all of it idle
          have hNext := olderSamples_next hTimes hSplit hLast
          have hMem : last ∈ olderSamples metrics serverId cursor :=
            hSplit ▸ List.mem_append_left rest (List.mem_of_getLast? hLast)
          have hLess := olderCount_lt hMem
          rw [if_neg (by simp [hAll, hLength]), ih (by omega), hNext, scanPage_eq]
          exact getLast?_takeWhile_append hAll _ _
      · -- the page in which the run began
        rw [if_pos (by simp [hAll]), List.takeWhile_append, if_neg]
        intro hSame
        refine hAll (List.all_eq_true.mpr (List.takeWhile_eq_self_iff.mp ?_))
        exact (List.takeWhile_prefix _).eq_of_length hSame

theorem backfillFrom_before (hTimes : DistinctTimes metrics serverId) {fuel : Nat}
    (hFuel : metrics.length < fuel) :
    backfillFrom metrics serverId uuid fuel before none =
      (scanPage uuid (olderSamples metrics serverId before) none).1 :=
  backfillFrom_eq hTimes ((List.length_filter_le _ _).trans_lt hFuel)

theorem isNewest_iff (hTimes : DistinctTimes metrics serverId) {m : ServerMetric} :
    IsNewest metrics serverId before m ↔ (olderSamples metrics serverId before).head? = some m := by
  rw [(olderSamples_descending hTimes before).head?_eq_some]
  simp only [mem_olderSamples, IsNewest, and_imp, and_assoc]

/-- The start of the run is the last sample of the walk. -/
theorem runStart_iff (hTimes : DistinctTimes metrics serverId) {m : ServerMetric} :
    RunStart metrics serverId uuid before m ↔
      ((olderSamples metrics serverId before).takeWhile (idleIn uuid)).getLast? = some m := by
  rw [(olderSamples_descending hTimes before).getLast?_takeWhile_iff]
  simp only [mem_olderSamples]
  have hEarlier : isOlder serverId before m → ∀ r, isOlder serverId m.collectedAt r ↔
      isOlder serverId before r ∧ r.collectedAt < m.collectedAt := by
    intro hm r
    have hBefore := (isOlder_iff.mp hm).2
    rw [isOlder_iff, isOlder_iff]
    constructor
    · rintro ⟨hRow, hLt⟩
      exact ⟨⟨hRow, hLt.trans hBefore⟩, hLt⟩
    · rintro ⟨⟨hRow, -⟩, hLt⟩
      exact ⟨hRow, hLt⟩
  constructor
  · rintro ⟨hMem, hOlder, hIdle, hStops⟩
    refine ⟨⟨hMem, hOlder⟩, fun r hr => hIdle r hr.1 hr.2, fun r hr hLt hNewest => ?_⟩
    refine hStops r ⟨hr.1, (hEarlier hOlder r).mpr ⟨hr.2, hLt⟩, fun q hq hqOlder => ?_⟩
    obtain ⟨hqBefore, hqLt⟩ := (hEarlier hOlder q).mp hqOlder
    exact hNewest q ⟨hq, hqBefore⟩ hqLt
  · rintro ⟨⟨hMem, hOlder⟩, hIdle, hStops⟩
    refine ⟨hMem, hOlder, fun r hr hrOlder => hIdle r ⟨hr, hrOlder⟩, fun r hr => ?_⟩
    obtain ⟨hrMem, hrOlder, hrMax⟩ := hr
    obtain ⟨hrBefore, hrLt⟩ := (hEarlier hOlder r).mp hrOlder
    refine hStops r ⟨hrMem, hrBefore⟩ hrLt fun q hq hqLt => ?_
    exact hrMax q hq.1 ((hEarlier hOlder q).mpr ⟨hq.2, hqLt⟩)

/-- The walk ends, as one scan of all samples does, at the start of the idle run. -/
theorem backfill_finds_run (hTimes : DistinctTimes metrics serverId) (uuid : Text) (before : Int) :
    (∀ fuel, metrics.length < fuel → backfillFrom metrics serverId uuid fuel before none =
      backfillIdleStart metrics serverId uuid before) ∧
    backfillIdleStart metrics serverId uuid before =
      (scanPage uuid (olderSamples metrics serverId before) none).1 ∧
    (∀ t, backfillIdleStart metrics serverId uuid before = some t ↔
      ∃ m, RunStart metrics serverId uuid before m ∧ m.collectedAt = t) ∧
    (backfillIdleStart metrics serverId uuid before = none ↔
      ∀ m, IsNewest metrics serverId before m → idleIn uuid m = false) := by
  have hScan : backfillIdleStart metrics serverId uuid before =
      (scanPage uuid (olderSamples metrics serverId before) none).1 :=
    backfillFrom_before hTimes (Nat.lt_succ_self _)
  refine ⟨fun fuel hFuel => backfillIdleStart_eq hFuel, hScan, fun t => ?_, ?_⟩
  · rw [hScan, scanPage_eq, Option.or_none, Option.map_eq_some_iff]
    simp only [runStart_iff hTimes]
  · rw [hScan, scanPage_eq, Option.or_none, Option.map_eq_none_iff, List.getLast?_eq_none_iff,
      takeWhile_eq_nil_iff_head?]
    simp only [isNewest_iff hTimes]

/-- A GPU that was busy at 10 and held idle at 20 and 30; the sample at 25 failed. -/
def sampleHistory : List ServerMetric :=
  let gpu (utilization : ℚ) : Gpu ℚ :=
    { uuid := some ['u'], utilization := some utilization, memUsedMb := some 40,
      memTotalMb := some 80 }
  [{ id := 1, serverId := 1, collectedAt := 30, gpus := [gpu 0] },
    { id := 2, serverId := 1, collectedAt := 10, gpus := [gpu 90] },
    { id := 3, serverId := 1, collectedAt := 25, status := .error },
    { id := 4, serverId := 1, collectedAt := 20, gpus := [gpu 3] }]

theorem backfill_finds_run_sample :
    ∃ m, RunStart sampleHistory 1 ['u'] 40 m ∧ m.collectedAt = 20 :=
  ((backfill_finds_run (by unfold DistinctTimes; decide) ['u'] 40).2.2.1 20).mp (by decide +kernel)

end GpuMon.IdleState

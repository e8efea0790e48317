import GpuMon.CardTime
import GpuMon.IdleRuns
import GpuMon.Library.PyNum

/-!
# Three copies of one predicate (`_roll_hour`, `_gpu_is_idle_held`, `_gpu_analysis`)

Whether a GPU holds its memory idle is decided in three places. The rollup adds up the time of the
GPUs that its copy accepts, the idle state keeps a key for each GPU that the second copy accepts,
and the analysis looks up the key of each GPU that the third copy accepts.

* `idleHeld_gpuAnalysisEntry`: which GPUs the analysis reports as held idle.
* `agree_iff_clear`: where the copies agree.
* `since_machine`: the keys of a server after any samples are those of the GPUs held idle in its
  latest one.
* `machineLevel_eq_cardLevel`: at every instant the idle state considers as many GPUs of a server
  held idle as the latest sample has candidates.
* `idle_minutes_agree_iff`: when the rolled up minutes are the time the idle state sees.
-/

namespace GpuMon.IdleState

open Rollup MeasureTheory

/-! ## The analysis -/

/-- The condition in `_gpu_analysis` under which the start of a GPU is looked up. -/
def isCandidate (g : Gpu ℚ) : Bool :=
  let total := g.memTotalMb.getD 0
  let util := g.utilization.getD 0
  let mem := g.memUsedMb.getD 0
  let memPct := if total ≠ 0 then mem / total * 100 else 0
  util < 5 && total ≠ 0 && 30 ≤ memPct

/-- The entry of one GPU, without its risks and its processes. -/
structure AnalysisEntry where
  serverId : Nat
  uuid : Text
  util : ℚ
  memPct : ℚ
  memUsedGb : ℚ
  idleHeld : Bool
  idleMinutes : ℚ

/-- The body of the loop over the GPUs of the latest sample of a server. -/
def gpuAnalysisEntry (idleState : Doc) (m : ServerMetric) (g : Gpu ℚ) : Option AnalysisEntry :=
  match g.uuid with
  | none => none
  | some [] => none
  | some u =>
    let total := g.memTotalMb.getD 0
    let mem := g.memUsedMb.getD 0
    let since := if isCandidate g then idleState.get? (keyPrefix m.serverId ++ u) else none
    let idleMinutes :=
      (since.map fun start => max 0 (totalSeconds (m.collectedAt - start) / 60)).getD 0
    some {
      serverId := m.serverId
      uuid := u
      util := g.utilization.getD 0
      memPct := PyNum.roundTo 1 (if total ≠ 0 then mem / total * 100 else 0)
      memUsedGb := PyNum.roundTo 1 (mem / 1024)
      idleHeld := since.isSome && 25 ≤ idleMinutes
      idleMinutes := PyNum.roundTo 0 idleMinutes }

/-- A GPU that `_gpu_analysis` does not skip and whose start it looks up. -/
def analysisCandidate (g : Gpu ℚ) : Bool := (validUuid g).isSome && isCandidate g

theorem isCandidate_eq (g : Gpu ℚ) : isCandidate g = gpuIsIdleHeld g := by
  unfold isCandidate gpuIsIdleHeld
  by_cases hTotal : g.memTotalMb.getD 0 = 0
  · simp [hTotal]
  · simp [hTotal]

/-- Only a candidate can be reported as held idle, and only from its entry in the idle state. -/
theorem idleHeld_gpuAnalysisEntry {idleState : Doc} {m : ServerMetric} {g : Gpu ℚ}
    {entry : AnalysisEntry} (hEntry : gpuAnalysisEntry idleState m g = some entry) :
    entry.idleHeld = true ↔ analysisCandidate g = true ∧ ∃ start,
      idleState.get? (keyPrefix m.serverId ++ entry.uuid) = some start ∧
        25 * 60 ≤ totalSeconds (m.collectedAt - start) := by
  unfold gpuAnalysisEntry at hEntry
  split at hEntry
  · cases hEntry
  · cases hEntry
  · rename_i u hNe hUuid
    cases hEntry
    have hValid : validUuid g = some u := validUuid_eq_some.mpr ⟨hUuid, hNe⟩
    dsimp only
    rw [analysisCandidate, hValid, Option.isSome_some, Bool.true_and]
    by_cases hCandidate : isCandidate g = true
    · rw [if_pos hCandidate]
      cases idleState.get? (keyPrefix m.serverId ++ u) with
      | none => simp
      | some start =>
        have hMinutes : (25 ≤ max 0 (totalSeconds (m.collectedAt - start) / 60)) ↔
            25 * 60 ≤ totalSeconds (m.collectedAt - start) := by
          rw [le_max_iff, le_div_iff₀ (by norm_num)]
          exact or_iff_right (by norm_num)
        simp [hCandidate, hMinutes]
    · rw [if_neg hCandidate]
      simp [hCandidate]

/-! ## Where the copies agree -/

/-- The three places decide alike. -/
def Agree (g : Gpu ℚ) : Prop :=
  (idleHeld g = true ↔ gpuIsIdleHeld g = true) ∧
    (gpuIsIdleHeld g = true ↔ analysisCandidate g = true)

/-- At least 30 % of the memory is in use. -/
def HoldsMemory (g : Gpu ℚ) : Prop := 3 / 10 ≤ g.memUsedMb.getD 0 / g.memTotalMb.getD 0

/-- A GPU with a good part of its memory in use is not used at exactly 5 % or, below that, without
a uuid or with a negative amount of memory. -/
structure Clear (g : Gpu ℚ) : Prop where
  notFive : ¬ (g.utilization.getD 0 = 5 ∧ 0 < g.memTotalMb.getD 0 ∧ HoldsMemory g)
  notNegative : ¬ (g.utilization.getD 0 < 5 ∧ g.memTotalMb.getD 0 < 0 ∧ HoldsMemory g)
  notNameless : ¬ (validUuid g = none ∧ g.utilization.getD 0 < 5 ∧
    0 < g.memTotalMb.getD 0 ∧ HoldsMemory g)

theorem idleHeld_iff {g : Gpu ℚ} : idleHeld g = true ↔
    0 < g.memTotalMb.getD 0 ∧ HoldsMemory g ∧ g.utilization.getD 0 ≤ 5 := by
  simp [idleHeld, HoldsMemory, and_assoc]

theorem gpuIsIdleHeld_iff {g : Gpu ℚ} : gpuIsIdleHeld g = true ↔
    g.utilization.getD 0 < 5 ∧ g.memTotalMb.getD 0 ≠ 0 ∧ HoldsMemory g := by
  have hPercent : 30 ≤ g.memUsedMb.getD 0 / g.memTotalMb.getD 0 * 100 ↔ HoldsMemory g := by
    unfold HoldsMemory
    constructor
    · intro h
      linarith
    · intro h
      linarith
  simp [gpuIsIdleHeld, hPercent, and_assoc]

theorem analysisCandidate_iff {g : Gpu ℚ} :
    analysisCandidate g = true ↔ validUuid g ≠ none ∧ gpuIsIdleHeld g = true := by
  rw [analysisCandidate, isCandidate_eq, Bool.and_eq_true, Option.isSome_iff_ne_none]

theorem agree_iff_clear (g : Gpu ℚ) : Agree g ↔ Clear g := by
  unfold Agree
  rw [analysisCandidate_iff, idleHeld_iff, gpuIsIdleHeld_iff]
  constructor
  · rintro ⟨hRollup, hAnalysis⟩
    refine ⟨?_, ?_, ?_⟩
    · rintro ⟨hFive, hPositive, hHolds⟩
      exact absurd hFive (hRollup.mp ⟨hPositive, hHolds, hFive.le⟩).1.ne
    · rintro ⟨hBelow, hNegative, hHolds⟩
      exact absurd (hRollup.mpr ⟨hBelow, hNegative.ne, hHolds⟩).1 hNegative.not_gt
    · rintro ⟨hNone, hBelow, hPositive, hHolds⟩
      exact (hAnalysis.mp ⟨hBelow, hPositive.ne', hHolds⟩).1 hNone
  · intro hClear
    have hPositive : g.utilization.getD 0 < 5 → g.memTotalMb.getD 0 ≠ 0 → HoldsMemory g →
        0 < g.memTotalMb.getD 0 := by
      intro hBelow hTotal hHolds
      exact (lt_or_gt_of_ne hTotal).resolve_left fun hNegative =>
        hClear.notNegative ⟨hBelow, hNegative, hHolds⟩
    refine ⟨⟨?_, ?_⟩, ⟨?_, And.right⟩⟩
    · rintro ⟨hTotal, hHolds, hUtil⟩
      refine ⟨lt_of_le_of_ne hUtil fun hFive => ?_, hTotal.ne', hHolds⟩
      exact hClear.notFive ⟨hFive, hTotal, hHolds⟩
    · rintro ⟨hBelow, hTotal, hHolds⟩
      exact ⟨hPositive hBelow hTotal hHolds, hHolds, hBelow.le⟩
    · rintro ⟨hBelow, hTotal, hHolds⟩
      refine ⟨fun hNone => ?_, hBelow, hTotal, hHolds⟩
      exact hClear.notNameless ⟨hNone, hBelow, hPositive hBelow hTotal hHolds, hHolds⟩

/-! ## The idle state over the samples -/

/-- The idle state after the polls of these samples, in this order. -/
def machine (w : IdleWatch) (samples : List ServerMetric) : IdleWatch :=
  samples.foldl IdleWatch.poll w

/-- Whether the document has a key for the GPU. -/
def considersIdle (w : IdleWatch) (serverId : Nat) (g : Gpu ℚ) : Bool :=
  (validUuid g).any fun u => (w.since serverId u).isSome

section Machine

variable {w : IdleWatch} {m : ServerMetric} {serverId : Nat}

theorem consistent_machine (h : w.shared.Consistent) (samples : List ServerMetric) :
    (machine w samples).shared.Consistent := by
  unfold machine
  induction samples generalizing w with
  | nil => exact h
  | cons m rest ih => exact ih (consistent_poll h)

/-- Whatever the document said before, a poll leaves the keys of the GPUs held idle. -/
theorem isSome_since_poll (h : w.shared.Consistent) (hOk : m.status = .ok)
    (hNodup : (validUuids m.gpus).Nodup) (u : Text) :
    ((w.poll m).since m.serverId u).isSome = heldIn u m := by
  rw [since_poll h hOk]
  change ((edit _ (callOf m) _).state.get? (keyPrefix (callOf m).serverId ++ u)).isSome = _
  rw [get?_edit_same hNodup]
  by_cases hHeld : heldIn u m = true
  · rw [if_pos (heldIn_iff.mp hHeld), hHeld]
    rfl
  · rw [if_neg fun hAny => hHeld (heldIn_iff.mpr hAny), Bool.eq_false_of_not_eq_true hHeld]
    rfl

/-- The latest sample of a server decides which of its GPUs have a key. -/
theorem since_machine (h : w.shared.Consistent) {samples : List ServerMetric}
    (hLatest : (samples.filter fun r => r.serverId = serverId).getLast? = some m)
    (hOk : m.status = .ok) (hNodup : (validUuids m.gpus).Nodup) (u : Text) :
    ((machine w samples).since serverId u).isSome = heldIn u m := by
  induction samples using List.reverseRecOn with
  | nil => cases hLatest
  | append_singleton samples r ih =>
    have hMachine : machine w (samples ++ [r]) = (machine w samples).poll r := by
      unfold machine
      rw [List.foldl_append]
      rfl
    have hConsistent := consistent_machine h samples
    rw [hMachine]
    rw [List.filter_append] at hLatest
    by_cases hServer : r.serverId = serverId
    · rw [List.filter_cons_of_pos (by simpa using hServer), List.filter_nil,
        List.getLast?_append] at hLatest
      obtain rfl : r = m := Option.some.inj hLatest
      subst hServer
      exact isSome_since_poll hConsistent hOk hNodup u
    · rw [List.filter_cons_of_neg (by simpa using hServer), List.filter_nil,
        List.append_nil] at hLatest
      rw [since_poll_other hConsistent (Ne.symm hServer)]
      exact ih hLatest

theorem findGpu_of_mem {gpus : List (Gpu ℚ)} {g : Gpu ℚ} {u : Text}
    (hNodup : (validUuids gpus).Nodup) (hg : g ∈ gpus) (hUuid : validUuid g = some u) :
    findGpu gpus u = some g := by
  have hSelf := validUuid_eq_some.mp hUuid
  induction gpus with
  | nil => cases hg
  | cons g' gpus ih =>
    unfold findGpu
    by_cases hHead : g'.uuid = some u
    · have hValid : validUuid g' = some u := validUuid_eq_some.mpr ⟨hHead, hSelf.2⟩
      rw [List.find?_cons_of_pos (by simpa using hHead)]
      rcases List.mem_cons.mp hg with rfl | hg
      · rfl
      · rw [validUuids_cons_some hValid, List.nodup_cons] at hNodup
        exact absurd (List.mem_filterMap.mpr ⟨g, hg, hUuid⟩) hNodup.1
    · rw [List.find?_cons_of_neg (by simpa using hHead)]
      refine ih (hNodup.sublist ?_) ((List.mem_cons.mp hg).resolve_left ?_)
      · exact (List.sublist_cons_self g' gpus).filterMap validUuid
      · rintro rfl
        exact hHead hSelf.1

/-- The GPUs considered idle after the latest sample are its candidates. -/
theorem considersIdle_machine (h : w.shared.Consistent) {samples : List ServerMetric}
    (hLatest : (samples.filter fun r => r.serverId = serverId).getLast? = some m)
    (hOk : m.status = .ok) (hNodup : (validUuids m.gpus).Nodup) {g : Gpu ℚ} (hg : g ∈ m.gpus) :
    considersIdle (machine w samples) serverId g = analysisCandidate g := by
  unfold considersIdle analysisCandidate
  rw [isCandidate_eq]
  cases hUuid : validUuid g with
  | none => rfl
  | some u =>
    rw [Option.any_some, since_machine h hLatest hOk hNodup, heldIn,
      findGpu_of_mem hNodup hg hUuid, decide_eq_true (validUuid_eq_some.mp hUuid).2]
    rfl

end Machine

/-! ## The two times -/

/-- The samples of all servers in the order of `(collected_at, id)`. -/
def history (db : Store) : List ServerMetric :=
  db.metrics.insertionSort fun a b => a.key ≤ b.key

def candidateCount (m : ServerMetric) : Nat := m.gpus.countP analysisCandidate

open Classical in
/-- The number of GPUs that the idle state considers held idle at `t`: those of the latest sample
of the server, if that sample is ok and has not expired. -/
noncomputable def machineLevel (db : Store) (w : IdleWatch) (sid : Nat) (interval : Int)
    (t : ℝ) : ℝ :=
  match ((timeline db sid).filter fun m => realSeconds m.collectedAt ≤ t).getLast? with
  | some row =>
    if row.status = .ok ∧
        t < realSeconds (row.collectedAt + seconds (effectiveInterval interval row))
    then row.gpus.countP (considersIdle
      (machine w ((history db).filter fun m => realSeconds m.collectedAt ≤ t)) sid)
    else 0
  | none => 0

/-- The minutes of `[lo, hi)` for which the idle state considers the GPUs held idle. -/
noncomputable def machineMinutes (db : Store) (w : IdleWatch) (sid : Nat) (interval : Int)
    (lo hi : Int) : ℝ :=
  1 / 60 * ∫ t in Set.Ico (realSeconds lo) (realSeconds hi), machineLevel db w sid interval t

section Time

variable {db : Store} {w : IdleWatch} {sid : Nat}

theorem history_filter (db : Store) (sid : Nat) :
    (history db).filter (fun m => m.serverId = sid) = timeline db sid := by
  refine eq_of_perm_of_sorted db ?_ ?_ (timeline_sorted db sid) fun m hm => ?_
  · exact ((List.perm_insertionSort _ _).filter _).trans (List.perm_insertionSort _ _).symm
  · exact (List.pairwise_insertionSort _ _).sublist List.filter_sublist
  · exact (List.mem_insertionSort _).mp (List.mem_of_mem_filter hm)

/-- The idle state sees as many GPUs as the latest sample has candidates. -/
theorem machineLevel_eq_cardLevel (h : w.shared.Consistent)
    (hUuids : ∀ m ∈ timeline db sid, m.status = .ok → (validUuids m.gpus).Nodup)
    (interval : Int) (t : ℝ) :
    machineLevel db w sid interval t = cardLevel db sid interval candidateCount t := by
  classical
  unfold machineLevel cardLevel
  cases hLatest : ((timeline db sid).filter fun m =>
      realSeconds m.collectedAt ≤ t).getLast? with
  | none => rfl
  | some row =>
    have hRow := List.mem_of_mem_filter (List.mem_of_getLast? hLatest)
    have hSeen : (((history db).filter fun m => realSeconds m.collectedAt ≤ t).filter
        fun m => m.serverId = sid).getLast? = some row := by
      rw [← hLatest, ← history_filter, List.filter_filter, List.filter_filter]
      congr 1
      exact List.filter_congr fun m _ => Bool.and_comm ..
    dsimp only
    split
    · rename_i hCounts
      congr 1
      refine List.countP_congr fun g hg => ?_
      rw [considersIdle_machine h hSeen hCounts.1 (hUuids row hRow hCounts.1) hg]
    · rfl

theorem idleHeldCount_of_clear {m : ServerMetric} (h : ∀ g ∈ m.gpus, Clear g) :
    idleHeldCount m = candidateCount m := by
  refine List.countP_congr fun g hg => ?_
  obtain ⟨hRollup, hAnalysis⟩ := (agree_iff_clear g).mpr (h g hg)
  exact hRollup.trans hAnalysis

theorem cardLevel_congr {count count' : ServerMetric → Nat}
    (h : ∀ m ∈ timeline db sid, count m = count' m) (interval : Int) (t : ℝ) :
    cardLevel db sid interval count t = cardLevel db sid interval count' t := by
  classical
  unfold cardLevel
  cases hLatest : ((timeline db sid).filter fun m =>
      realSeconds m.collectedAt ≤ t).getLast? with
  | none => rfl
  | some row =>
    dsimp only
    rw [h row (List.mem_of_mem_filter (List.mem_of_getLast? hLatest))]

theorem machineMinutes_eq_cardMinutes (h : w.shared.Consistent)
    (hUuids : ∀ m ∈ timeline db sid, m.status = .ok → (validUuids m.gpus).Nodup)
    (hClear : ∀ m ∈ timeline db sid, ∀ g ∈ m.gpus, Clear g) (interval lo hi : Int) :
    machineMinutes db w sid interval lo hi =
      cardMinutes db sid interval idleHeldCount lo hi := by
  unfold machineMinutes cardMinutes
  congr 1
  refine setIntegral_congr_fun measurableSet_Ico fun t _ => ?_
  rw [machineLevel_eq_cardLevel h hUuids]
  exact (cardLevel_congr (fun m hm => idleHeldCount_of_clear (hClear m hm)) interval t).symm

end Time

/-- **One notion of idle.** The three copies decide alike on exactly the GPUs that are `Clear`;
and they do so throughout a history, with the rolled up minutes equal to the time for which the
idle state considers the GPUs held idle, exactly when all its GPUs are. -/
theorem idle_minutes_agree_iff (db : Store) (w : IdleWatch) (sid : Nat)
    (hConsistent : w.shared.Consistent)
    (hUuids : ∀ m ∈ timeline db sid, m.status = .ok → (validUuids m.gpus).Nodup) :
    (∀ g, Agree g ↔ Clear g) ∧
      (((∀ m ∈ timeline db sid, ∀ g ∈ m.gpus, Agree g) ∧
          ∀ (hourStart hourEnd interval : Int) (serverIds : List Nat),
            serverIds.Nodup → sid ∈ serverIds →
            ¬ (hourRows db hourStart hourEnd sid = [] ∧
              ∃ row ∈ db.hourly, row.serverId = sid ∧ row.hour = hourStart) →
            ∃ db', rollHour db hourStart hourEnd serverIds interval = .ok db' ∧
              ∃! row, (row ∈ db'.hourly ∧ row.serverId = sid ∧ row.hour = hourStart) ∧
                ∃ minutes : ℚ, row.idleHeldGpuMinutes = some minutes ∧
                  (minutes : ℝ) = machineMinutes db w sid interval hourStart hourEnd) ↔
        ∀ m ∈ timeline db sid, ∀ g ∈ m.gpus, Clear g) := by
  refine ⟨agree_iff_clear, ?_, fun hClear => ⟨?_, ?_⟩⟩
  · rintro ⟨hAgree, -⟩ m hm g hg
    exact (agree_iff_clear g).mp (hAgree m hm g hg)
  · intro m hm g hg
    exact (agree_iff_clear g).mpr (hClear m hm g hg)
  · intro hourStart hourEnd interval serverIds hNodup hsid hRolled
    obtain ⟨db', hOk, hIff⟩ := rollHour_row db hourStart hourEnd interval hNodup hsid hRolled
    obtain ⟨-, hIdle⟩ := aggregate_cardTime hourStart hourEnd interval sid
      (hourRows db hourStart hourEnd sid) ((previousByServer db hourStart serverIds).get? sid)
    refine ⟨db', hOk, _, ⟨(hIff _).mpr rfl, _, hIdle, ?_⟩, fun row h => (hIff row).mp h.1⟩
    rw [machineMinutes_eq_cardMinutes hConsistent hUuids hClear]
    exact spanSum_eq_cardMinutes db hourStart hourEnd interval hsid idleHeldCount

/-- A GPU with half of its memory in use. -/
def halfFull (utilization : ℚ) : Gpu ℚ where
  uuid := some "GPU-a"
  utilization := some utilization
  memUsedMb := some 50
  memTotalMb := some 100

/-- Server 1 with one sample of such a GPU. -/
def oneGpu (utilization : ℚ) : Store where
  servers := [1]
  metrics := [
    { id := 1, serverId := 1, collectedAt := 0, sampleIntervalSeconds := some 60,
      gpus := [halfFull utilization] }]
  hourly := []
  metricIds := List.nodup_singleton _
  metricServer := by simp
  hourlyKeys := List.nodup_nil

theorem idle_minutes_agree_iff_oneGpu : Agree (halfFull 4) ∧
    ∃ db', rollHour (oneGpu 4) 0 (seconds 3600) [1] 60 = .ok db' ∧
      ∃ row ∈ db'.hourly, ∃ minutes : ℚ, row.idleHeldGpuMinutes = some minutes ∧
        (minutes : ℝ) = machineMinutes (oneGpu 4) ⟨[], {}⟩ 1 60 0 (seconds 3600) := by
  have hClear : Clear (halfFull 4) :=
    ⟨fun h => absurd h.1 (by decide), fun h => absurd h.2.1 (by decide),
      fun h => absurd h.1 (by decide)⟩
  have hTimeline : timeline (oneGpu 4) 1 = (oneGpu 4).metrics := by decide +kernel
  have hAllClear : ∀ m ∈ timeline (oneGpu 4) 1, ∀ g ∈ m.gpus, Clear g := by
    rw [hTimeline]
    intro m hm g hg
    obtain rfl := List.mem_singleton.mp hm
    obtain rfl := List.mem_singleton.mp hg
    exact hClear
  obtain ⟨hAgree, hHistory⟩ := idle_minutes_agree_iff (oneGpu 4) ⟨[], {}⟩ 1
    (fun d hd => by cases hd) (by rw [hTimeline]; decide +kernel)
  obtain ⟨-, hMinutes⟩ := hHistory.mpr hAllClear
  obtain ⟨db', hOk, row, ⟨⟨hMem, -, -⟩, minutes, hSome, hEq⟩, -⟩ :=
    hMinutes 0 (seconds 3600) 60 [1] (by decide) (by decide) (fun h => absurd h.1 (by decide))
  exact ⟨(hAgree _).mpr hClear, db', hOk, row, hMem, minutes, hSome, hEq⟩

/-- At exactly 5 % only the rollup counts the GPU: it books a minute for which the idle state has
no key. -/
theorem five_percent_disagrees :
    ¬ Agree (halfFull 5) ∧
      (rollHour (oneGpu 5) 0 (seconds 3600) [1] 60).map
        (fun db' => db'.hourly.map ServerMetricHourly.idleHeldGpuMinutes) = .ok [some 1] ∧
      (machine ⟨[], {}⟩ (history (oneGpu 5))).shared = { mem := some .empty } := by
  refine ⟨fun h => ?_, by decide +kernel, by decide +kernel⟩
  exact absurd (h.1.mp (by decide +kernel)) (by decide +kernel)

end GpuMon.IdleState

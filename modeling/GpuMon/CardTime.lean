import GpuMon.Library.Timeline
import GpuMon.Rollup

/-!
# Card time is an integral

The rollup computes `gpu_sample_minutes` and `idle_held_gpu_minutes` in one pass over the
samples of the hour and the single sample before it. Here they are shown to be integrals of
the step function `cardLevel`, which looks at the whole history of the server: at every
instant the latest sample counts, if it is ok and has not expired.

* `ordered_eq_timeline`: the samples integrated over are the window of the server's full
  timeline, preceded by the last sample before it.
* `integrate_eq_spanSum`: the loop computes the one-pass sum of the timeline library.
* `rollHour_cardTime`: the columns of the row that a rollup writes.
-/

namespace GpuMon.Rollup

open MeasureTheory Timeline

/-! ## The timeline of a server -/

/-- All raw samples of a server in the order of `(collected_at, id)`. -/
def timeline (db : Store) (sid : Nat) : List ServerMetric :=
  (db.metrics.filter fun m => m.serverId = sid).insertionSort fun a b => a.key ≤ b.key

theorem mem_timeline {db : Store} {sid : Nat} {m : ServerMetric} :
    m ∈ timeline db sid ↔ m ∈ db.metrics ∧ m.serverId = sid := by
  simp [timeline]

theorem timeline_sorted (db : Store) (sid : Nat) :
    (timeline db sid).Pairwise fun a b => a.key ≤ b.key :=
  List.pairwise_insertionSort _ _

theorem eq_of_key_eq (db : Store) {a b : ServerMetric} (ha : a ∈ db.metrics) (hb : b ∈ db.metrics)
    (h : a.key = b.key) : a = b := by
  have hid : a.id = b.id := congrArg (fun k => (ofLex k).2) h
  exact List.inj_on_of_nodup_map db.metricIds ha hb hid

/-- Two lists of samples in the same order with the same members are equal. -/
theorem eq_of_perm_of_sorted (db : Store) {xs ys : List ServerMetric} (h : xs.Perm ys)
    (hxs : xs.Pairwise fun a b => a.key ≤ b.key) (hys : ys.Pairwise fun a b => a.key ≤ b.key)
    (hMem : ∀ m ∈ xs, m ∈ db.metrics) : xs = ys := by
  refine h.eq_of_pairwise (fun a b ha hb hab hba => ?_) hxs hys
  exact eq_of_key_eq db (hMem a ha) (hMem b (h.mem_iff.mpr hb)) (le_antisymm hab hba)

theorem filter_append_filter_not {α : Type*} {p : α → Bool} {l : List α}
    (h : l.Pairwise fun a b => p b = true → p a = true) :
    l.filter p ++ l.filter (fun a => !p a) = l := by
  induction l with
  | nil => rfl
  | cons a rest ih =>
    obtain ⟨ha, hrest⟩ := List.pairwise_cons.mp h
    by_cases hp : p a = true
    · simp [hp, ih hrest]
    · have hnone : rest.filter p = [] :=
        List.filter_eq_nil_iff.mpr fun b hb hpb => hp (ha b hb hpb)
      have hall : rest.filter (fun b => !p b) = rest :=
        List.filter_eq_self.mpr fun b hb => by simpa using fun hpb => hp (ha b hb hpb)
      simp [hp, hnone, hall]

/-- The samples before an instant. -/
def before (db : Store) (lo : Int) (sid : Nat) : List ServerMetric :=
  (timeline db sid).filter fun m => m.collectedAt < lo

/-- The samples inside a window, in order. -/
def window (db : Store) (lo hi : Int) (sid : Nat) : List ServerMetric :=
  (timeline db sid).filter fun m => lo ≤ m.collectedAt && m.collectedAt < hi

/-- The samples after a window. -/
def after (db : Store) (lo hi : Int) (sid : Nat) : List ServerMetric :=
  (timeline db sid).filter fun m => lo ≤ m.collectedAt && hi ≤ m.collectedAt

theorem le_of_mem_after {db : Store} {lo hi : Int} {sid : Nat} {m : ServerMetric}
    (h : m ∈ after db lo hi sid) : hi ≤ m.collectedAt := by
  have hFilter := (List.mem_filter.mp h).2
  simp only [Bool.and_eq_true, decide_eq_true_eq] at hFilter
  exact hFilter.2

theorem timeline_eq (db : Store) (lo hi : Int) (sid : Nat) :
    timeline db sid = before db lo sid ++ (window db lo hi sid ++ after db lo hi sid) := by
  have hDown : ∀ t : Int, (timeline db sid).Pairwise fun a b =>
      decide (b.collectedAt < t) = true → decide (a.collectedAt < t) = true := by
    intro t
    refine (timeline_sorted db sid).imp fun {a b} hab => ?_
    have := ServerMetric.collectedAt_le_of_key_le hab
    simp only [decide_eq_true_eq]
    omega
  have hRest := filter_append_filter_not
    (l := (timeline db sid).filter fun m => !decide (m.collectedAt < lo))
    ((hDown hi).sublist List.filter_sublist)
  rw [List.filter_filter, List.filter_filter] at hRest
  conv_lhs => rw [← filter_append_filter_not (hDown lo), ← hRest]
  unfold before window after
  congr 1
  congr 1
  · refine List.filter_congr fun m _ => ?_
    rw [Bool.and_comm, ← decide_not, decide_eq_decide.mpr not_lt]
  · refine List.filter_congr fun m _ => ?_
    rw [Bool.and_comm, ← decide_not, ← decide_not, decide_eq_decide.mpr not_lt,
      decide_eq_decide.mpr not_lt]

theorem hourRows_perm_window (db : Store) (lo hi : Int) (sid : Nat) :
    (hourRows db lo hi sid).Perm (window db lo hi sid) := by
  have h : hourRows db lo hi sid = (db.metrics.filter fun m => m.serverId = sid).filter
      fun m => lo ≤ m.collectedAt && m.collectedAt < hi := by
    rw [List.filter_filter]
    exact List.filter_congr fun m _ => by
      simp [Bool.and_assoc, Bool.and_comm]
  rw [h]
  exact (List.perm_insertionSort _ _).symm.filter _

/-! ## The sample carried in -/

theorem mem_before {db : Store} {lo : Int} {sid : Nat} {m : ServerMetric} :
    m ∈ before db lo sid ↔ m ∈ db.metrics ∧ m.serverId = sid ∧ m.collectedAt < lo := by
  simp [before, mem_timeline, and_assoc]

theorem previousId_eq (db : Store) (lo : Int) (sid : Nat) :
    previousId db lo sid = (before db lo sid).getLast?.map ServerMetric.id := by
  unfold previousId
  congr 1
  -- the descending order is the ascending one read backwards
  have hRows : (db.metrics.filter fun m => m.serverId = sid && m.collectedAt < lo).Perm
      (before db lo sid).reverse := by
    refine .trans ?_ (List.reverse_perm _).symm
    unfold before
    rw [show (db.metrics.filter fun m => m.serverId = sid && m.collectedAt < lo) =
      (db.metrics.filter fun m => m.serverId = sid).filter fun m => m.collectedAt < lo by
        rw [List.filter_filter]
        exact List.filter_congr fun m _ => Bool.and_comm ..]
    exact (List.perm_insertionSort _ _).symm.filter _
  have hEq : (db.metrics.filter fun m => m.serverId = sid && m.collectedAt < lo).insertionSort
      (fun a b => b.key ≤ a.key) = (before db lo sid).reverse := by
    have hDesc : (before db lo sid).reverse.Pairwise fun a b => b.key ≤ a.key :=
      List.pairwise_reverse.mpr ((timeline_sorted db sid).sublist List.filter_sublist)
    refine ((List.perm_insertionSort _ _).trans hRows).eq_of_pairwise
      (fun a b ha hb hab hba => ?_) (List.pairwise_insertionSort _ _) hDesc
    have ha' := (mem_before.mp (List.mem_reverse.mp
      (((List.perm_insertionSort _ _).trans hRows).mem_iff.mp ha))).1
    exact eq_of_key_eq db ha' (mem_before.mp (List.mem_reverse.mp hb)).1 (le_antisymm hba hab)
  rw [hEq, List.head?_reverse]

theorem getLast?_eq_of_mem_iff {α : Type*} {l : List α} {found : Option α}
    (h : ∀ a, a ∈ l ↔ found = some a) : l.getLast? = found := by
  cases found with
  | none =>
    refine List.getLast?_eq_none_iff.mpr (List.eq_nil_iff_forall_not_mem.mpr fun a ha => ?_)
    cases (h a).mp ha
  | some a =>
    have hne : l ≠ [] := List.ne_nil_of_mem ((h a).mpr rfl)
    rw [List.getLast?_eq_some_getLast hne]
    exact ((h _).mp (List.getLast_mem hne)).symm

/-- The batch query finds, for each listed server, its own previous sample. -/
theorem previousByServer_get? (db : Store) (lo : Int) {serverIds : List Nat} {sid : Nat}
    (hsid : sid ∈ serverIds) :
    (previousByServer db lo serverIds).get? sid = (before db lo sid).getLast? := by
  unfold previousByServer
  dsimp only
  rw [Dict.get?_ofList_map]
  refine getLast?_eq_of_mem_iff fun m => ?_
  simp only [List.mem_filter, decide_eq_true_eq, List.mem_map]
  constructor
  · rintro ⟨⟨hm, s, ⟨-, -⟩, hs⟩, rfl⟩
    rw [previousId_eq] at hs
    obtain ⟨m', hm', hid⟩ := Option.map_eq_some_iff.mp hs
    have hBefore := mem_before.mp (List.mem_of_getLast? hm')
    obtain rfl := List.inj_on_of_nodup_map db.metricIds hBefore.1 hm hid
    rw [hBefore.2.1, hm']
  · intro h
    have hBefore := mem_before.mp (List.mem_of_getLast? h)
    refine ⟨⟨hBefore.1, sid, ⟨?_, hsid⟩, ?_⟩, hBefore.2.1⟩
    · exact hBefore.2.1 ▸ db.metricServer m hBefore.1
    · rw [previousId_eq, h]
      rfl

/-- What the loop runs over is the window of the timeline behind the carried-in sample. -/
theorem ordered_eq_timeline (db : Store) (lo hi : Int) {serverIds : List Nat} {sid : Nat}
    (hsid : sid ∈ serverIds) :
    ordered (hourRows db lo hi sid) ((previousByServer db lo serverIds).get? sid) =
      (before db lo sid).getLast?.toList ++ window db lo hi sid := by
  rw [previousByServer_get? db lo hsid]
  unfold ordered
  refine eq_of_perm_of_sorted db ?_ (List.pairwise_insertionSort _ _) ?_ ?_
  · refine (List.perm_insertionSort _ _).trans ?_
    exact ((hourRows_perm_window db lo hi sid).append_right _).trans List.perm_append_comm
  · refine (timeline_sorted db sid).sublist ?_
    conv_rhs => rw [timeline_eq db lo hi sid]
    refine List.Sublist.append ?_ (List.sublist_append_left _ _)
    cases hLast : (before db lo sid).getLast? with
    | none => simp
    | some m => simpa using List.mem_of_getLast? hLast
  · intro m hm
    rcases List.mem_append.mp ((List.mem_insertionSort _).mp hm) with hm | hm
    · exact (List.mem_filter.mp hm).1
    · exact (mem_before.mp (List.mem_of_getLast? (by simpa using hm))).1

/-! ## The loop -/

/-- A number of GPUs of a sample, which counts only while the sample is ok. -/
def weight (count : ServerMetric → Nat) (m : ServerMetric) : ℚ :=
  if m.status = .ok then count m else 0

def sampledAt (m : ServerMetric) : ℚ := totalSeconds m.collectedAt

def expiresAt (interval : Int) (m : ServerMetric) : ℚ :=
  totalSeconds (m.collectedAt + seconds (effectiveInterval interval m))

def gpuCount (m : ServerMetric) : Nat := m.gpus.length

def idleHeldCount (m : ServerMetric) : Nat := m.gpus.countP idleHeld

theorem totalSeconds_mono : Monotone totalSeconds := by
  intro a b h
  have : (a : ℚ) ≤ b := by exact_mod_cast h
  unfold totalSeconds
  linarith

theorem totalSeconds_sub (a b : Int) : totalSeconds (a - b) = totalSeconds a - totalSeconds b := by
  unfold totalSeconds
  push_cast
  ring

/-- The seconds a sample of the loop counts for are its span in the timeline. -/
theorem secs_eq_span (lo hi : Int) (interval : Int) (row : ServerMetric)
    (rest : List ServerMetric) :
    max 0 (totalSeconds (min (min ((rest.head?.map ServerMetric.collectedAt).getD hi)
        (row.collectedAt + seconds (effectiveInterval interval row))) hi -
          max row.collectedAt lo)) =
      span sampledAt (expiresAt interval) (totalSeconds lo) (totalSeconds hi) row
        ((rest.head?.map sampledAt).getD (totalSeconds hi)) := by
  have hNext : totalSeconds ((rest.head?.map ServerMetric.collectedAt).getD hi) =
      (rest.head?.map sampledAt).getD (totalSeconds hi) := by
    cases rest <;> rfl
  rw [span, totalSeconds_sub, totalSeconds_mono.map_min, totalSeconds_mono.map_min,
    totalSeconds_mono.map_max, hNext]
  rfl

theorem foldl_idleHeld (mins : ℚ) (gpus : List (Gpu ℚ)) (idle : ℚ) :
    gpus.foldl (fun idle g => if idleHeld g then idle + mins else idle) idle =
      idle + gpus.countP idleHeld * mins := by
  induction gpus generalizing idle with
  | nil => simp
  | cons g gpus ih =>
    rw [List.foldl_cons, ih]
    by_cases h : idleHeld g
    · rw [if_pos h, List.countP_cons_of_pos h]
      push_cast
      ring
    · rw [if_neg h, List.countP_cons_of_neg h]

/-- Both accumulators of the loop are one-pass sums over the timeline. -/
theorem integrate_eq_spanSum (lo hi : Int) (interval : Int) (rows : List ServerMetric)
    (acc : CardTime) :
    (integrate lo hi interval rows acc).gpuSampleMinutes = acc.gpuSampleMinutes +
        spanSum sampledAt (expiresAt interval) (weight gpuCount) (totalSeconds lo)
          (totalSeconds hi) rows / 60 ∧
      (integrate lo hi interval rows acc).idleHeldGpuMinutes = acc.idleHeldGpuMinutes +
        spanSum sampledAt (expiresAt interval) (weight idleHeldCount) (totalSeconds lo)
          (totalSeconds hi) rows / 60 := by
  induction rows generalizing acc with
  | nil => simp [integrate, spanSum]
  | cons row rest ih =>
    unfold integrate
    dsimp only
    rw [secs_eq_span lo hi interval row rest]
    simp only [spanSum, weight]
    by_cases hStatus : row.status = .ok
    · rw [if_neg (not_not.mpr hStatus), if_pos hStatus, if_pos hStatus]
      split
      · rename_i hZero
        obtain ⟨hGpu, hIdle⟩ := ih acc
        rw [hGpu, hIdle, hZero]
        simp only [mul_zero, zero_add, and_self]
      · obtain ⟨hGpu, hIdle⟩ := ih
          { gpuSampleMinutes := acc.gpuSampleMinutes + row.gpus.length *
              (span sampledAt (expiresAt interval) (totalSeconds lo) (totalSeconds hi) row
                ((rest.head?.map sampledAt).getD (totalSeconds hi)) / 60)
            idleHeldGpuMinutes := row.gpus.foldl (fun idle g => if idleHeld g then idle +
              (span sampledAt (expiresAt interval) (totalSeconds lo) (totalSeconds hi) row
                ((rest.head?.map sampledAt).getD (totalSeconds hi)) / 60) else idle)
              acc.idleHeldGpuMinutes
            gpuTimeEstimated := acc.gpuTimeEstimated || row.sampleIntervalSeconds.isNone }
        rw [hGpu, hIdle]
        dsimp only
        rw [foldl_idleHeld]
        constructor
        · rw [gpuCount]
          ring
        · rw [idleHeldCount]
          ring
    · obtain ⟨hGpu, hIdle⟩ := ih acc
      rw [if_pos hStatus, if_neg hStatus, if_neg hStatus, hGpu, hIdle]
      simp only [zero_mul, zero_add, and_self]

/-! ## The integral -/

/-- A `datetime` as a real number of seconds. -/
noncomputable def realSeconds (t : Int) : ℝ := t / 1000000

open Classical in
/-- The number of GPUs in force at `t`: those of the latest raw sample at or before `t`, if
that sample is ok and its own period, or the fallback, has not passed. -/
noncomputable def cardLevel (db : Store) (sid : Nat) (interval : Int)
    (count : ServerMetric → Nat) (t : ℝ) : ℝ :=
  match ((timeline db sid).filter fun m => realSeconds m.collectedAt ≤ t).getLast? with
  | some row =>
    if row.status = .ok ∧
        t < realSeconds (row.collectedAt + seconds (effectiveInterval interval row))
    then count row else 0
  | none => 0

/-- The literal of the minutes of an hour. -/
instance atLeastTwo_sixty : Nat.AtLeastTwo 60 := inferInstance

/-- Card minutes of the window `[lo, hi)`. -/
noncomputable def cardMinutes (db : Store) (sid : Nat) (interval : Int)
    (count : ServerMetric → Nat) (lo hi : Int) : ℝ :=
  1 / 60 * ∫ t in Set.Ico (realSeconds lo) (realSeconds hi), cardLevel db sid interval count t

theorem cast_totalSeconds (t : Int) : ((totalSeconds t : ℚ) : ℝ) = realSeconds t := by
  unfold totalSeconds realSeconds
  push_cast
  rfl

theorem realSeconds_le {a b : Int} : realSeconds a ≤ realSeconds b ↔ a ≤ b := by
  unfold realSeconds
  rw [div_le_div_iff_of_pos_right (by norm_num)]
  exact Int.cast_le

/-- `cardLevel` is the level of the whole timeline. -/
theorem cardLevel_eq_levelAt (db : Store) (sid : Nat) (interval : Int)
    (count : ServerMetric → Nat) (t : ℝ) :
    cardLevel db sid interval count t =
      levelAt (fun m => ((sampledAt m : ℚ) : ℝ)) (fun m => ((expiresAt interval m : ℚ) : ℝ))
        (fun m => ((weight count m : ℚ) : ℝ)) (timeline db sid) t := by
  unfold cardLevel levelAt latestAt
  simp only [sampledAt, expiresAt, cast_totalSeconds]
  have hFilter : (timeline db sid).filter (fun m =>
      @decide (realSeconds m.collectedAt ≤ t) (Classical.propDecidable _)) =
      (timeline db sid).filter fun m => decide (realSeconds m.collectedAt ≤ t) :=
    List.filter_congr fun m _ => by congr
  rw [hFilter]
  cases ((timeline db sid).filter fun m => decide (realSeconds m.collectedAt ≤ t)).getLast? with
  | none => rfl
  | some row =>
    by_cases hStatus : row.status = .ok
    · simp [weight, hStatus]
    · simp [weight, hStatus]

/-- Inside the window only the window and the one sample before it can be seen. -/
theorem levelAt_timeline {db : Store} {lo hi : Int} {sid : Nat} {expiry wt : ServerMetric → ℝ}
    {t : ℝ} (hlo : realSeconds lo ≤ t) (hhi : t < realSeconds hi) :
    levelAt (fun m => ((sampledAt m : ℚ) : ℝ)) expiry wt (timeline db sid) t =
      levelAt (fun m => ((sampledAt m : ℚ) : ℝ)) expiry wt
        ((before db lo sid).getLast?.toList ++ window db lo hi sid) t := by
  have hBefore : ∀ m ∈ before db lo sid, ((sampledAt m : ℚ) : ℝ) ≤ t := by
    intro m hm
    rw [sampledAt, cast_totalSeconds]
    exact (realSeconds_le.mpr (mem_before.mp hm).2.2.le).trans hlo
  have hAfter : ∀ m ∈ after db lo hi sid, t < ((sampledAt m : ℚ) : ℝ) := by
    intro m hm
    rw [sampledAt, cast_totalSeconds]
    exact hhi.trans_le (realSeconds_le.mpr (le_of_mem_after hm))
  unfold levelAt
  rw [timeline_eq db lo hi sid, ← List.append_assoc, latestAt_append_right _ _ hAfter,
    latestAt_append_left _ _ hBefore]

theorem sampledAt_sorted {rows : List ServerMetric}
    (h : rows.Pairwise fun a b => a.key ≤ b.key) :
    rows.Pairwise fun a b => ((sampledAt a : ℚ) : ℝ) ≤ ((sampledAt b : ℚ) : ℝ) := by
  refine h.imp fun hab => ?_
  rw [sampledAt, sampledAt, cast_totalSeconds, cast_totalSeconds]
  exact realSeconds_le.mpr (ServerMetric.collectedAt_le_of_key_le hab)

/-- The sum over the samples a rollup consults is the integral over the whole history. -/
theorem spanSum_eq_cardMinutes (db : Store) (lo hi : Int) (interval : Int)
    {serverIds : List Nat} {sid : Nat} (hsid : sid ∈ serverIds) (count : ServerMetric → Nat) :
    ((spanSum sampledAt (expiresAt interval) (weight count) (totalSeconds lo) (totalSeconds hi)
        (ordered (hourRows db lo hi sid) ((previousByServer db lo serverIds).get? sid)) / 60 : ℚ)
          : ℝ) = cardMinutes db sid interval count lo hi := by
  have hSorted : (ordered (hourRows db lo hi sid)
      ((previousByServer db lo serverIds).get? sid)).Pairwise fun a b => a.key ≤ b.key :=
    List.pairwise_insertionSort _ _
  rw [Rat.cast_div, cast_spanSum, ← integral_levelAt _ _ _ _ _ (sampledAt_sorted hSorted),
    cast_totalSeconds, cast_totalSeconds, cardMinutes,
    ordered_eq_timeline db lo hi hsid]
  have hLevel : ∫ t in Set.Ico (realSeconds lo) (realSeconds hi),
      cardLevel db sid interval count t = ∫ t in Set.Ico (realSeconds lo) (realSeconds hi),
        levelAt (fun m => ((sampledAt m : ℚ) : ℝ)) (fun m => ((expiresAt interval m : ℚ) : ℝ))
          (fun m => ((weight count m : ℚ) : ℝ))
          ((before db lo sid).getLast?.toList ++ window db lo hi sid) t := by
    refine setIntegral_congr_fun measurableSet_Ico fun t ht => ?_
    rw [cardLevel_eq_levelAt]
    exact levelAt_timeline ht.1 ht.2
  rw [hLevel]
  push_cast
  ring

theorem cardMinutes_adjacent (db : Store) (sid : Nat) (interval : Int)
    (count : ServerMetric → Nat) {lo mid hi : Int} (hlo : lo ≤ mid) (hhi : mid ≤ hi) :
    cardMinutes db sid interval count lo mid + cardMinutes db sid interval count mid hi =
      cardMinutes db sid interval count lo hi := by
  unfold cardMinutes
  rw [← mul_add]
  congr 1
  simp only [cardLevel_eq_levelAt]
  exact integral_levelAt_adjacent _ _ _ (realSeconds_le.mpr hlo) (realSeconds_le.mpr hhi)
    (sampledAt_sorted (timeline_sorted db sid))

theorem aggregate_cardTime (lo hi : Int) (interval : Int) (sid : Nat)
    (serverRows : List ServerMetric) (previous : Option ServerMetric) :
    (aggregate lo hi interval sid serverRows previous).gpuSampleMinutes =
        some (spanSum sampledAt (expiresAt interval) (weight gpuCount) (totalSeconds lo)
          (totalSeconds hi) (ordered serverRows previous) / 60) ∧
      (aggregate lo hi interval sid serverRows previous).idleHeldGpuMinutes =
        some (spanSum sampledAt (expiresAt interval) (weight idleHeldCount) (totalSeconds lo)
          (totalSeconds hi) (ordered serverRows previous) / 60) := by
  have hAvg : ∀ ok agg, (withAverages ok agg).gpuSampleMinutes = agg.gpuSampleMinutes ∧
      (withAverages ok agg).idleHeldGpuMinutes = agg.idleHeldGpuMinutes := by
    intro ok agg
    unfold withAverages
    split <;> exact ⟨rfl, rfl⟩
  obtain ⟨hGpu, hIdle⟩ := integrate_eq_spanSum lo hi interval (ordered serverRows previous)
    { gpuTimeEstimated := (serverRows.filter fun r => r.status = .ok).any fun r =>
        r.sampleIntervalSeconds.isNone }
  unfold aggregate
  dsimp only
  rw [(hAvg _ _).1, (hAvg _ _).2]
  dsimp only
  rw [hGpu, hIdle, zero_add, zero_add]
  exact ⟨rfl, rfl⟩

/-- **Card time.** Whenever a rollup computes the row of a server, its two card-time columns
are the integrals of the server's step functions over the hour. Windows that meet at an
instant add up, so the minutes of consecutive hours never overlap and never leave a gap. -/
theorem rollHour_cardTime (db : Store) (hourStart hourEnd : Int) (serverIds : List Nat)
    (interval : Int) (hNodup : serverIds.Nodup) (sid : Nat) (hsid : sid ∈ serverIds)
    (hRolled : ¬ (hourRows db hourStart hourEnd sid = [] ∧
      ∃ row ∈ db.hourly, row.serverId = sid ∧ row.hour = hourStart)) :
    (∃ db', rollHour db hourStart hourEnd serverIds interval = .ok db' ∧
      ∃! row, (row ∈ db'.hourly ∧ row.serverId = sid ∧ row.hour = hourStart) ∧
        ∃ gpuMinutes idleMinutes : ℚ,
          row.gpuSampleMinutes = some gpuMinutes ∧
          row.idleHeldGpuMinutes = some idleMinutes ∧
          (gpuMinutes : ℝ) = cardMinutes db sid interval gpuCount hourStart hourEnd ∧
          (idleMinutes : ℝ) = cardMinutes db sid interval idleHeldCount hourStart hourEnd) ∧
    ∀ count hourNext, hourStart ≤ hourEnd → hourEnd ≤ hourNext →
      cardMinutes db sid interval count hourStart hourEnd +
          cardMinutes db sid interval count hourEnd hourNext =
        cardMinutes db sid interval count hourStart hourNext := by
  refine ⟨?_, fun count hourNext h₁ h₂ => cardMinutes_adjacent db sid interval count h₁ h₂⟩
  obtain ⟨db', hOk, hIff⟩ := rollHour_row db hourStart hourEnd interval hNodup hsid hRolled
  obtain ⟨hGpu, hIdle⟩ := aggregate_cardTime hourStart hourEnd interval sid
    (hourRows db hourStart hourEnd sid) ((previousByServer db hourStart serverIds).get? sid)
  refine ⟨db', hOk, aggregate hourStart hourEnd interval sid (hourRows db hourStart hourEnd sid)
    ((previousByServer db hourStart serverIds).get? sid), ⟨(hIff _).mpr rfl, ?_⟩,
    fun row h => (hIff row).mp h.1⟩
  exact ⟨_, _, hGpu, hIdle,
    spanSum_eq_cardMinutes db hourStart hourEnd interval hsid gpuCount,
    spanSum_eq_cardMinutes db hourStart hourEnd interval hsid idleHeldCount⟩

/-- Server 1 with one sample thirty seconds before the hour and one inside it, that arrived
in the other order. -/
def carriedIn : Store where
  servers := [1]
  metrics := [
    { id := 8, serverId := 1, collectedAt := seconds 3630, sampleIntervalSeconds := some 60,
      gpus := [{}, {}] },
    { id := 7, serverId := 1, collectedAt := seconds 3570, gpus := [{}] }]
  hourly := []
  metricIds := by decide
  metricServer := by decide
  hourlyKeys := hourlyKeys_nil

theorem rollHour_cardTime_carriedIn :
    ∃ db', rollHour carriedIn (seconds 3600) (seconds 7200) [1] 60 = .ok db' ∧
      ∃ row ∈ db'.hourly, ∃ gpuMinutes : ℚ, row.gpuSampleMinutes = some gpuMinutes ∧
        (gpuMinutes : ℝ) =
          cardMinutes carriedIn 1 60 gpuCount (seconds 3600) (seconds 7200) := by
  obtain ⟨⟨db', hOk, row, ⟨⟨hMem, -, -⟩, gpuMinutes, -, hGpu, -, hEq, -⟩, -⟩, -⟩ :=
    rollHour_cardTime carriedIn (seconds 3600) (seconds 7200) [1] 60 (by decide) 1 (by decide)
      (by decide)
  exact ⟨db', hOk, row, hMem, gpuMinutes, hGpu, hEq⟩

end GpuMon.Rollup

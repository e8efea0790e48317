import GpuMon.CardTime
import GpuMon.Hourly.Aggregate

/-!
# Card time under the scheduler's own cadence (`scheduler._scheduler_loop`, `_poll_one`)

The loop waits for the poll interval after each cycle, so two samples of a server are the interval
and the work in between apart. A sample records the interval and counts no longer than that; the
time of the work is nobody's.

* `unbroken_sampleTimes`: samples of the loop cover a window only if a single one does.
* `full_hour_iff`: of an hour inside a run of successful polls with `n` cards the rollup has
  `60 * n` card minutes exactly when there are no cards or the hour lies in the interval of one
  sample.
* `hour_loses_work`: with cycles of 2 s an hour of one card has less than 60 minutes.
-/

namespace GpuMon.Rollup

open Timeline

/-- The times of a server's samples in consecutive cycles: between two of them the loop works for
a while and waits `interval` seconds. -/
def sampleTimes (interval : Int) : Int → List Int → List Int
  | t, [] => [t]
  | t, work :: rest => t :: sampleTimes interval (t + work + seconds interval) rest

/-- The samples of consecutive cycles, as `_poll_one` stores them when the polls succeed; the
server has `n` cards throughout. -/
structure Uninterrupted (interval : Int) (n : Nat) (start : Int) (work : List Int)
    (run : List ServerMetric) : Prop where
  times : run.map ServerMetric.collectedAt = sampleTimes interval start work
  ok : ∀ m ∈ run, m.status = .ok
  recorded : ∀ m ∈ run, m.sampleIntervalSeconds = some interval
  cards : ∀ m ∈ run, m.gpus.length = n

section Times

variable {interval start lo hi : Int} {work : List Int}

theorem le_of_mem_sampleTimes (hInterval : 0 < interval) (hWork : ∀ c ∈ work, 0 < c) {t : Int}
    (ht : t ∈ sampleTimes interval start work) : start ≤ t := by
  induction work generalizing start with
  | nil => exact (List.mem_singleton.mp ht).ge
  | cons c rest ih =>
    rcases List.mem_cons.mp ht with rfl | ht
    · exact le_rfl
    · have hLater := ih (fun x hx => hWork x (List.mem_cons_of_mem c hx)) ht
      have hPositive := hWork c List.mem_cons_self
      unfold seconds at hLater
      omega

theorem pairwise_sampleTimes (start : Int) (hInterval : 0 < interval) (hWork : ∀ c ∈ work, 0 < c) :
    (sampleTimes interval start work).Pairwise (· ≤ ·) := by
  induction work generalizing start with
  | nil => exact List.pairwise_singleton _ _
  | cons c rest ih =>
    have hRest : ∀ x ∈ rest, 0 < x := fun x hx => hWork x (List.mem_cons_of_mem c hx)
    refine List.pairwise_cons.mpr ⟨fun t ht => ?_, ih _ hRest⟩
    have hLater := le_of_mem_sampleTimes hInterval hRest ht
    have hPositive := hWork c List.mem_cons_self
    unfold seconds at hLater
    omega

theorem head?_sampleTimes : (sampleTimes interval start work).head? = some start := by
  cases work <;> rfl

/-- Samples after the window leave no break in it. -/
theorem unbroken_of_late {expiry : Int → Int} {times : List Int}
    (hLate : ∀ t ∈ times, hi ≤ t) (hExpiry : ∀ t, t ≤ expiry t) :
    Unbroken id expiry lo hi times := by
  induction times with
  | nil => trivial
  | cons t rest ih =>
    refine ⟨?_, ih fun x hx => hLate x (List.mem_cons_of_mem t hx)⟩
    have hHere := hLate t List.mem_cons_self
    have hLasts := hExpiry t
    omega

/-- Since each sample expires before the next one, only one of them can cover the window. -/
theorem unbroken_sampleTimes (hInterval : 0 < interval) (hWork : ∀ c ∈ work, 0 < c)
    (hWindow : lo < hi) (hFrom : start ≤ lo)
    (hTo : ∃ t ∈ sampleTimes interval start work, hi ≤ t) :
    Unbroken id (· + seconds interval) lo hi (sampleTimes interval start work) ↔
      ∃ t ∈ sampleTimes interval start work, t ≤ lo ∧ hi ≤ t + seconds interval := by
  have hLasts : 0 < seconds interval := by
    unfold seconds
    omega
  induction work generalizing start with
  | nil =>
    obtain ⟨t, ht, hLate⟩ := hTo
    obtain rfl := List.mem_singleton.mp ht
    omega
  | cons c rest ih =>
    have hPositive := hWork c List.mem_cons_self
    have hRest : ∀ x ∈ rest, 0 < x := fun x hx => hWork x (List.mem_cons_of_mem c hx)
    have hLater : ∀ t ∈ sampleTimes interval (start + c + seconds interval) rest,
        start + c + seconds interval ≤ t := fun t ht => le_of_mem_sampleTimes hInterval hRest ht
    rw [sampleTimes, Unbroken, head?_sampleTimes, List.exists_mem_cons_iff]
    simp only [Option.map_some, Option.getD_some, id_eq]
    by_cases hOver : start + c + seconds interval ≤ lo
    · -- the first sample is over before the window
      obtain ⟨t, ht, hLate⟩ := hTo
      have hTail : ∃ t ∈ sampleTimes interval (start + c + seconds interval) rest, hi ≤ t := by
        rcases List.mem_cons.mp ht with rfl | ht
        · omega
        · exact ⟨t, ht, hLate⟩
      have hIff := ih hRest hOver hTail
      constructor
      · rintro ⟨-, h⟩
        exact .inr (hIff.mp h)
      · rintro (⟨-, hCovers⟩ | h)
        · omega
        · exact ⟨by omega, hIff.mpr h⟩
    · by_cases hCovers : hi ≤ start + seconds interval
      · have hTail : Unbroken id (· + seconds interval) lo hi
            (sampleTimes interval (start + c + seconds interval) rest) :=
          unbroken_of_late (fun t ht => (hCovers.trans (by omega)).trans (hLater t ht))
            fun t => by omega
        exact iff_of_true ⟨by omega, hTail⟩ (.inl ⟨hFrom, hCovers⟩)
      · refine iff_of_false (fun h => ?_) ?_
        · have hCut := h.1
          omega
        · rintro (⟨-, h⟩ | ⟨t, ht, hEarly, -⟩)
          · omega
          · have := hLater t ht
            omega

end Times

/-! ## The row of an hour -/

theorem strictMono_totalSeconds : StrictMono totalSeconds := by
  intro a b h
  have : (a : ℚ) < b := by exact_mod_cast h
  unfold totalSeconds
  linarith

/-- The samples a rollup consults add up to what the whole history does. -/
theorem spanSum_ordered (db : Store) (lo hi : Int) (interval : Int) {serverIds : List Nat}
    {sid : Nat} (hsid : sid ∈ serverIds) (wt : ServerMetric → ℚ) :
    spanSum sampledAt (expiresAt interval) wt (totalSeconds lo) (totalSeconds hi)
        (ordered (hourRows db lo hi sid) ((previousByServer db lo serverIds).get? sid)) =
      spanSum sampledAt (expiresAt interval) wt (totalSeconds lo) (totalSeconds hi)
        (timeline db sid) := by
  have hAfter : ∀ m ∈ after db lo hi sid, totalSeconds hi ≤ sampledAt m :=
    fun m hm => totalSeconds_mono (le_of_mem_after hm)
  have hBefore : ∀ m ∈ before db lo sid, sampledAt m ≤ totalSeconds lo :=
    fun m hm => totalSeconds_mono (mem_before.mp hm).2.2.le
  rw [ordered_eq_timeline db lo hi hsid, timeline_eq db lo hi sid, ← List.append_assoc,
    spanSum_append_right _ _ _ _ hAfter]
  cases hLast : (before db lo sid).getLast? with
  | none => rw [List.getLast?_eq_none_iff.mp hLast, Option.toList_none]
  | some m =>
    obtain ⟨earlier, hSplit⟩ := List.getLast?_eq_some_iff.mp hLast
    rw [hSplit] at hBefore ⊢
    rw [Option.toList_some, List.append_assoc]
    exact (spanSum_append_left _ _ _ _ (fun x hx => hBefore x (List.mem_append_left _ hx))
      (hBefore m (List.mem_append_right _ List.mem_cons_self))).symm

section Hour

variable {db : Store} {serverIds : List Nat} {sid : Nat} {interval : Int} {n : Nat} {start : Int}
  {work : List Int} {earlier run later : List ServerMetric} {hour : Int}

theorem Uninterrupted.exists_cons (hRun : Uninterrupted interval n start work run) :
    ∃ first rest, run = first :: rest ∧ first.collectedAt = start := by
  have hTimes := hRun.times
  cases run with
  | nil => cases work <;> cases hTimes
  | cons first rest =>
    refine ⟨first, rest, rfl, ?_⟩
    have hHead := congrArg List.head? hTimes
    rw [head?_sampleTimes] at hHead
    exact Option.some.inj hHead

theorem Uninterrupted.exists_of_mem (hRun : Uninterrupted interval n start work run) {t : Int}
    (ht : t ∈ sampleTimes interval start work) : ∃ m ∈ run, m.collectedAt = t := by
  rw [← hRun.times] at ht
  exact List.mem_map.mp ht

/-- Of the history of a server the run alone counts for an hour inside it. -/
theorem spanSum_history (hRun : Uninterrupted interval n start work run)
    (hHistory : timeline db sid = earlier ++ (run ++ later)) {lo hi : Int} (hFrom : start ≤ lo)
    (hTo : ∃ t ∈ sampleTimes interval start work, hi ≤ t) (expiry : ServerMetric → ℚ) :
    spanSum sampledAt expiry (weight gpuCount) (totalSeconds lo) (totalSeconds hi)
        (timeline db sid) =
      n * spanSum sampledAt expiry (fun _ => 1) (totalSeconds lo) (totalSeconds hi) run := by
  obtain ⟨first, rest, rfl, hFirst⟩ := hRun.exists_cons
  have hSorted := timeline_sorted db sid
  rw [hHistory, List.pairwise_append, List.pairwise_append] at hSorted
  obtain ⟨-, ⟨-, -, hLater⟩, hEarlier⟩ := hSorted
  have hBegin : sampledAt first ≤ totalSeconds lo := totalSeconds_mono (hFirst ▸ hFrom)
  have hBefore : ∀ m ∈ earlier, sampledAt m ≤ totalSeconds lo := by
    intro m hm
    have hFirstMem := List.mem_append_left later (List.mem_cons_self (a := first) (l := rest))
    have := ServerMetric.collectedAt_le_of_key_le (hEarlier m hm first hFirstMem)
    exact (totalSeconds_mono this).trans hBegin
  have hAfter : ∀ m ∈ later, totalSeconds hi ≤ sampledAt m := by
    intro m hm
    obtain ⟨t, ht, hEnd⟩ := hTo
    obtain ⟨last, hLast, rfl⟩ := hRun.exists_of_mem ht
    have := ServerMetric.collectedAt_le_of_key_le (hLater last hLast m hm)
    exact totalSeconds_mono (hEnd.trans this)
  have hWeight : ∀ m ∈ first :: rest, weight gpuCount m = n := by
    intro m hm
    rw [weight, if_pos (hRun.ok m hm), gpuCount, hRun.cards m hm]
  rw [hHistory, List.cons_append, spanSum_append_left _ _ _ _ hBefore hBegin, ← List.cons_append,
    spanSum_append_right _ _ _ _ hAfter, spanSum_const _ _ _ _ hWeight]

/-- The run covers an hour inside it when one of its samples does. -/
theorem covers_iff (hInterval : 0 < interval) (hRun : Uninterrupted interval n start work run)
    (hWork : ∀ c ∈ work, 0 < c) (hFrom : start ≤ hour)
    (hTo : ∃ t ∈ sampleTimes interval start work, hour + oneHour ≤ t) (rollInterval : Int) :
    spanSum sampledAt (expiresAt rollInterval) (fun _ => 1) (totalSeconds hour)
        (totalSeconds (hour + oneHour)) run = 3600 ↔
      ∃ t ∈ sampleTimes interval start work,
        t ≤ hour ∧ hour + oneHour ≤ t + seconds interval := by
  obtain ⟨first, rest, rfl, hFirst⟩ := hRun.exists_cons
  have hExpires : ∀ m ∈ first :: rest, expiresAt rollInterval m =
      totalSeconds (m.collectedAt + seconds interval) := by
    intro m hm
    rw [expiresAt, effectiveInterval, hRun.recorded m hm]
    simp [hInterval.ne']
  have hSorted : (first :: rest).Pairwise fun a b => sampledAt a ≤ sampledAt b := by
    have hTimes := pairwise_sampleTimes start hInterval hWork
    rw [← hRun.times, List.pairwise_map] at hTimes
    exact hTimes.imp fun h => totalSeconds_mono h
  have hExpiry : ∀ m ∈ first :: rest, sampledAt m ≤ expiresAt rollInterval m := by
    intro m hm
    rw [hExpires m hm]
    refine totalSeconds_mono ?_
    unfold seconds
    omega
  have hLength : totalSeconds (hour + oneHour) = totalSeconds hour + 3600 := by
    unfold totalSeconds oneHour seconds
    push_cast
    ring
  have hWindow : totalSeconds hour ≤ totalSeconds (hour + oneHour) := by
    rw [hLength]
    linarith
  have hBegin : max (totalSeconds hour) (min (sampledAt first) (totalSeconds (hour + oneHour))) =
      totalSeconds hour :=
    max_eq_left ((min_le_left _ _).trans (totalSeconds_mono (hFirst ▸ hFrom)))
  have hFull := (spanSum_le_window hWindow hSorted hExpiry).2
  rw [hBegin, hLength, add_sub_cancel_left] at hFull
  rw [hLength, hFull, ← hLength,
    unbroken_map strictMono_totalSeconds ServerMetric.collectedAt sampledAt (expiresAt rollInterval)
      id (· + seconds interval) hour (hour + oneHour) fun m hm => ⟨rfl, hExpires m hm⟩,
    hRun.times]
  refine unbroken_sampleTimes hInterval hWork ?_ hFrom hTo
  unfold oneHour seconds
  omega

/-- **No card time is lost** only where one sample lasts for the whole hour. -/
theorem full_hour_iff (hNodup : serverIds.Nodup) (hsid : sid ∈ serverIds) (rollInterval : Int)
    (hInterval : 0 < interval) (hRun : Uninterrupted interval n start work run)
    (hWork : ∀ c ∈ work, 0 < c) (hHistory : timeline db sid = earlier ++ (run ++ later))
    (hFrom : start ≤ hour) (hTo : ∃ t ∈ sampleTimes interval start work, hour + oneHour ≤ t)
    (hRolled : ¬(hourRows db hour (hour + oneHour) sid = [] ∧ HasRow db sid hour)) :
    ∃ db', rollHour db hour (hour + oneHour) serverIds rollInterval = .ok db' ∧
      ∃ row minutes, row ∈ db'.hourly ∧ row.serverId = sid ∧ row.hour = hour ∧
        row.gpuSampleMinutes = some minutes ∧
        (minutes = 60 * n ↔ n = 0 ∨ ∃ t ∈ sampleTimes interval start work,
          t ≤ hour ∧ hour + oneHour ≤ t + seconds interval) := by
  obtain ⟨db', hOk, hIff⟩ :=
    rollHour_row db hour (hour + oneHour) rollInterval hNodup hsid hRolled
  obtain ⟨hMem, hServer, hHour⟩ := (hIff _).mpr rfl
  obtain ⟨hMinutes, -⟩ := aggregate_cardTime hour (hour + oneHour) rollInterval sid
    (hourRows db hour (hour + oneHour) sid) ((previousByServer db hour serverIds).get? sid)
  refine ⟨db', hOk, _, _, hMem, hServer, hHour, hMinutes, ?_⟩
  rw [spanSum_ordered db _ _ _ hsid, spanSum_history hRun hHistory hFrom hTo,
    ← covers_iff hInterval hRun hWork hFrom hTo rollInterval]
  constructor
  · intro hFull
    by_cases hCards : n = 0
    · exact .inl hCards
    · refine .inr ?_
      have hPositive : (n : ℚ) ≠ 0 := Nat.cast_ne_zero.mpr hCards
      refine mul_left_cancel₀ hPositive ?_
      linarith
  · rintro (rfl | hCovered)
    · simp
    · rw [hCovered]
      ring

end Hour

/-- Three samples of one card, half an hour and two seconds apart. -/
def threeCycles : Store where
  servers := [1]
  metrics := [
    { id := 1, serverId := 1, collectedAt := 0, sampleIntervalSeconds := some 1800,
      gpus := [{}] },
    { id := 2, serverId := 1, collectedAt := seconds 1802, sampleIntervalSeconds := some 1800,
      gpus := [{}] },
    { id := 3, serverId := 1, collectedAt := seconds 3604, sampleIntervalSeconds := some 1800,
      gpus := [{}] }]
  hourly := []
  metricIds := by decide
  metricServer := by decide
  hourlyKeys := hourlyKeys_nil

theorem uninterrupted_threeCycles :
    Uninterrupted 1800 1 0 [seconds 2, seconds 2] threeCycles.metrics :=
  ⟨by decide, by decide, by decide, by decide⟩

theorem full_hour_iff_threeCycles :
    ∃ db', rollHour threeCycles 0 (0 + oneHour) [1] 1800 = .ok db' ∧
      ∃ row minutes, row ∈ db'.hourly ∧ row.gpuSampleMinutes = some minutes ∧
        (minutes = 60 * (1 : Nat) ↔ (1 : Nat) = 0 ∨
          ∃ t ∈ sampleTimes 1800 0 [seconds 2, seconds 2],
            t ≤ 0 ∧ 0 + oneHour ≤ t + seconds 1800) := by
  have hHistory : timeline threeCycles 1 = [] ++ (threeCycles.metrics ++ []) := by
    decide +kernel
  have hRolled : ¬(hourRows threeCycles 0 (0 + oneHour) 1 = [] ∧ HasRow threeCycles 1 0) := by
    rintro ⟨h, -⟩
    exact absurd h (by decide)
  obtain ⟨db', hOk, row, minutes, hMem, -, -, hMinutes, hIff⟩ :=
    full_hour_iff (by decide) (by decide : 1 ∈ [1]) 1800 (by decide) uninterrupted_threeCycles
      (by decide) hHistory le_rfl ⟨seconds 3604, by decide, by decide⟩ hRolled
  exact ⟨db', hOk, row, minutes, hMem, hMinutes, hIff⟩

/-- The two seconds of work are missing. -/
theorem hour_loses_work : Uninterrupted 1800 1 0 [seconds 2, seconds 2] threeCycles.metrics ∧
    (rollHour threeCycles 0 (0 + oneHour) [1] 1800).map
      (fun db' => db'.hourly.map ServerMetricHourly.gpuSampleMinutes) =
        .ok [some (1799 / 30)] :=
  ⟨uninterrupted_threeCycles, by decide +kernel⟩

end GpuMon.Rollup

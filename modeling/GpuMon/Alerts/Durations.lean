import GpuMon.Alerts.Recovery

/-!
# The duration of a rule and the poll interval

A rule with a duration fires when the breach shows in enough samples of the time before the newest
one. How many are enough follows from the duration and the poll interval, and is never less than
two.

* `held_iff_of_steady`: a server sampled exactly once in each interval, with every sample of the
  duration in breach, has enough of them exactly when the interval is not longer than the duration.
* `steady_opens_iff`: so a pass opens the event of the rule in that case only.
-/

namespace GpuMon.Alerts

/-! ## Samples one interval apart -/

theorem filter_range_lt (n b : Nat) : (List.range n).filter (· < b) = List.range (min n b) := by
  induction n with
  | zero => simp
  | succ n ih =>
    rw [List.range_succ, List.filter_append, ih]
    by_cases h : n < b
    · rw [List.filter_singleton, decide_eq_true h, min_eq_left (le_of_lt h), min_eq_left h,
        List.range_succ]
      rfl
    · have hLe := not_lt.mp h
      rw [List.filter_singleton, decide_eq_false h, min_eq_right hLe,
        min_eq_right (Nat.le_succ_of_le hLe)]
      exact List.append_nil _

theorem sub_seconds_le_iff (t : Int) (a b : Nat) : t - seconds a ≤ t - seconds b ↔ b ≤ a := by
  unfold seconds
  omega

theorem sub_seconds_le (t : Int) (a : Nat) : t - seconds a ≤ t := by
  unfold seconds
  omega

/-- The times one interval apart, backwards from the newest one. -/
def steadyTimes (newest : Int) (interval n : Nat) : List Int :=
  (List.range n).map fun k => newest - seconds (k * interval : Nat)

/-- Of times that reach back far enough, the quotient and one more fall into a window. -/
theorem count_steadyTimes {newest : Int} {interval n window : Nat} (hInterval : 0 < interval)
    (hReach : window ≤ (n - 1) * interval) (hSome : 0 < n) :
    ((steadyTimes newest interval n).filter fun t => newest - seconds window ≤ t).length =
      window / interval + 1 := by
  have hIn : ∀ k : Nat, decide (newest - seconds window ≤ newest - seconds (k * interval : Nat)) =
      decide (k < window / interval + 1) := by
    intro k
    rw [decide_eq_decide, sub_seconds_le_iff, Nat.lt_succ_iff, Nat.le_div_iff_mul_le hInterval]
  have hMin : min n (window / interval + 1) = window / interval + 1 := by
    have hQuot : window / interval ≤ n - 1 := Nat.div_le_of_le_mul (by rwa [mul_comm])
    omega
  rw [steadyTimes, List.filter_map, List.length_map]
  simp only [Function.comp_def, hIn]
  rw [filter_range_lt, hMin, List.length_range]

/-! ## The state before the pass -/

/-- The ok samples of a server from a time on. -/
def okSince (db : Store) (sid : Nat) (t : Int) : List ServerMetric :=
  (okSamples db sid).filter fun r => t ≤ r.collectedAt

/-- The newest `n` ok samples of a server lie one interval apart and reach back as far as the
duration of the rule, and each has a value that breaches it. -/
structure SteadyBreach (db : Store) (rule : AlertRule) (sid : Nat) (newest : Int)
    (interval n : Nat) : Prop where
  several : 2 ≤ n
  reach : rule.durationMinutes * 60 ≤ (n - 1) * interval
  times : ((okSince db sid (newest - seconds ((n - 1) * interval : Nat))).map
    ServerMetric.collectedAt).Perm (steadyTimes newest interval n)
  breach : ∀ m ∈ okSince db sid (newest - seconds ((n - 1) * interval : Nat)),
    ∃ value, extractMetric m rule.metric = some value ∧
      compare value rule.op rule.threshold = true

/-- An enabled rule with a duration, an enabled server outside maintenance that it targets, a
steady breach, and no event open. -/
structure SteadyPair (env : Environment) (db : Store) (rule : AlertRule) (server : Server)
    (interval : Nat) : Prop where
  poll : env.interval = interval
  pollMin : 10 ≤ interval
  pollMax : interval ≤ 86400
  duration : 1 ≤ rule.durationMinutes
  durationMax : rule.durationMinutes ≤ 1440
  ruleMem : rule ∈ db.rules.rows
  ruleEnabled : rule.enabled = true
  target : targets rule server.id
  serverMem : server ∈ db.servers.rows
  serverEnabled : server.enabled = true
  active : server.status ≠ .maintenance
  steady : ∃ newest n, SteadyBreach db rule server.id newest interval n
  noneOpen : ∀ ev ∈ db.events.rows, ¬ openFor rule.id server.id ev = true

section Steady

variable {env : Environment} {db : Store} {rule : AlertRule} {sid : Nat} {newest : Int}
  {interval n : Nat} {m : ServerMetric}

theorem mem_okSince {t : Int} :
    m ∈ okSince db sid t ↔ m ∈ okSamples db sid ∧ t ≤ m.collectedAt := by
  simp [okSince]

theorem exists_newestOk (h : okSamples db sid ≠ []) : ∃ newest, IsNewestOk db sid newest := by
  obtain ⟨top, hTop⟩ := Option.ne_none_iff_exists'.mp fun hNone =>
    h (List.argmax_eq_none (f := ServerMetric.key).mp hNone)
  obtain ⟨hRow, hServer, hOk⟩ := mem_okSamples.mp (List.argmax_mem hTop)
  exact ⟨top, hRow, hServer, hOk, fun r hr hOwn hStatus =>
    List.le_of_mem_argmax (mem_okSamples.mpr ⟨hr, hOwn, hStatus⟩) hTop⟩

theorem SteadyBreach.okSamples_ne_nil (h : SteadyBreach db rule sid newest interval n) :
    okSamples db sid ≠ [] := by
  intro hNil
  have hTimes := h.times.length_eq
  have := h.several
  simp only [okSince, hNil, List.filter_nil, List.map_nil, List.length_nil, steadyTimes,
    List.length_map, List.length_range] at hTimes
  omega

/-- The newest ok sample has the newest of the times. -/
theorem collectedAt_of_newest (h : SteadyBreach db rule sid newest interval n)
    (hNewest : IsNewestOk db sid m) : m.collectedAt = newest := by
  have hTop : newest ∈ steadyTimes newest interval n :=
    List.mem_map.mpr ⟨0, List.mem_range.mpr (by have := h.several; omega), by simp [seconds]⟩
  obtain ⟨top, hMem, hTime⟩ := List.mem_map.mp (h.times.mem_iff.mpr hTop)
  obtain ⟨hRow, hServer, hOk⟩ := mem_okSamples.mp (mem_okSince.mp hMem).1
  have hLe : newest ≤ m.collectedAt := by
    rw [← hTime]
    exact ServerMetric.collectedAt_le_of_key_le (hNewest.newest top hRow hServer hOk)
  have hOwn : m ∈ okSince db sid (newest - seconds ((n - 1) * interval : Nat)) := by
    refine mem_okSince.mpr ⟨mem_okSamples.mpr ⟨hNewest.mem, hNewest.server, hNewest.ok⟩, ?_⟩
    exact le_trans (sub_seconds_le _ _) hLe
  obtain ⟨k, -, hk⟩ := List.mem_map.mp (h.times.mem_iff.mp (List.mem_map_of_mem hOwn))
  refine le_antisymm ?_ hLe
  rw [← hk]
  exact sub_seconds_le _ _

/-- The samples of the rule's duration are among the steady ones. -/
theorem mem_window (h : SteadyBreach db rule sid newest interval n)
    (hm : m ∈ okSince db sid (newest - minutes rule.durationMinutes)) :
    m ∈ okSince db sid (newest - seconds ((n - 1) * interval : Nat)) := by
  obtain ⟨hOk, hTime⟩ := mem_okSince.mp hm
  refine mem_okSince.mpr ⟨hOk, le_trans ?_ hTime⟩
  exact (sub_seconds_le_iff newest ((n - 1) * interval) (rule.durationMinutes * 60)).mpr h.reach

theorem length_window (h : SteadyBreach db rule sid newest interval n) (hInterval : 0 < interval) :
    (okSince db sid (newest - minutes rule.durationMinutes)).length =
      rule.durationMinutes * 60 / interval + 1 := by
  have hWindow : okSince db sid (newest - minutes rule.durationMinutes) =
      (okSince db sid (newest - seconds ((n - 1) * interval : Nat))).filter fun r =>
        newest - minutes rule.durationMinutes ≤ r.collectedAt := by
    unfold okSince
    rw [List.filter_filter]
    refine List.filter_congr fun r hr => ?_
    rw [Bool.eq_iff_iff, Bool.and_eq_true]
    refine ⟨fun hTime => ⟨hTime, decide_eq_true ?_⟩, And.left⟩
    have hMem := mem_window h (mem_okSince.mpr ⟨hr, of_decide_eq_true hTime⟩)
    exact (mem_okSince.mp hMem).2
  calc (okSince db sid (newest - minutes rule.durationMinutes)).length
      = (((okSince db sid (newest - seconds ((n - 1) * interval : Nat))).map
          ServerMetric.collectedAt).filter fun t =>
            newest - minutes rule.durationMinutes ≤ t).length := by
        rw [hWindow, List.filter_map, List.length_map]
        rfl
    _ = ((steadyTimes newest interval n).filter fun t =>
          newest - minutes rule.durationMinutes ≤ t).length := (h.times.filter _).length_eq
    _ = rule.durationMinutes * 60 / interval + 1 :=
        count_steadyTimes hInterval h.reach (by have := h.several; omega)

/-- Enough samples: at least two of them, and half of those expected. -/
theorem enough_iff {duration : Nat} (hPoll : 10 ≤ interval) :
    max 2 (max 1 ((duration : Int) * 60 / max 10 (interval : Int)) / 2) ≤
      ((duration * 60 / interval + 1 : Nat) : Int) ↔ interval ≤ duration * 60 := by
  have hMax : max 10 (interval : Int) = interval := max_eq_right (by exact_mod_cast hPoll)
  have hQuot : (duration : Int) * 60 / interval = (duration * 60 / interval : Nat) := by
    push_cast
    rfl
  have hPos : 0 < duration * 60 / interval ↔ interval ≤ duration * 60 := by
    rw [Nat.div_pos_iff]
    exact and_iff_right (by omega)
  rw [hMax, hQuot, ← hPos]
  omega

/-- What the query for the duration finds in a steady state. -/
theorem held_iff_of_steady (hPoll : env.interval = interval) (hMin : 10 ≤ interval)
    (h : SteadyBreach db rule sid newest interval n) (hNewest : m.collectedAt = newest) :
    heldForDuration env db rule sid m = true ↔ interval ≤ rule.durationMinutes * 60 := by
  have hValues : ∀ rows : List ServerMetric,
      (∀ r ∈ rows, r ∈ okSince db sid (newest - minutes rule.durationMinutes)) →
      (rows.filterMap fun r => extractMetric r rule.metric).length = rows.length ∧
        ((rows.filterMap fun r => extractMetric r rule.metric).all fun v =>
          compare v rule.op rule.threshold) = true := by
    intro rows hRows
    induction rows with
    | nil => exact ⟨rfl, rfl⟩
    | cons r rows ih =>
      obtain ⟨value, hValue, hBreach⟩ := h.breach r (mem_window h (hRows r List.mem_cons_self))
      obtain ⟨hLength, hAll⟩ := ih fun r' hr' => hRows r' (List.mem_cons_of_mem _ hr')
      rw [List.filterMap_cons_some (f := fun r => extractMetric r rule.metric) hValue]
      exact ⟨by rw [List.length_cons, hLength, List.length_cons],
        by rw [List.all_cons, hBreach, hAll, Bool.and_self]⟩
  obtain ⟨hLength, hAll⟩ := hValues ((okSince db sid (newest - minutes rule.durationMinutes)).insertionSort
    fun a b => a.collectedAt ≤ b.collectedAt) fun r hr => (List.mem_insertionSort _).mp hr
  rw [List.length_insertionSort, length_window h (by omega)] at hLength
  rw [okSince] at hLength hAll
  rw [← enough_iff hMin, ← hLength]
  simp only [heldForDuration, hNewest, hPoll]
  rw [hAll, Bool.and_true, decide_eq_true_iff]

/-- The turn of a steady pair: the event is opened if the breach has held. -/
theorem evalPair_steady {events events' : Table AlertEvent} {value : ℚ}
    (hActive : sid ∉ maintenanceIds db) (hLatest : (latestByServer db).get? sid = some m)
    (hValue : extractMetric m rule.metric = some value)
    (hBreach : compare value rule.op rule.threshold = true) (hDuration : 0 < rule.durationMinutes)
    (hNone : ∀ ev ∈ events.rows, ¬ openFor rule.id sid ev = true)
    (h : evalPair env db rule sid events = .completed events') :
    (∃ ev ∈ events'.rows, openFor rule.id sid ev = true) ↔
      heldForDuration env db rule sid m = true := by
  have hFind : events.rows.find? (openFor rule.id sid) = none := List.find?_eq_none.mpr hNone
  simp only [evalPair, if_neg hActive, hLatest, hValue, hBreach, hFind, if_true, hDuration,
    decide_true, Bool.true_and, Bool.not_eq_true'] at h
  split at h
  · rename_i hHeld
    cases h
    refine iff_of_false ?_ (by rw [hHeld]; exact Bool.false_ne_true)
    rintro ⟨ev, hEv, hOpen⟩
    exact hNone ev hEv hOpen
  · rename_i hHeld
    refine iff_of_true ?_ (Bool.eq_true_of_not_eq_false hHeld)
    have hNew : openFor rule.id sid (newEvent env rule m sid value events.nextKey) = true :=
      openFor_iff.mpr ⟨rfl, rfl, rfl⟩
    unfold fire at h
    split at h
    · cases h
    dsimp only at h
    split at h
    · cases h
    · cases h
      exact ⟨_, Table.mem_insert.mpr (.inr rfl), hNew⟩
    · cases h
      rw [Table.modify_insert]
      exact ⟨_, Table.mem_insert.mpr (.inr rfl), hNew⟩

end Steady

/-- A steady breach opens the event of the rule exactly when the poll interval is not longer than
the duration: with a longer one there is a single sample in the window, and two are required. -/
theorem steady_opens_iff {env : Environment} {db db' : Store} {rule : AlertRule} {server : Server}
    {interval : Nat} (h : SteadyPair env db rule server interval)
    (hPass : evalAlerts env db = .completed db') :
    (∃ ev ∈ db'.events.rows, openFor rule.id server.id ev = true) ↔
      interval ≤ rule.durationMinutes * 60 := by
  obtain ⟨newest, n, hSteady⟩ := h.steady
  obtain ⟨m, hNewest⟩ := exists_newestOk hSteady.okSamples_ne_nil
  have hTime := collectedAt_of_newest hSteady hNewest
  have hLatest := latestByServer_of_newest h.serverMem h.serverEnabled hNewest
  have hMem := mem_pairs_of_latest h.ruleMem h.ruleEnabled h.target hLatest
  obtain ⟨value, hValue, hBreach⟩ := hSteady.breach m <| mem_okSince.mpr
    ⟨mem_okSamples.mpr ⟨hNewest.mem, hNewest.server, hNewest.ok⟩,
      by rw [hTime]; exact sub_seconds_le _ _⟩
  unfold evalAlerts at hPass
  split at hPass
  · rename_i events hPairs
    cases hPass
    obtain ⟨before, after, hTurn, -, hBefore, hAfter⟩ :=
      evalPairs_turn (nodup_pairs db) hMem hPairs
    have hNone : ∀ ev ∈ before.rows, ¬ openFor rule.id server.id ev = true :=
      fun ev hEv hOpen => h.noneOpen ev ((hBefore ev hOpen).mp hEv) hOpen
    rw [← held_iff_of_steady h.poll h.pollMin hSteady hTime,
      ← evalPair_steady (notMem_maintenanceIds h.serverMem h.active) hLatest hValue hBreach
        h.duration hNone hTurn]
    exact exists_congr fun ev => and_congr_left fun hOpen => hAfter ev hOpen
  · cases hPass

/-- A rule on the CPU with a duration of `duration` minutes, and a server with `n` samples in
breach, `interval` seconds apart. -/
def busyServer (duration interval n : Nat) : Store where
  rules := ⟨[{ id := 1, metric := .cpuPercent, threshold := 90, durationMinutes := duration }],
    List.nodup_singleton _⟩
  servers := ⟨[{ id := 1 }], List.nodup_singleton _⟩
  metrics := ⟨(List.range n).map fun k =>
    { id := k, serverId := 1, collectedAt := -seconds (k * interval : Nat), cpuPercent := 95 }, by
    rw [List.map_map]
    exact List.nodup_range.map fun _ _ h => h⟩
  events := Table.empty

def pollEvery (interval : Nat) : Environment where
  interval
  now := fun _ _ => 0
  floatText := fun _ => []

theorem busyServer_steady (duration interval n : Nat) (hPoll : 10 ≤ interval ∧ interval ≤ 86400)
    (hDuration : 1 ≤ duration ∧ duration ≤ 1440) (hSeveral : 2 ≤ n)
    (hReach : duration * 60 ≤ (n - 1) * interval) :
    SteadyPair (pollEvery interval) (busyServer duration interval n)
      { id := 1, metric := .cpuPercent, threshold := 90, durationMinutes := duration } { id := 1 }
      interval := by
  have hSamples : okSince (busyServer duration interval n) 1
      (0 - seconds ((n - 1) * interval : Nat)) = (busyServer duration interval n).metrics.rows := by
    rw [okSince, okSamples, List.filter_filter, List.filter_eq_self]
    intro m hm
    obtain ⟨k, hk, rfl⟩ := List.mem_map.mp hm
    have hLast : k * interval ≤ (n - 1) * interval :=
      Nat.mul_le_mul_right _ (Nat.le_sub_one_of_lt (List.mem_range.mp hk))
    have hTime := (sub_seconds_le_iff 0 _ _).mpr hLast
    simpa using hTime
  refine
    { poll := rfl, pollMin := hPoll.1, pollMax := hPoll.2, duration := hDuration.1
      durationMax := hDuration.2, ruleMem := List.mem_singleton_self _, ruleEnabled := rfl
      target := .inl rfl, serverMem := List.mem_singleton_self _, serverEnabled := rfl
      active := by decide, steady := ⟨0, n, hSeveral, hReach, ?_, ?_⟩
      noneOpen := fun ev hEv => absurd hEv List.not_mem_nil }
  · rw [hSamples, busyServer, List.map_map, steadyTimes]
    simp only [zero_sub]
    exact List.Perm.refl _
  · rw [hSamples]
    intro m hm
    obtain ⟨k, -, rfl⟩ := List.mem_map.mp hm
    have hAbove : compare 95 .gt 90 = true := by decide
    exact ⟨95, rfl, hAbove⟩

/-- Polled every minute, a breach of five minutes opens the event. -/
theorem busyServer_polled_often : ∃ db',
    evalAlerts (pollEvery 60) (busyServer 5 60 6) = .completed db' ∧
      ∃ ev ∈ db'.events.rows, openFor 1 1 ev = true := by
  have hSteady := busyServer_steady 5 60 6 (by decide) (by decide) (by decide) (by decide)
  have hPass : evalAlerts (pollEvery 60) (busyServer 5 60 6) =
      .completed (evalAlerts (pollEvery 60) (busyServer 5 60 6)).state := by decide +kernel
  exact ⟨_, hPass, (steady_opens_iff hSteady hPass).mpr (by decide)⟩

/-- Polled every two minutes, a breach of one minute does not, however long it lasts. -/
theorem busyServer_polled_rarely :
    SteadyPair (pollEvery 120) (busyServer 1 120 30)
      { id := 1, metric := .cpuPercent, threshold := 90, durationMinutes := 1 } { id := 1 } 120 ∧
    ∃ db', evalAlerts (pollEvery 120) (busyServer 1 120 30) = .completed db' ∧
      ¬ ∃ ev ∈ db'.events.rows, openFor 1 1 ev = true := by
  refine ⟨busyServer_steady 1 120 30 (by decide) (by decide) (by decide) (by decide),
    (evalAlerts (pollEvery 120) (busyServer 1 120 30)).state, by decide +kernel, ?_⟩
  decide +kernel

end GpuMon.Alerts

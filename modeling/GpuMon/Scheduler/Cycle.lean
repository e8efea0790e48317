import GpuMon.Library.PyNum
import GpuMon.Models

/-!
# One poll cycle (`scheduler._run_cycle`)

A cycle starts a poll of every enabled server, and a slow and an inventory collection of every
enabled server when the newest row of all servers is old enough. It then joins its threads one
after another, each with a timeout of 180 s.

* `overdue_collected_iff`: every server with old rows of its own gets its collection exactly when
  all rows are old or every server has a young one.
* `joinPhase_le_iff`: the join phase lasts at most 180 s exactly when a thread that outlives it
  comes after finished threads only.

Rows carry times in microseconds; the monotonic clock is in seconds.
-/

namespace GpuMon.Scheduler

open PyNum

def slowInterval : Int := 300

def cycleJoinTimeout : Int := 180

def inventoryInterval : Int := 86400

inductive Tier
  | poll
  | slow
  | inventory
  deriving DecidableEq

/-- A row of `SlowHealth` or of `HostInventory`. -/
structure Collected where
  serverId : Nat
  collectedAt : Int
  deriving DecidableEq

structure Store where
  servers : Table Server
  slowHealth : List Collected
  hostInventory : List Collected

/-- `_load_servers`. -/
def loadServers (db : Store) : List Server := db.servers.rows.filter Server.enabled

/-- `_last_collect_time`. -/
def lastCollectTime (rows : List Collected) : Option Int := (rows.map Collected.collectedAt).max?

/-- `(now_n - last).total_seconds() >= interval if last else True`. -/
def isDue (interval now : Int) : Option Int → Bool
  | none => true
  | some last => interval ≤ totalSeconds (now - last)

/-- A thread of the cycle; also a member of `_server_busy`. -/
abbrev Task := Nat × Tier

/-- The threads of `_run_cycle`, in the order of the list. -/
def cycleThreads (now : Int) (db : Store) : List Task :=
  let doSlow := isDue slowInterval now (lastCollectTime db.slowHealth)
  let doInv := isDue inventoryInterval now (lastCollectTime db.hostInventory)
  (loadServers db).flatMap fun server =>
    (server.id, .poll) ::
      ((if doSlow then [(server.id, Tier.slow)] else []) ++
        if doInv then [(server.id, Tier.inventory)] else [])

/-- `_server_begin`: a second collection of one kind and server does not begin. -/
def serverBegin (busy : List Task) (t : Task) : Bool × List Task :=
  if t ∈ busy then (false, busy) else (true, t :: busy)

/-- What is in flight when the threads have begun and none has ended. -/
def beginAll (busy threads : List Task) : List Task :=
  threads.foldl (fun busy t => (serverBegin busy t).2) busy

/-! ## Which collections a cycle starts -/

theorem mem_serverBegin {busy : List Task} {t u : Task} :
    u ∈ (serverBegin busy t).2 ↔ u ∈ busy ∨ u = t := by
  unfold serverBegin
  split
  · rename_i hBusy
    refine ⟨.inl, ?_⟩
    rintro (h | rfl)
    · exact h
    · exact hBusy
  · rw [List.mem_cons, or_comm]

theorem mem_beginAll {busy threads : List Task} {t : Task} :
    t ∈ beginAll busy threads ↔ t ∈ busy ∨ t ∈ threads := by
  induction threads generalizing busy with
  | nil => simp [beginAll]
  | cons u rest ih =>
    rw [beginAll, List.foldl_cons, ← beginAll, ih, mem_serverBegin, List.mem_cons, or_assoc]

/-- Whatever is still running, a collection of the server is in flight. -/
def Collects (now : Int) (db : Store) (s : Server) (tier : Tier) : Prop :=
  ∀ busy, (s.id, tier) ∈ beginAll busy (cycleThreads now db)

theorem collects_iff {now : Int} {db : Store} {s : Server} {tier : Tier} :
    Collects now db s tier ↔ (s.id, tier) ∈ cycleThreads now db := by
  refine ⟨fun h => ?_, fun h busy => mem_beginAll.mpr (.inr h)⟩
  rcases mem_beginAll.mp (h []) with hNone | h
  · cases hNone
  · exact h

/-- The rows of a server. -/
def ofServer (rows : List Collected) (s : Server) : List Collected :=
  rows.filter fun r => r.serverId = s.id

/-- The newest row of the server is missing or old. -/
def Overdue (interval now : Int) (rows : List Collected) (s : Server) : Prop :=
  isDue interval now (lastCollectTime (ofServer rows s)) = true

/-- A row is younger than the interval. -/
def Young (interval now : Int) (r : Collected) : Prop :=
  totalSeconds (now - r.collectedAt) < interval

theorem young_iff {interval now : Int} {r : Collected} :
    Young interval now r ↔ now - r.collectedAt < seconds interval := by
  unfold Young totalSeconds seconds
  rw [div_lt_iff₀ (by norm_num)]
  norm_cast

theorem isDue_iff {interval now : Int} {rows : List Collected} :
    isDue interval now (lastCollectTime rows) = true ↔ ∀ r ∈ rows, ¬Young interval now r := by
  simp only [young_iff]
  cases hLast : lastCollectTime rows with
  | none =>
    have hNil : rows = [] := List.map_eq_nil_iff.mp (List.max?_eq_none_iff.mp hLast)
    simp [isDue, hNil]
  | some last =>
    have hDue : isDue interval now (some last) = true ↔ last ≤ now - seconds interval := by
      unfold isDue totalSeconds seconds
      rw [decide_eq_true_eq, le_div_iff₀ (by norm_num)]
      norm_cast
      omega
    rw [hDue, List.max?_le_iff hLast]
    constructor
    · intro h r hr
      have := h _ (List.mem_map_of_mem hr)
      omega
    · intro h t ht
      obtain ⟨r, hr, rfl⟩ := List.mem_map.mp ht
      have := h r hr
      omega

/-- Every overdue server has its collection exactly when the newest row of all servers decides as
the newest row of each would. -/
theorem all_overdue_iff {interval now : Int} {rows : List Collected} {servers : List Server}
    {collects : Server → Prop}
    (hCollects : ∀ s ∈ servers, collects s ↔ isDue interval now (lastCollectTime rows) = true) :
    (∀ s ∈ servers, Overdue interval now rows s → collects s) ↔
      (∀ r ∈ rows, ¬Young interval now r) ∨
        ∀ s ∈ servers, ∃ r ∈ rows, r.serverId = s.id ∧ Young interval now r := by
  have hOverdue : ∀ s, Overdue interval now rows s ↔
      ∀ r ∈ rows, r.serverId = s.id → ¬Young interval now r := by
    intro s
    rw [Overdue, isDue_iff]
    simp [ofServer]
  constructor
  · intro h
    by_cases hDue : isDue interval now (lastCollectTime rows) = true
    · exact .inl (isDue_iff.mp hDue)
    · refine .inr fun s hs => ?_
      have hFresh : ¬Overdue interval now rows s :=
        fun hOld => hDue ((hCollects s hs).mp (h s hs hOld))
      rw [hOverdue] at hFresh
      push Not at hFresh
      exact hFresh
  · rintro (hAll | hEach) s hs hOld
    · exact (hCollects s hs).mpr (isDue_iff.mpr hAll)
    · obtain ⟨r, hr, hOf, hYoung⟩ := hEach s hs
      exact absurd hYoung ((hOverdue s).mp hOld r hr hOf)

section Cycle

variable {now : Int} {db : Store} {s : Server}

/-- Whether the cycle starts the threads of a tier. -/
def tierDue (now : Int) (db : Store) : Tier → Bool
  | .poll => true
  | .slow => isDue slowInterval now (lastCollectTime db.slowHealth)
  | .inventory => isDue inventoryInterval now (lastCollectTime db.hostInventory)

theorem mem_cycleThreads {tier : Tier} (hs : s ∈ loadServers db) :
    (s.id, tier) ∈ cycleThreads now db ↔ tierDue now db tier = true := by
  unfold cycleThreads
  rw [List.mem_flatMap]
  constructor
  · rintro ⟨t, -, h⟩
    cases tier with
    | poll => rfl
    | _ =>
      by_contra hNot
      unfold tierDue at hNot
      simp [hNot] at h
  · intro hDue
    refine ⟨s, hs, ?_⟩
    cases tier <;> unfold tierDue at hDue <;> simp [hDue]

end Cycle

/-- The newest row of all servers stands for each of them only when it agrees with each. -/
theorem overdue_collected_iff (now : Int) (db : Store) :
    ((∀ s ∈ loadServers db, Overdue slowInterval now db.slowHealth s → Collects now db s .slow) ↔
      (∀ r ∈ db.slowHealth, ¬Young slowInterval now r) ∨ ∀ s ∈ loadServers db,
        ∃ r ∈ db.slowHealth, r.serverId = s.id ∧ Young slowInterval now r) ∧
    ((∀ s ∈ loadServers db,
        Overdue inventoryInterval now db.hostInventory s → Collects now db s .inventory) ↔
      (∀ r ∈ db.hostInventory, ¬Young inventoryInterval now r) ∨ ∀ s ∈ loadServers db,
        ∃ r ∈ db.hostInventory, r.serverId = s.id ∧ Young inventoryInterval now r) :=
  ⟨all_overdue_iff fun _ hs => collects_iff.trans (mem_cycleThreads hs),
    all_overdue_iff fun _ hs => collects_iff.trans (mem_cycleThreads hs)⟩

/-- One server has just been collected, the other one never. -/
def oneAdded : Store where
  servers := ⟨[{ id := 1 }, { id := 2 }], by decide⟩
  slowHealth := [⟨1, 0⟩]
  hostInventory := [⟨1, 0⟩]

theorem added_server_waits :
    (∃ s ∈ loadServers oneAdded, Overdue slowInterval (seconds 60) oneAdded.slowHealth s ∧
      ¬Collects (seconds 60) oneAdded s .slow) ∧
    ∃ s ∈ loadServers oneAdded,
      Overdue inventoryInterval (seconds 3600) oneAdded.hostInventory s ∧
        ¬Collects (seconds 3600) oneAdded s .inventory := by
  simp only [collects_iff, Overdue]
  decide +kernel

/-! ## The join phase -/

/-- A thread of the cycle on the monotonic clock; one that hangs has no running time. -/
structure Worker where
  started : ℚ
  running : Option ℚ

/-- The worker runs after `t`. -/
def Worker.RunsPast (w : Worker) (t : ℚ) : Prop := ∀ d, w.running = some d → t < w.started + d

/-- When `t.join(timeout=CYCLE_JOIN_TIMEOUT)` returns that is called at `now`. -/
def join (now : ℚ) (w : Worker) : ℚ :=
  match w.running with
  | none => now + cycleJoinTimeout
  | some d => min (max now (w.started + d)) (now + cycleJoinTimeout)

/-- When the last join returns. -/
def joinAll (start : ℚ) (workers : List Worker) : ℚ := workers.foldl join start

/-- `heartbeat_timeout` of `scheduler_status`. -/
def heartbeatTimeout (interval : Int) : Int := max (cycleJoinTimeout + 60) (interval * 3)

/-- `healthy` of `scheduler_status`. -/
def healthy (alive : Bool) (heartbeatAge : Option ℚ) (interval : Int) : Bool :=
  alive && heartbeatAge.any fun age : ℚ => age ≤ heartbeatTimeout interval

theorem le_join (now : ℚ) (w : Worker) : now ≤ join now w := by
  unfold join cycleJoinTimeout
  split
  · norm_num
  · refine le_min (le_max_left _ _) ?_
    norm_num

theorem le_joinAll (now : ℚ) (workers : List Worker) : now ≤ joinAll now workers := by
  induction workers generalizing now with
  | nil => exact le_rfl
  | cons w rest ih => exact (le_join now w).trans (ih _)

/-- Seen from the time at which the first join began. -/
theorem join_le_iff {start now : ℚ} (hTo : now ≤ start + 180) (w : Worker) :
    join now w ≤ start + 180 ↔ (start < now → ¬w.RunsPast (start + 180)) := by
  unfold join Worker.RunsPast cycleJoinTimeout
  cases hRunning : w.running with
  | none =>
    constructor
    · intro h hLater
      norm_num at h
      linarith
    · intro h
      have hStill : ¬start < now := fun hLater => h hLater fun d hd => by cases hd
      norm_num
      linarith
  | some d =>
    simp only [Option.some.injEq, forall_eq', not_lt, min_le_iff, max_le_iff]
    norm_num
    constructor
    · rintro (⟨-, h⟩ | h) hLater
      · exact h
      · linarith
    · intro h
      by_cases hLater : start < now
      · exact .inl ⟨hTo, h hLater⟩
      · exact .inr (not_lt.mp hLater)

theorem lt_join_iff {start now : ℚ} (hFrom : start ≤ now) (w : Worker) :
    start < join now w ↔ start < now ∨ w.RunsPast start := by
  unfold join Worker.RunsPast cycleJoinTimeout
  cases hRunning : w.running with
  | none =>
    refine iff_of_true ?_ (.inr fun d hd => by cases hd)
    norm_num
    linarith
  | some d =>
    simp only [Option.some.injEq, forall_eq', lt_min_iff, lt_max_iff]
    refine and_iff_left ?_
    norm_num
    linarith

/-- Once time has passed, no worker may outlive the phase; before, one may whose predecessors
have all finished. -/
theorem joinAll_le_iff {start now : ℚ} (hFrom : start ≤ now) (hTo : now ≤ start + 180)
    (workers : List Worker) : joinAll now workers ≤ start + 180 ↔
      (start < now → ∀ w ∈ workers, ¬w.RunsPast (start + 180)) ∧
        workers.Pairwise fun v w => w.RunsPast (start + 180) → ¬v.RunsPast start := by
  induction workers generalizing now with
  | nil => simp [joinAll, hTo]
  | cons w rest ih =>
    change joinAll (join now w) rest ≤ start + 180 ↔ _
    rw [List.pairwise_cons, List.forall_mem_cons]
    by_cases hJoin : join now w ≤ start + 180
    · have hHere := (join_le_iff hTo w).mp hJoin
      rw [ih (hFrom.trans (le_join now w)) hJoin, lt_join_iff hFrom]
      constructor
      · rintro ⟨hRest, hPairs⟩
        exact ⟨fun hLater => ⟨hHere hLater, hRest (.inl hLater)⟩,
          fun v hv hPast hRuns => hRest (.inr hRuns) v hv hPast, hPairs⟩
      · rintro ⟨hLate, hFirst, hPairs⟩
        refine ⟨?_, hPairs⟩
        rintro (hLater | hRuns) v hv hPast
        · exact (hLate hLater).2 v hv hPast
        · exact hFirst v hv hPast hRuns
    · refine iff_of_false (fun h => hJoin ((le_joinAll _ _).trans h)) ?_
      rintro ⟨hLate, -⟩
      rw [join_le_iff hTo] at hJoin
      exact hJoin fun hLater => (hLate hLater).1

/-- The join phase keeps its ceiling, and the heartbeat its limit with up to 60 s of other work
around it, exactly when every worker before one that outlives the ceiling had finished when the
phase began. -/
theorem joinPhase_le_iff (start : ℚ) (workers : List Worker) :
    (joinAll start workers - start ≤ cycleJoinTimeout ∧
        ∀ others interval, 0 ≤ others → others ≤ 60 →
          healthy true (some (others + (joinAll start workers - start))) interval = true) ↔
      workers.Pairwise fun v w =>
        w.RunsPast (start + cycleJoinTimeout) → ¬v.RunsPast start := by
  have hTimeout : ((cycleJoinTimeout : Int) : ℚ) = 180 := rfl
  have hPhase := joinAll_le_iff le_rfl (by linarith : start ≤ start + 180) workers
  rw [hTimeout, sub_le_iff_le_add']
  constructor
  · exact fun h => (hPhase.mp h.1).2
  · intro h
    have hEnd := hPhase.mpr ⟨fun hLater => absurd hLater (lt_irrefl _), h⟩
    refine ⟨hEnd, fun others interval _ hOthers => ?_⟩
    have hLimit : ((240 : Int) : ℚ) ≤ heartbeatTimeout interval :=
      Int.cast_le.mpr (le_max_left _ _)
    have hAge : others + (joinAll start workers - start) ≤ heartbeatTimeout interval := by
      push_cast at hLimit
      linarith
    simp [healthy, hAge]

/-- Every hung thread takes its own timeout. -/
theorem joinAll_hung (start started : ℚ) (n : Nat) :
    joinAll start (List.replicate n ⟨started, none⟩) = start + n * cycleJoinTimeout := by
  induction n generalizing start with
  | zero => simp [joinAll]
  | succ n ih =>
    rw [List.replicate_succ, joinAll, List.foldl_cons, ← joinAll, ih]
    simp only [join]
    push_cast
    ring

/-- Two hung hosts. -/
theorem two_hung_hosts : ¬joinAll 0 [⟨0, none⟩, ⟨0, none⟩] - 0 ≤ cycleJoinTimeout ∧
    healthy true (some (joinAll 0 [⟨0, none⟩, ⟨0, none⟩] - 0)) 60 = false := by
  have hEnd : joinAll 0 [⟨0, none⟩, ⟨0, none⟩] = 360 := by
    refine (joinAll_hung 0 0 2).trans ?_
    norm_num [cycleJoinTimeout]
  rw [hEnd]
  decide +kernel

end GpuMon.Scheduler

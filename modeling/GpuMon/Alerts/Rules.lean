import GpuMon.Library.Dict
import GpuMon.Library.PyNum
import GpuMon.Models

/-!
# Alert rules (`scheduler._eval_alerts`)

One pass compares the newest ok sample of every enabled server with every enabled rule. A
breach opens an event, once it has held for the rule's duration; a sample back in range closes
the event. `evalAlerts` goes through the pairs of a rule and a server one after another, each
in its own transaction, and stops at the first exception; what is committed stays.
-/

namespace GpuMon.Alerts

open PyNum

/-- The tables of the alert pass. -/
structure Store where
  rules : Table AlertRule
  servers : Table Server
  metrics : Table ServerMetric
  events : Table AlertEvent
  deriving DecidableEq, Inhabited

/-! ## Values -/

/-- `float(g.get(key, 0) or 0)` over the GPUs of a sample. -/
def gpuValues (m : ServerMetric) (column : Gpu ℚ → Option ℚ) : List ℚ :=
  m.gpus.map fun g => (column g).getD 0

/-- The used share of each GPU that has memory, in percent. -/
def gpuMemPercents (m : ServerMetric) : List ℚ :=
  m.gpus.filterMap fun g =>
    let total := g.memTotalMb.getD 0
    let used := g.memUsedMb.getD 0
    if 0 < total then some (used / total * 100) else none

/-- `_extract_metric`. -/
def extractMetric (m : ServerMetric) : Metric → Option ℚ
  | .cpuPercent => some m.cpuPercent
  | .memPercent => if m.memTotalMb = 0 then none else some (m.memUsedMb / m.memTotalMb * 100)
  | .swapPercent => if m.swapTotalMb = 0 then none else some (m.swapUsedMb / m.swapTotalMb * 100)
  | .diskPercent => (m.disks.map Disk.percent).max?
  | .loadPerCore => if m.cpuCount = 0 then none else some (m.load1 / m.cpuCount)
  | .gpuUtil =>
    let vals := gpuValues m Gpu.utilization
    if vals = [] then none else some (vals.sum / vals.length)
  | .gpuTemp => (gpuValues m Gpu.temperature).max?
  | .gpuPower => (gpuValues m Gpu.powerDraw).max?
  | .gpuMemPercent => (gpuMemPercents m).max?

/-- `_compare`. -/
def compare (value : ℚ) (op : CompareOp) (threshold : ℚ) : Bool :=
  match op with
  | .gt => value > threshold
  | .ge => value ≥ threshold
  | .lt => value < threshold
  | .le => value ≤ threshold

/-- `METRIC_LABELS`. -/
def metricLabel : Metric → Text
  | .cpuPercent => "CPU 使用率"
  | .memPercent => "内存使用率"
  | .gpuUtil => "GPU 利用率"
  | .gpuTemp => "GPU 温度"
  | .gpuMemPercent => "GPU 显存"
  | .gpuPower => "GPU 功耗"
  | .diskPercent => "磁盘使用率"
  | .loadPerCore => "每核负载"
  | .swapPercent => "Swap 使用率"

/-! ## The pass -/

/-- How a call of the notifier ends. -/
inductive Delivery
  | sent
  | failed
  | raised
  deriving DecidableEq

/-- What a pass meets outside the tables: the poll interval, and for each pair of a rule and a
server the clock, whether the database fails before its commit, and the notifier. `floatText`
is `str` of a float. -/
structure Environment where
  interval : Int
  now : Nat → Nat → Int
  dbFails : Nat → Nat → Bool := fun _ _ => false
  notifier : Nat → Nat → Delivery := fun _ _ => .sent
  floatText : ℚ → Text

inductive Result (σ : Type)
  | completed (s : σ)
  | raised (s : σ)
  deriving DecidableEq

/-- The enabled rules, in the order of the table. -/
def enabledRules (db : Store) : List AlertRule := db.rules.rows.filter AlertRule.enabled

def enabledServers (db : Store) : List Server := db.servers.rows.filter Server.enabled

/-- The ok samples of a server. -/
def okSamples (db : Store) (sid : Nat) : List ServerMetric :=
  db.metrics.rows.filter fun m => m.serverId = sid && m.status = .ok

/-- `max(collected_at)` of the ok samples of a server. -/
def latestAt (db : Store) (sid : Nat) : Option Int :=
  ((okSamples db sid).map ServerMetric.collectedAt).max?

/-- The ok samples that carry their server's latest time, by `(server_id, id)`. -/
def latestRows (db : Store) : List ServerMetric :=
  let serverIds := (enabledServers db).map Server.id
  (db.metrics.rows.filter fun m => decide (m.serverId ∈ serverIds) && m.status = .ok &&
    some m.collectedAt = latestAt db m.serverId).insertionSort
      fun a b => toLex (a.serverId, a.id) ≤ toLex (b.serverId, b.id)

def latestByServer (db : Store) : Dict Nat ServerMetric :=
  Dict.ofList ((latestRows db).map fun m => (m.serverId, m))

def maintenanceIds (db : Store) : List Nat :=
  ((enabledServers db).filter fun s => s.status = .maintenance).map Server.id

/-- The servers a rule is evaluated for; a server id of 0 counts as none. -/
def targetIds (latest : Dict Nat ServerMetric) (rule : AlertRule) : List Nat :=
  match rule.serverId with
  | some (n + 1) => [n + 1]
  | _ => latest.keys

/-- The filter of the query for an open event of a rule and a server. -/
def openFor (ruleId sid : Nat) (ev : AlertEvent) : Bool :=
  ev.ruleId = some ruleId && ev.serverId = sid && ev.isOpen

/-- A breach has to show in enough recent samples, and in all of them. -/
def heldForDuration (env : Environment) (db : Store) (rule : AlertRule) (sid : Nat)
    (m : ServerMetric) : Bool :=
  let since := m.collectedAt - minutes rule.durationMinutes
  let rows := ((okSamples db sid).filter fun r => since ≤ r.collectedAt).insertionSort
    fun a b => a.collectedAt ≤ b.collectedAt
  let vals := rows.filterMap fun r => extractMetric r rule.metric
  let expected := max 1 (rule.durationMinutes * 60 / max 10 env.interval)
  max 2 (expected / 2) ≤ vals.length &&
    vals.all fun v => compare v rule.op rule.threshold

/-- The event a breach opens. -/
def newEvent (env : Environment) (rule : AlertRule) (m : ServerMetric) (sid : Nat) (value : ℚ)
    (id : Nat) : AlertEvent where
  id
  ruleId := some rule.id
  ruleName := rule.name
  serverId := sid
  serverName := if m.hostname = [] then PyText.natText sid else m.hostname
  metric := rule.metric.text
  value := roundTo 1 value
  threshold := rule.threshold
  message := PyText.join [' '] [metricLabel rule.metric, env.floatText (roundTo 1 value),
    rule.op.text, env.floatText rule.threshold]
  triggeredAt := env.now rule.id sid

theorem key_newEvent (env : Environment) (rule : AlertRule) (m : ServerMetric) (sid : Nat)
    (value : ℚ) (k : Nat) : Keyed.key (newEvent env rule m sid value k) = k := rfl

/-- Opens an event and notifies. -/
def fire (env : Environment) (events : Table AlertEvent) (rule : AlertRule) (m : ServerMetric)
    (sid : Nat) (value : ℚ) : Result (Table AlertEvent) :=
  if env.dbFails rule.id sid then .raised events
  else
    let opened := events.insert (newEvent env rule m sid value) (key_newEvent env rule m sid value)
    match env.notifier rule.id sid with
    | .raised => .raised opened
    | .failed => .completed opened
    | .sent => .completed
      (opened.modify events.nextKey (fun ev => { ev with notified := true }) fun _ => rfl)

/-- Closes an open event and notifies. -/
def recover (env : Environment) (events : Table AlertEvent) (rule : AlertRule) (sid : Nat)
    (ev : AlertEvent) : Result (Table AlertEvent) :=
  if env.dbFails rule.id sid then .raised events
  else
    let closed := events.modify ev.id
      (fun ev => { ev with recoveredAt := some (env.now rule.id sid) }) fun _ => rfl
    match env.notifier rule.id sid with
    | .raised => .raised closed
    | _ => .completed closed

/-- The body of the inner loop. `latest` and `maintenance` were read when the pass began. -/
def evalPair (env : Environment) (db : Store) (rule : AlertRule) (sid : Nat)
    (events : Table AlertEvent) : Result (Table AlertEvent) :=
  if sid ∈ maintenanceIds db then .completed events
  else match (latestByServer db).get? sid with
    | none => .completed events
    | some m => match extractMetric m rule.metric with
      | none => .completed events
      | some value =>
        let breached := compare value rule.op rule.threshold
        match events.rows.find? (openFor rule.id sid) with
        | some ev =>
          -- "acknowledged and still breached: stay open"; whether it is breached is not asked
          if ev.ackedAt.isSome then .completed events
          else if !breached then recover env events rule sid ev
          else .completed events
        | none =>
          if breached then
            if 0 < rule.durationMinutes && !heldForDuration env db rule sid m then .completed events
            else fire env events rule m sid value
          else .completed events

/-- The pairs of a pass, in the order of its two loops. -/
def pairs (db : Store) : List (AlertRule × Nat) :=
  (enabledRules db).flatMap fun rule => (targetIds (latestByServer db) rule).map (rule, ·)

def evalPairs (env : Environment) (db : Store) :
    List (AlertRule × Nat) → Table AlertEvent → Result (Table AlertEvent)
  | [], events => .completed events
  | (rule, sid) :: rest, events => match evalPair env db rule sid events with
    | .completed events' => evalPairs env db rest events'
    | .raised events' => .raised events'

/-- `_eval_alerts`. -/
def evalAlerts (env : Environment) (db : Store) : Result Store :=
  match evalPairs env db (pairs db) db.events with
  | .completed events => .completed { db with events }
  | .raised events => .raised { db with events }

/-! ## Operators -/

/-- `ack_event`. -/
def ackEvent (events : Table AlertEvent) (eventId : Nat) (username : Text) (now : Int) :
    Except HttpError (Table AlertEvent) :=
  match events.get? eventId with
  | none => .error ⟨404, "Event not found"⟩
  | some ev =>
    if ev.recoveredAt.isSome then .error ⟨400, "Event already recovered"⟩
    else if ev.ackedAt.isSome then .ok events
    else .ok (events.modify eventId
      (fun ev => { ev with ackedAt := some now, ackedBy := username }) fun _ => rfl)

/-- `resolve_event`. -/
def resolveEvent (events : Table AlertEvent) (eventId : Nat) (now : Int) :
    Except HttpError (Table AlertEvent) :=
  match events.get? eventId with
  | none => .error ⟨404, "Event not found"⟩
  | some ev =>
    if ev.recoveredAt.isSome then .ok events
    else .ok (events.modify eventId (fun ev => { ev with recoveredAt := some now }) fun _ => rfl)

/-! ## The newest sample -/

/-- `m` is the newest ok sample of the server, by `(collected_at, id)`. -/
structure IsNewestOk (db : Store) (sid : Nat) (m : ServerMetric) : Prop where
  mem : m ∈ db.metrics.rows
  server : m.serverId = sid
  ok : m.status = .ok
  newest : ∀ m' ∈ db.metrics.rows, m'.serverId = sid → m'.status = .ok → m'.key ≤ m.key

section Newest

variable {db : Store} {sid : Nat} {m : ServerMetric}

theorem mem_okSamples : m ∈ okSamples db sid ↔
    m ∈ db.metrics.rows ∧ m.serverId = sid ∧ m.status = .ok := by
  simp [okSamples]

theorem latestAt_of_newest (h : IsNewestOk db sid m) : latestAt db sid = some m.collectedAt := by
  unfold latestAt
  rw [List.max?_eq_some_iff]
  refine ⟨List.mem_map_of_mem (mem_okSamples.mpr ⟨h.mem, h.server, h.ok⟩), ?_⟩
  intro t ht
  obtain ⟨m', hm', rfl⟩ := List.mem_map.mp ht
  obtain ⟨hMem, hServer, hOk⟩ := mem_okSamples.mp hm'
  exact ServerMetric.collectedAt_le_of_key_le (h.newest m' hMem hServer hOk)

theorem mem_latestRows : m ∈ latestRows db ↔ m ∈ db.metrics.rows ∧
    m.serverId ∈ (enabledServers db).map Server.id ∧ m.status = .ok ∧
      some m.collectedAt = latestAt db m.serverId := by
  simp only [latestRows, List.mem_insertionSort, List.mem_filter, Bool.and_eq_true,
    decide_eq_true_eq, and_assoc]

/-- An enabled server is looked up under its newest ok sample: of the rows with the latest time
the one with the largest id comes last. -/
theorem latestByServer_of_newest {server : Server} (hServer : server ∈ db.servers.rows)
    (hEnabled : server.enabled = true) (h : IsNewestOk db server.id m) :
    (latestByServer db).get? server.id = some m := by
  have hListed : server.id ∈ (enabledServers db).map Server.id :=
    List.mem_map_of_mem (List.mem_filter.mpr ⟨hServer, hEnabled⟩)
  have hMem : m ∈ (latestRows db).filter fun r => r.serverId = server.id := by
    rw [List.mem_filter, mem_latestRows, h.server]
    exact ⟨⟨h.mem, hListed, h.ok, (latestAt_of_newest h).symm⟩, decide_eq_true rfl⟩
  have hSorted : ((latestRows db).filter fun r => r.serverId = server.id).Pairwise
      fun a b => toLex (a.serverId, a.id) ≤ toLex (b.serverId, b.id) :=
    (List.pairwise_insertionSort _ _).filter _
  have hLast : ((latestRows db).filter fun r => r.serverId = server.id).getLast? = some m := by
    cases hl : ((latestRows db).filter fun r => r.serverId = server.id).getLast? with
    | none => simp [List.getLast?_eq_none_iff.mp hl] at hMem
    | some last =>
      obtain ⟨front, hFront⟩ := List.getLast?_eq_some_iff.mp hl
      have hLastMem : last ∈ (latestRows db).filter fun r => r.serverId = server.id := by
        rw [hFront]
        exact List.mem_concat_self
      obtain ⟨hRow, hOwn⟩ := List.mem_filter.mp hLastMem
      obtain ⟨hIn, -, hOk, hAt⟩ := mem_latestRows.mp hRow
      have hOwn : last.serverId = server.id := of_decide_eq_true hOwn
      rw [hFront] at hMem hSorted
      rcases List.mem_append.mp hMem with hEarlier | hSame
      · have hLe := (List.pairwise_append.mp hSorted).2.2 m hEarlier last (by simp)
        rw [h.server, hOwn] at hLe
        rw [hOwn, latestAt_of_newest h] at hAt
        have hIdLe : m.id ≤ last.id := by simpa [Prod.Lex.le_iff] using hLe
        have hIdGe : last.id ≤ m.id := by
          have hKey := h.newest last hIn hOwn hOk
          simpa [ServerMetric.key, Prod.Lex.le_iff, Option.some.inj hAt] using hKey
        rw [Table.eq_of_key_eq hIn h.mem (le_antisymm hIdGe hIdLe)]
      · rw [List.mem_singleton.mp hSame]
  rw [latestByServer, Dict.get?_ofList_map]
  exact hLast

end Newest

end GpuMon.Alerts

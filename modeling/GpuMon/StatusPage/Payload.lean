import GpuMon.Library.PyNum
import GpuMon.Models

/-!
# The public status page (`status_page.py`)

What an unauthenticated visitor gets from `/api/status-public`: the state, the uptime history,
the latency and the GPUs of the listed servers. The configuration has flags to show or hide the
latency and the GPUs; the payload carries them along for the page to apply.

* `publicServer_mapMetrics`: what a server's entry depends on.
* `hidden_items_confined`: two databases that differ only in the GPUs of samples give payloads
  that differ at most in the GPU lists, and two that differ only in latencies give payloads that
  differ at most in the averages, whatever the flags; the responses are always the same exactly
  when no listed server other than of type `cpu` is online, and no listed server has a successful
  sample of the last day. The flags change nothing but themselves.
* `hidden_gpus_returned`: with `show_gpu` off the GPUs are in the response.

Times are in microseconds, days are counted from the epoch, and numbers are exact.
-/

namespace GpuMon.StatusPage

open PyNum PyText

/-! ## The configuration -/

inductive Theme
  | auto
  | light
  | dark
  deriving DecidableEq

/-- The days of the history, within the bounds of the model. -/
abbrev HistoryDays := { n : Nat // 1 ≤ n ∧ n ≤ 365 }

/-- `StatusPageConfig`, with the values of `DEFAULT_CONFIG`. -/
def defaultHistoryDays : HistoryDays := ⟨45, by decide⟩

structure StatusPageConfig where
  title : Text := "服务状态"
  description : Text := "实验室 GPU 集群公开状态页"
  serverIds : List Int := []
  showHistoryDays : HistoryDays := defaultHistoryDays
  showLatency : Bool := true
  showGpu : Bool := true
  theme : Theme := .auto
  footer : Text := "Powered by lab-gpu-server-monitor"
  published : Bool := false
  deriving DecidableEq

/-- What `json.loads` finds in the settings row; an unreadable text is the empty dictionary. -/
structure StoredConfig where
  title : Option Text := none
  description : Option Text := none
  serverIds : Option (List Int) := none
  showHistoryDays : Option HistoryDays := none
  showLatency : Option Bool := none
  showGpu : Option Bool := none
  theme : Option Theme := none
  footer : Option Text := none
  published : Option Bool := none
  deriving DecidableEq

/-- `_load_config`: `{**DEFAULT_CONFIG, **cfg}`. -/
def loadConfig : Option StoredConfig → StatusPageConfig
  | none => {}
  | some cfg =>
    let d : StatusPageConfig := {}
    { title := cfg.title.getD d.title
      description := cfg.description.getD d.description
      serverIds := cfg.serverIds.getD d.serverIds
      showHistoryDays := cfg.showHistoryDays.getD d.showHistoryDays
      showLatency := cfg.showLatency.getD d.showLatency
      showGpu := cfg.showGpu.getD d.showGpu
      theme := cfg.theme.getD d.theme
      footer := cfg.footer.getD d.footer
      published := cfg.published.getD d.published }

/-- `_save_config`, after `model_dump()`. -/
def saveConfig (cfg : StatusPageConfig) : StoredConfig where
  title := some cfg.title
  description := some cfg.description
  serverIds := some cfg.serverIds
  showHistoryDays := some cfg.showHistoryDays
  showLatency := some cfg.showLatency
  showGpu := some cfg.showGpu
  theme := some cfg.theme
  footer := some cfg.footer
  published := some cfg.published

/-- What was saved is loaded. -/
@[simp] theorem loadConfig_saveConfig (cfg : StatusPageConfig) :
    loadConfig (some (saveConfig cfg)) = cfg := rfl

/-! ## The tables -/

/-- A raw sample with its latency, in seconds. -/
structure ProbedMetric extends ServerMetric where
  sshLatency : ℚ := 0
  deriving DecidableEq

structure Store where
  servers : Table Server
  metrics : List ProbedMetric
  hourly : List ServerMetricHourly
  statusPage : Option StoredConfig := none
  pollInterval : Option Text := none

/-- `_freshness_limit`, in seconds. -/
def freshnessLimit (pollIntervalSeconds : Int) (db : Store) : Int :=
  let interval := match db.pollInterval with
    | none => pollIntervalSeconds
    | some value =>
      if value = [] then pollIntervalSeconds
      else match int? value with
        | some n => max 10 n
        | none => pollIntervalSeconds
  max 180 (interval * 3)

/-! ## The history -/

def day : Int := seconds 86400

/-- `value.date()`, as a number of days. -/
def dayOf (t : Int) : Int := t / day

/-- `_bucketize`: the days of the history, oldest first. -/
def bucketize (days : Nat) (now : Int) : List (Int × Int) :=
  let today := dayOf now * day
  (List.range days).reverse.map fun i : Nat => (today - i * day, today - i * day + day)

/-- The start of the first day; there is one. -/
def historyStart (days : Nat) (now : Int) : Int :=
  ((bucketize days now).head?.map Prod.fst).getD now

/-- One row of the grouped query over the rollup: a day with its samples. -/
structure DayCount where
  date : Int
  total : Nat
  ok : Nat
  deriving DecidableEq

/-- The rows of a server, without the days that have no samples. -/
def dayCounts (hourly : List ServerMetricHourly) (start : Int) (sid : Nat) : List DayCount :=
  let rows := hourly.filter fun r => r.serverId = sid && start ≤ r.hour
  let days := (rows.map fun r => dayOf r.hour).dedup
  let counts := days.map fun d =>
    let ofDay := rows.filter fun r => dayOf r.hour = d
    DayCount.mk d (ofDay.map ServerMetricHourly.samples).sum
      (ofDay.map ServerMetricHourly.okSamples).sum
  counts.filter fun c => 0 < c.total

/-- `round(ok / total * 100, digits)`. -/
def uptime (digits ok total : Nat) : ℚ := roundTo digits (ok / total * 100)

structure HistoryDay where
  date : Int
  uptime : Option ℚ
  n : Nat
  deriving DecidableEq

def historyOf (counts : List DayCount) (buckets : List (Int × Int)) : List HistoryDay :=
  buckets.map fun b =>
    match counts.find? fun c => c.date = dayOf b.1 with
    | none => ⟨dayOf b.1, none, 0⟩
    | some c => ⟨dayOf b.1, some (uptime 1 c.ok c.total), c.total⟩

/-! ## The newest sample and the latencies -/

def ofServer (metrics : List ProbedMetric) (sid : Nat) : List ProbedMetric :=
  metrics.filter fun m => m.serverId = sid

/-- The newest sample of a server, the last inserted one of a tie. -/
def latestOf (metrics : List ProbedMetric) (sid : Nat) : Option ProbedMetric :=
  ((ofServer metrics sid).insertionSort fun a b => a.key ≤ b.key).getLast?

/-- The successful samples of the last 24 hours. -/
def recentOk (metrics : List ProbedMetric) (now : Int) (sid : Nat) : List ProbedMetric :=
  (ofServer metrics sid).filter fun m => now - day ≤ m.collectedAt && m.status = .ok

/-- `avg(ssh_latency)`; without rows it is zero in the end. -/
def avgLatency (rows : List ProbedMetric) : ℚ :=
  if rows = [] then 0 else (rows.map ProbedMetric.sshLatency).sum / rows.length

inductive PublicState
  | unknown
  | stale
  | online
  | offline
  deriving DecidableEq

def stateOf (limit now : Int) : Option ProbedMetric → PublicState
  | none => .unknown
  | some m =>
    let age := totalSeconds (now - m.collectedAt)
    if limit < age ∨ age < -60 then .stale
    else if m.status = .ok then .online else .offline

/-! ## The payload -/

structure PublicGpu where
  index : Int
  name : Text
  util : ℚ
  memPct : ℚ
  deriving DecidableEq

def publicGpu (g : Gpu ℚ) : PublicGpu :=
  let memTotal := g.memTotalMb.getD 0
  let memUsed := g.memUsedMb.getD 0
  { index := g.index.getD 0
    name := removeAll "GeForce " (removeAll "NVIDIA " (g.name.getD []))
    util := g.utilization.getD 0
    memPct := if memTotal ≠ 0 then roundTo 0 (memUsed / memTotal * 100) else 0 }

structure PublicServer where
  id : Nat
  name : Text
  serverType : Text
  online : Bool
  state : PublicState
  uptime30d : Option ℚ
  avgLatencyMs : ℚ
  lastCheck : Option Int
  history : List HistoryDay
  gpus : List PublicGpu
  deriving DecidableEq

structure Payload where
  title : Text
  description : Text
  footer : Text
  theme : Theme
  showLatency : Bool
  showGpu : Bool
  allOperational : Bool
  serversTotal : Nat
  serversOnline : Nat
  servers : List PublicServer
  generatedAt : Int
  freshnessLimitSeconds : Int
  deriving DecidableEq

/-- The servers on the page. -/
def listed (cfg : StatusPageConfig) (db : Store) : List Server :=
  (db.servers.rows.filter fun s =>
    s.enabled && (cfg.serverIds = [] || decide ((s.id : Int) ∈ cfg.serverIds))).insertionSort
      fun a b => a.id ≤ b.id

/-- The entry of a server. -/
def publicServer (limit now : Int) (cfg : StatusPageConfig) (db : Store) (s : Server) :
    PublicServer :=
  let days := cfg.showHistoryDays.val
  let counts := dayCounts db.hourly (historyStart days now) s.id
  let total := (counts.map DayCount.total).sum
  let ok := (counts.map DayCount.ok).sum
  let latest := latestOf db.metrics s.id
  let state := stateOf limit now latest
  { id := s.id
    name := s.name
    serverType := s.serverType
    online := state = .online
    state
    uptime30d := if total ≠ 0 then some (uptime 2 ok total) else none
    avgLatencyMs := roundTo 0 (avgLatency (recentOk db.metrics now s.id) * 1000)
    lastCheck := latest.map fun m => m.collectedAt
    history := historyOf counts (bucketize days now)
    gpus :=
      if state = .online ∧ s.serverType ≠ "cpu" then
        (latest.map fun m => m.gpus.map publicGpu).getD []
      else [] }

/-- The payload around the entries of the servers. -/
def payloadOf (limit now : Int) (cfg : StatusPageConfig) (result : List PublicServer) :
    Payload where
  title := cfg.title
  description := cfg.description
  footer := cfg.footer
  theme := cfg.theme
  showLatency := cfg.showLatency
  showGpu := cfg.showGpu
  allOperational := result ≠ [] && result.all PublicServer.online
  serversTotal := result.length
  serversOnline := (result.filter PublicServer.online).length
  servers := result
  generatedAt := now
  freshnessLimitSeconds := limit

/-- `_build_public_payload`. -/
def buildPublicPayload (pollIntervalSeconds now : Int) (db : Store) (cfg : StatusPageConfig) :
    Payload :=
  let limit := freshnessLimit pollIntervalSeconds db
  payloadOf limit now cfg ((listed cfg db).map (publicServer limit now cfg db))

/-- `status_public`, when nothing is cached; `none` is the answer `{"published": False}`. -/
def statusPublic (pollIntervalSeconds now : Int) (db : Store) : Option Payload :=
  let cfg := loadConfig db.statusPage
  if cfg.published then some (buildPublicPayload pollIntervalSeconds now db cfg) else none

/-! ## What an entry depends on -/

def Store.mapMetrics (db : Store) (f : ProbedMetric → ProbedMetric) : Store :=
  { db with metrics := db.metrics.map f }

/-- A change of samples that leaves alone when, where and how they were taken. -/
structure KeepsProbe (f : ProbedMetric → ProbedMetric) : Prop where
  serverId : ∀ m, (f m).serverId = m.serverId
  key : ∀ m, (f m).key = m.key
  collectedAt : ∀ m, (f m).collectedAt = m.collectedAt
  status : ∀ m, (f m).status = m.status

section MapMetrics

variable {f : ProbedMetric → ProbedMetric} (hf : KeepsProbe f)
include hf

theorem ofServer_map (metrics : List ProbedMetric) (sid : Nat) :
    ofServer (metrics.map f) sid = (ofServer metrics sid).map f := by
  unfold ofServer
  rw [List.filter_map]
  congr 1
  exact List.filter_congr fun m _ => by simp [hf.serverId]

theorem latestOf_map (metrics : List ProbedMetric) (sid : Nat) :
    latestOf (metrics.map f) sid = (latestOf metrics sid).map f := by
  unfold latestOf
  rw [ofServer_map hf, ← List.getLast?_map]
  congr 1
  refine (List.map_insertionSort _ _ f _ fun a _ b _ => ?_).symm
  rw [hf.key, hf.key]

theorem recentOk_map (metrics : List ProbedMetric) (now : Int) (sid : Nat) :
    recentOk (metrics.map f) now sid = (recentOk metrics now sid).map f := by
  unfold recentOk
  rw [ofServer_map hf, List.filter_map]
  congr 1
  exact List.filter_congr fun m _ => by simp [hf.collectedAt, hf.status]

theorem stateOf_map (limit now : Int) (latest : Option ProbedMetric) :
    stateOf limit now (latest.map f) = stateOf limit now latest := by
  cases latest with
  | none => rfl
  | some m =>
    rw [Option.map_some, stateOf, hf.collectedAt, hf.status]
    rfl

/-- Of the samples an entry takes the GPUs of the newest and the latencies of the last day. -/
theorem publicServer_mapMetrics (limit now : Int) (cfg : StatusPageConfig) (db : Store)
    (s : Server) : publicServer limit now cfg (db.mapMetrics f) s =
      { publicServer limit now cfg db s with
        avgLatencyMs := roundTo 0 (avgLatency ((recentOk db.metrics now s.id).map f) * 1000)
        gpus :=
          if stateOf limit now (latestOf db.metrics s.id) = .online ∧ s.serverType ≠ "cpu" then
            ((latestOf db.metrics s.id).map fun m => (f m).gpus.map publicGpu).getD []
          else [] } := by
  have hTimes : ((latestOf db.metrics s.id).map f).map (fun m => m.collectedAt) =
      (latestOf db.metrics s.id).map fun m => m.collectedAt := by
    rw [Option.map_map]
    exact congrArg (fun g => (latestOf db.metrics s.id).map g) (funext hf.collectedAt)
  unfold publicServer Store.mapMetrics
  dsimp only
  rw [latestOf_map hf, recentOk_map hf, stateOf_map hf, hTimes, Option.map_map]
  rfl

end MapMetrics

/-! ## Hidden columns -/

def setGpus (gpus : List (Gpu ℚ)) (m : ProbedMetric) : ProbedMetric := { m with gpus }

def setLatency (x : ℚ) (m : ProbedMetric) : ProbedMetric := { m with sshLatency := x }

theorem keepsProbe_setGpus (gpus : List (Gpu ℚ)) : KeepsProbe (setGpus gpus) :=
  ⟨fun _ => rfl, fun _ => rfl, fun _ => rfl, fun _ => rfl⟩

theorem keepsProbe_setLatency (x : ℚ) : KeepsProbe (setLatency x) :=
  ⟨fun _ => rfl, fun _ => rfl, fun _ => rfl, fun _ => rfl⟩

/-- The databases differ at most in the `gpus` of samples. -/
def SameButGpus (db db' : Store) : Prop :=
  db'.mapMetrics (setGpus []) = db.mapMetrics (setGpus [])

/-- The databases differ at most in the `ssh_latency` of samples. -/
def SameButLatency (db db' : Store) : Prop :=
  db'.mapMetrics (setLatency 0) = db.mapMetrics (setLatency 0)

theorem sameButGpus_setGpus (db : Store) (gpus : List (Gpu ℚ)) :
    SameButGpus db (db.mapMetrics (setGpus gpus)) := by
  unfold SameButGpus Store.mapMetrics
  rw [List.map_map]
  rfl

theorem sameButLatency_setLatency (db : Store) (x : ℚ) :
    SameButLatency db (db.mapMetrics (setLatency x)) := by
  unfold SameButLatency Store.mapMetrics
  rw [List.map_map]
  rfl

def Payload.mapServers (h : PublicServer → PublicServer) (p : Payload) : Payload :=
  { p with servers := p.servers.map h }

def hideGpus (s : PublicServer) : PublicServer := { s with gpus := [] }

def hideLatency (s : PublicServer) : PublicServer := { s with avgLatencyMs := 0 }

/-- Entries that are alike through `h`, which keeps `online`, make payloads that are. -/
theorem payloadOf_congr {h : PublicServer → PublicServer} (hOnline : ∀ s, (h s).online = s.online)
    {result result' : List PublicServer} (hSame : result.map h = result'.map h) (limit now : Int)
    (cfg : StatusPageConfig) :
    (payloadOf limit now cfg result).mapServers h = (payloadOf limit now cfg result').mapServers h := by
  have hFlags : result.map PublicServer.online = result'.map PublicServer.online := by
    have hThrough : ∀ l : List PublicServer,
        l.map PublicServer.online = (l.map h).map PublicServer.online := by
      intro l
      rw [List.map_map]
      exact List.map_congr_left fun s _ => (hOnline s).symm
    rw [hThrough, hSame, ← hThrough]
  have hLength : result.length = result'.length := by
    simpa using congrArg List.length hSame
  have hCount : ∀ l : List PublicServer, (l.filter PublicServer.online).length =
      ((l.map PublicServer.online).filter id).length := by
    intro l
    rw [List.filter_map, List.length_map]
    rfl
  have hAll : ∀ l : List PublicServer,
      l.all PublicServer.online = (l.map PublicServer.online).all id := by
    intro l
    rw [List.all_map]
    rfl
  have hNil : decide (result ≠ []) = decide (result' ≠ []) := by
    refine decide_eq_decide.mpr (not_congr ?_)
    rw [← List.length_eq_zero_iff, hLength, List.length_eq_zero_iff]
  unfold payloadOf Payload.mapServers
  dsimp only
  rw [hCount, hCount, hAll, hAll, hFlags, hLength, hSame, hNil]

section Hidden

variable {pollIntervalSeconds now : Int} {db db' : Store}

/-- The server is online in the payload and may have GPUs. -/
def showsGpus (limit now : Int) (db : Store) (s : Server) : Prop :=
  stateOf limit now (latestOf db.metrics s.id) = .online ∧ s.serverType ≠ "cpu"

/-- Without the GPUs of samples an entry loses its GPUs and nothing else. -/
theorem publicServer_setGpus_nil (limit : Int) (cfg : StatusPageConfig) (db : Store) (s : Server) :
    publicServer limit now cfg (db.mapMetrics (setGpus [])) s =
      hideGpus (publicServer limit now cfg db s) := by
  rw [publicServer_mapMetrics (keepsProbe_setGpus [])]
  have hRows : avgLatency ((recentOk db.metrics now s.id).map (setGpus [])) =
      avgLatency (recentOk db.metrics now s.id) := by
    unfold avgLatency
    rw [List.map_map, List.length_map]
    simp only [List.map_eq_nil_iff]
    rfl
  have hGpus : (if stateOf limit now (latestOf db.metrics s.id) = .online ∧ s.serverType ≠ "cpu" then
      ((latestOf db.metrics s.id).map fun m => (setGpus [] m).gpus.map publicGpu).getD []
      else []) = ([] : List PublicGpu) := by
    split
    · cases latestOf db.metrics s.id <;> rfl
    · rfl
  rw [hRows, hGpus]
  rfl

theorem publicServer_setLatency (limit : Int) (cfg : StatusPageConfig) (db : Store) (s : Server)
    (x : ℚ) : publicServer limit now cfg (db.mapMetrics (setLatency x)) s =
      { publicServer limit now cfg db s with
        avgLatencyMs := if recentOk db.metrics now s.id = [] then 0 else roundTo 0 (x * 1000) } := by
  rw [publicServer_mapMetrics (keepsProbe_setLatency x)]
  have hRows : roundTo 0 (avgLatency ((recentOk db.metrics now s.id).map (setLatency x)) * 1000) =
      if recentOk db.metrics now s.id = [] then 0 else roundTo 0 (x * 1000) := by
    unfold avgLatency
    simp only [List.map_eq_nil_iff]
    split
    · norm_num [roundTo, roundHalfEven]
    · rename_i hSome
      have hLength : ((recentOk db.metrics now s.id).length : ℚ) ≠ 0 :=
        Nat.cast_ne_zero.mpr fun h => hSome (List.length_eq_zero_iff.mp h)
      have hSum : ((recentOk db.metrics now s.id).map (setLatency x)).map ProbedMetric.sshLatency =
          List.replicate (recentOk db.metrics now s.id).length x := by
        rw [List.map_map]
        exact List.map_const' ..
      rw [hSum, List.sum_replicate, List.length_map, nsmul_eq_mul, mul_div_cancel_left₀ _ hLength]
  rw [hRows]
  rfl

/-- Without latencies an entry loses its average and nothing else. -/
theorem publicServer_setLatency_zero (limit : Int) (cfg : StatusPageConfig) (db : Store)
    (s : Server) : publicServer limit now cfg (db.mapMetrics (setLatency 0)) s =
      hideLatency (publicServer limit now cfg db s) := by
  have hZero : roundTo 0 (0 * 1000) = 0 := by norm_num [roundTo, roundHalfEven]
  rw [publicServer_setLatency, hZero, ite_self]
  rfl

theorem mapServers_buildPublicPayload {h : PublicServer → PublicServer}
    (hOnline : ∀ s, (h s).online = s.online) {f : ProbedMetric → ProbedMetric}
    (hEntry : ∀ limit cfg db s, publicServer limit now cfg (db.mapMetrics f) s =
      h (publicServer limit now cfg db s))
    (hIdem : ∀ s, h (h s) = h s) (hSame : db'.mapMetrics f = db.mapMetrics f)
    (cfg : StatusPageConfig) :
    (buildPublicPayload pollIntervalSeconds now db' cfg).mapServers h =
      (buildPublicPayload pollIntervalSeconds now db cfg).mapServers h := by
  -- both are the payload of the database in which the columns are wiped out
  have hWiped : ∀ db : Store, (buildPublicPayload pollIntervalSeconds now db cfg).mapServers h =
      (buildPublicPayload pollIntervalSeconds now (db.mapMetrics f) cfg).mapServers h := by
    intro db
    refine payloadOf_congr hOnline ?_ _ _ _
    rw [List.map_map, List.map_map]
    refine List.map_congr_left fun s _ => ?_
    rw [Function.comp_apply, Function.comp_apply, hEntry, hIdem]
    rfl
  rw [hWiped db', hWiped db, hSame]

/-- The entries of two equal payloads with the same servers are equal. -/
theorem publicServer_of_build_eq {cfg : StatusPageConfig} {f g : ProbedMetric → ProbedMetric}
    (h : buildPublicPayload pollIntervalSeconds now (db.mapMetrics f) cfg =
      buildPublicPayload pollIntervalSeconds now (db.mapMetrics g) cfg)
    {s : Server} (hs : s ∈ listed cfg db) :
    publicServer (freshnessLimit pollIntervalSeconds db) now cfg (db.mapMetrics f) s =
      publicServer (freshnessLimit pollIntervalSeconds db) now cfg (db.mapMetrics g) s :=
  List.map_inj_left.mp (congrArg Payload.servers h) s hs

theorem statusPage_congr {f : ProbedMetric → ProbedMetric}
    (hSame : db'.mapMetrics f = db.mapMetrics f) : db'.statusPage = db.statusPage :=
  show (db'.mapMetrics f).statusPage = (db.mapMetrics f).statusPage from
    congrArg Store.statusPage hSame

/-- The answers agree through `h` when the payloads do. -/
theorem statusPublic_map_congr {h : PublicServer → PublicServer}
    (hConfig : db'.statusPage = db.statusPage)
    (hBuild : ∀ cfg, (buildPublicPayload pollIntervalSeconds now db' cfg).mapServers h =
      (buildPublicPayload pollIntervalSeconds now db cfg).mapServers h) :
    (statusPublic pollIntervalSeconds now db').map (Payload.mapServers h) =
      (statusPublic pollIntervalSeconds now db).map (Payload.mapServers h) := by
  unfold statusPublic
  rw [hConfig]
  dsimp only
  split
  · exact congrArg some (hBuild _)
  · rfl

theorem statusPublic_of_published (db : Store)
    (h : (loadConfig db.statusPage).published = true) :
    statusPublic pollIntervalSeconds now db =
      some (buildPublicPayload pollIntervalSeconds now db (loadConfig db.statusPage)) := if_pos h

theorem statusPublic_of_not_published (db : Store)
    (h : (loadConfig db.statusPage).published = false) :
    statusPublic pollIntervalSeconds now db = none := if_neg (Bool.eq_false_iff.mp h)

/-- Payloads are equal when all entries are. -/
theorem build_congr {f : ProbedMetric → ProbedMetric} (hSame : db'.mapMetrics f = db.mapMetrics f)
    {cfg : StatusPageConfig} (hEntry : ∀ s ∈ listed cfg db,
      publicServer (freshnessLimit pollIntervalSeconds db) now cfg db' s =
        publicServer (freshnessLimit pollIntervalSeconds db) now cfg db s) :
    buildPublicPayload pollIntervalSeconds now db' cfg =
      buildPublicPayload pollIntervalSeconds now db cfg := by
  have hListed : listed cfg db' = listed cfg db :=
    show listed cfg (db'.mapMetrics f) = listed cfg (db.mapMetrics f) from congrArg (listed cfg) hSame
  have hLimit : freshnessLimit pollIntervalSeconds db' = freshnessLimit pollIntervalSeconds db :=
    show freshnessLimit _ (db'.mapMetrics f) = freshnessLimit _ (db.mapMetrics f) from
      congrArg (freshnessLimit pollIntervalSeconds) hSame
  unfold buildPublicPayload
  dsimp only
  rw [hListed, hLimit]
  exact congrArg _ (List.map_congr_left hEntry)

/-- An entry without GPUs is the entry of the wiped database. -/
theorem publicServer_of_not_showsGpus {limit : Int} (cfg : StatusPageConfig) {s : Server}
    (h : ¬showsGpus limit now db s) :
    publicServer limit now cfg (db.mapMetrics (setGpus [])) s = publicServer limit now cfg db s := by
  have hNone : (publicServer limit now cfg db s).gpus = [] := if_neg h
  rw [publicServer_setGpus_nil, hideGpus, ← hNone]

theorem publicServer_of_no_recentOk {limit : Int} (cfg : StatusPageConfig) {s : Server}
    (h : recentOk db.metrics now s.id = []) :
    publicServer limit now cfg (db.mapMetrics (setLatency 0)) s =
      publicServer limit now cfg db s := by
  have hZero : (publicServer limit now cfg db s).avgLatencyMs = 0 := by
    unfold publicServer
    dsimp only
    rw [h]
    norm_num [avgLatency, roundTo, roundHalfEven]
  rw [publicServer_setLatency, if_pos h, ← hZero]

/-- Equal answers of a published page come from equal payloads. -/
theorem build_eq_of_answers_eq (hPublished : (loadConfig db.statusPage).published = true)
    {f g : ProbedMetric → ProbedMetric}
    (h : statusPublic pollIntervalSeconds now (db.mapMetrics f) =
      statusPublic pollIntervalSeconds now (db.mapMetrics g)) :
    buildPublicPayload pollIntervalSeconds now (db.mapMetrics f) (loadConfig db.statusPage) =
      buildPublicPayload pollIntervalSeconds now (db.mapMetrics g) (loadConfig db.statusPage) := by
  rw [statusPublic_of_published (db.mapMetrics f) hPublished,
    statusPublic_of_published (db.mapMetrics g) hPublished] at h
  exact Option.some.inj h

/-- Databases with the same wiped samples agree on who shows GPUs. -/
theorem showsGpus_congr (hSame : SameButGpus db db') {limit : Int} {s : Server} :
    showsGpus limit now db' s ↔ showsGpus limit now db s := by
  have hWiped : ∀ db : Store, showsGpus limit now (db.mapMetrics (setGpus [])) s ↔
      showsGpus limit now db s := by
    intro db
    unfold showsGpus Store.mapMetrics
    dsimp only
    rw [latestOf_map (keepsProbe_setGpus []), stateOf_map (keepsProbe_setGpus [])]
  rw [← hWiped db', ← hWiped db, hSame]

/-- The databases agree on who has successful samples of the last day. -/
theorem recentOk_eq_nil_congr (hSame : SameButLatency db db') {sid : Nat} :
    recentOk db'.metrics now sid = [] ↔ recentOk db.metrics now sid = [] := by
  have hWiped : ∀ db : Store, recentOk (db.mapMetrics (setLatency 0)).metrics now sid = [] ↔
      recentOk db.metrics now sid = [] := by
    intro db
    unfold Store.mapMetrics
    dsimp only
    rw [recentOk_map (keepsProbe_setLatency 0), List.map_eq_nil_iff]
  rw [← hWiped db', ← hWiped db, hSame]

/-- The answer does not change with the config when the page is not published. -/
theorem statusPublic_congr_of (hConfig : db'.statusPage = db.statusPage)
    (hBuild : buildPublicPayload pollIntervalSeconds now db' (loadConfig db.statusPage) =
      buildPublicPayload pollIntervalSeconds now db (loadConfig db.statusPage)) :
    statusPublic pollIntervalSeconds now db' = statusPublic pollIntervalSeconds now db := by
  unfold statusPublic
  dsimp only
  rw [hConfig, hBuild]

/-- The GPUs of samples never matter exactly when no listed server shows any. -/
theorem same_gpus_iff (pollIntervalSeconds now : Int) (db : Store) :
    (∀ db', SameButGpus db db' →
        statusPublic pollIntervalSeconds now db' = statusPublic pollIntervalSeconds now db) ↔
      (loadConfig db.statusPage).published = false ∨
        ∀ s ∈ listed (loadConfig db.statusPage) db,
          ¬showsGpus (freshnessLimit pollIntervalSeconds db) now db s := by
  constructor
  · intro hSame
    cases hPublished : (loadConfig db.statusPage).published with
    | false => exact .inl rfl
    | true =>
      refine .inr fun s hs hShows => ?_
      -- the newest sample once without and once with a GPU
      have hAnswers := (hSame _ (sameButGpus_setGpus db [])).trans
        (hSame _ (sameButGpus_setGpus db [{}])).symm
      have hEntries := publicServer_of_build_eq (build_eq_of_answers_eq hPublished hAnswers) hs
      rw [publicServer_mapMetrics (keepsProbe_setGpus _),
        publicServer_mapMetrics (keepsProbe_setGpus _)] at hEntries
      have hGpus := congrArg PublicServer.gpus hEntries
      dsimp only at hGpus
      obtain ⟨hOnline, hType⟩ := hShows
      rw [if_pos ⟨hOnline, hType⟩, if_pos ⟨hOnline, hType⟩] at hGpus
      cases hLatest : latestOf db.metrics s.id with
      | none =>
        rw [hLatest] at hOnline
        cases hOnline
      | some m =>
        rw [hLatest] at hGpus
        cases hGpus
  · rintro (hHidden | hNone) db' hSame
    · have hConfig : db'.statusPage = db.statusPage := statusPage_congr hSame
      rw [statusPublic_of_not_published db hHidden,
        statusPublic_of_not_published db' (hConfig ▸ hHidden)]
    · refine statusPublic_congr_of (statusPage_congr hSame) (build_congr hSame fun s hs => ?_)
      have hOther := (showsGpus_congr hSame).not.mpr (hNone s hs)
      rw [← publicServer_of_not_showsGpus _ hOther, ← publicServer_of_not_showsGpus _ (hNone s hs),
        hSame]

/-- The latencies of samples never matter exactly when no listed server was reached in the last
day. -/
theorem same_latency_iff (pollIntervalSeconds now : Int) (db : Store) :
    (∀ db', SameButLatency db db' →
        statusPublic pollIntervalSeconds now db' = statusPublic pollIntervalSeconds now db) ↔
      (loadConfig db.statusPage).published = false ∨
        ∀ s ∈ listed (loadConfig db.statusPage) db, recentOk db.metrics now s.id = [] := by
  constructor
  · intro hSame
    cases hPublished : (loadConfig db.statusPage).published with
    | false => exact .inl rfl
    | true =>
      refine .inr fun s hs => by_contra fun hRecent => ?_
      -- the samples once with 0 s and once with 1 s
      have hAnswers := (hSame _ (sameButLatency_setLatency db 0)).trans
        (hSame _ (sameButLatency_setLatency db 1)).symm
      have hEntries := publicServer_of_build_eq (build_eq_of_answers_eq hPublished hAnswers) hs
      rw [publicServer_setLatency, publicServer_setLatency] at hEntries
      have hAverages := congrArg PublicServer.avgLatencyMs hEntries
      dsimp only at hAverages
      rw [if_neg hRecent, if_neg hRecent] at hAverages
      norm_num [roundTo, roundHalfEven] at hAverages
  · rintro (hHidden | hNone) db' hSame
    · have hConfig : db'.statusPage = db.statusPage := statusPage_congr hSame
      rw [statusPublic_of_not_published db hHidden,
        statusPublic_of_not_published db' (hConfig ▸ hHidden)]
    · refine statusPublic_congr_of (statusPage_congr hSame) (build_congr hSame fun s hs => ?_)
      have hOther := (recentOk_eq_nil_congr hSame).mpr (hNone s hs)
      rw [← publicServer_of_no_recentOk _ hOther, ← publicServer_of_no_recentOk _ (hNone s hs),
        hSame]

end Hidden

/-! ## The page hides, the answer does not -/

/-- Samples reach an answer only through the GPUs of the servers online and the averages of the
last day, whatever the flags, and the flags only through themselves. -/
theorem hidden_items_confined (pollIntervalSeconds now : Int) :
    (∀ db db', SameButGpus db db' →
      (statusPublic pollIntervalSeconds now db').map (Payload.mapServers hideGpus) =
        (statusPublic pollIntervalSeconds now db).map (Payload.mapServers hideGpus)) ∧
    (∀ db db', SameButLatency db db' →
      (statusPublic pollIntervalSeconds now db').map (Payload.mapServers hideLatency) =
        (statusPublic pollIntervalSeconds now db).map (Payload.mapServers hideLatency)) ∧
    (∀ db, (∀ db', SameButGpus db db' →
        statusPublic pollIntervalSeconds now db' = statusPublic pollIntervalSeconds now db) ↔
      (loadConfig db.statusPage).published = false ∨
        ∀ s ∈ listed (loadConfig db.statusPage) db,
          ¬showsGpus (freshnessLimit pollIntervalSeconds db) now db s) ∧
    (∀ db, (∀ db', SameButLatency db db' →
        statusPublic pollIntervalSeconds now db' = statusPublic pollIntervalSeconds now db) ↔
      (loadConfig db.statusPage).published = false ∨
        ∀ s ∈ listed (loadConfig db.statusPage) db, recentOk db.metrics now s.id = []) ∧
    ∀ db cfg showLatency showGpu,
      buildPublicPayload pollIntervalSeconds now db { cfg with showLatency, showGpu } =
        { buildPublicPayload pollIntervalSeconds now db cfg with showLatency, showGpu } := by
  refine ⟨fun db db' hSame => ?_, fun db db' hSame => ?_, same_gpus_iff _ _, same_latency_iff _ _,
    fun _ _ _ _ => rfl⟩
  · exact statusPublic_map_congr (statusPage_congr hSame) <| mapServers_buildPublicPayload
      (h := hideGpus) (fun _ => rfl) publicServer_setGpus_nil (fun _ => rfl) hSame
  · exact statusPublic_map_congr (statusPage_congr hSame) <| mapServers_buildPublicPayload
      (h := hideLatency) (fun _ => rfl) publicServer_setLatency_zero (fun _ => rfl) hSame

section Witnesses

/-- A published page with one server; the configuration hides both items. -/
def onePage : Store where
  servers := .singleton { id := 1 }
  metrics := [{ id := 1, serverId := 1, collectedAt := 0 }]
  hourly := []
  statusPage := some { showLatency := some false, showGpu := some false, published := some true }

/-- A hidden GPU and a hidden latency are in the answer. -/
theorem hidden_gpus_returned :
    (∃ db db', SameButGpus db db' ∧ (loadConfig db.statusPage).showGpu = false ∧
      statusPublic 5 0 db' ≠ statusPublic 5 0 db) ∧
    ∃ db db', SameButLatency db db' ∧ (loadConfig db.statusPage).showLatency = false ∧
      statusPublic 5 0 db' ≠ statusPublic 5 0 db :=
  ⟨⟨onePage, _, sameButGpus_setGpus onePage [{ index := some 0 }], rfl, by decide +kernel⟩,
    ⟨onePage, _, sameButLatency_setLatency onePage 1, rfl, by decide +kernel⟩⟩

end Witnesses

end GpuMon.StatusPage

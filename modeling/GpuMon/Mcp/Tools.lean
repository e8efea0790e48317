import GpuMon.Library.PyJson
import GpuMon.Mcp.GpuHistory

/-!
# The tools of the MCP server (`mcp_server/server.py`)

A tool reads payloads of the monitor's API and shows some of what is in them. In the strict mode
it leaves out names of hosts and users, commands, tags and messages, and shows an HMAC instead of
a hardware id.

Records are shown field by field: a table says under which name which key is shown, and how.
Case folding, the upper case of a character, `repr`, the HMAC, `datetime.fromisoformat` and the
clock are parameters. The payloads are what `GpuMonitorClient.get` returns or raises.
-/

namespace GpuMon.McpTools

open PyText PyJson

/-- The privacy mode with its key, and what the tools use of the library. -/
structure Env where
  strict : Bool
  hmacKey : Text
  hmac : Text → Text → Text
  casefold : Text → Text
  upperChar : Char → Text
  repr : Value → Text
  fromIso : Text → Option ℚ
  now : ℚ

/-- The monitor: `health` and `get(path, params)`. -/
structure Backend where
  health : Except Fault Value
  get : Text → Fields → Except Fault Value

def text (t : Text) : Value := .string t

def count (n : Nat) : Value := .int n

/-- `v == t` for a text. -/
def isText (v : Value) (t : Text) : Bool :=
  match v with
  | .string s => s = t
  | _ => false

/-- `str(v)`. -/
def str (env : Env) : Value → Text
  | .null => "None"
  | .bool b => if b then "True" else "False"
  | .int n => intText n
  | .string t => t
  | v => env.repr v

/-- `_number`: only an overflow is not caught. -/
def number (v : Value) : Except Fault PyFloat :=
  if !truthy v then .ok (.finite 0)
  else match toFloat v with
    | .error .overflowError => .error .overflowError
    | .error _ => .ok (.finite 0)
    | .ok x => .ok x

/-- `_rounded`. -/
def rounded (v : Value) (digits : Nat) : Except Fault PyFloat := (number v).map (round digits)

/-- The percentage, for numbers. -/
def percentOf (used total : PyFloat) : PyFloat := round 1 (scale 100 (div used total))

/-- `_memory_percent`. -/
def memoryPercent (used total : Value) : Except Fault PyFloat := do
  let totalN ← number total
  if totalN = .finite 0 then return .finite 0
  let usedN ← number used
  return percentOf usedN totalN

/-- `_data_age_seconds`. -/
def dataAgeSeconds (env : Env) (collectedAt : Value) : Value :=
  match collectedAt with
  | .string t =>
    if t = [] then .null
    else match env.fromIso (replace "Z" "+00:00" t) with
      | some collected => .int (Max.max 0 (PyNum.truncate (env.now - collected)))
      | none => .null
  | _ => .null

/-- `_opaque_hardware_id`. -/
def opaqueHardwareId (env : Env) (value : Value) : Except Fault Text :=
  let raw := if truthy value then str env value else []
  if raw = [] then .ok []
  else
    let key := strip env.hmacKey
    if key.length < 32 ∨ env.casefold key ∈ (["change-me", "changeme", "secret"] : List Text) then
      .error (.raised
        "MCP_PRIVACY_HMAC_KEY must be an independent random value of at least 32 characters")
    else .ok ((env.hmac key raw).take 16)

/-! ## Records -/

/-- How a field of a record is read. -/
inductive Shown
  /-- `d.get(key, default)` -/
  | plain (key : Text) (default : Value)
  /-- `bool(d.get(key, False))` -/
  | flag (key : Text)
  /-- `_rounded(d.get(key), digits)` -/
  | rounded (key : Text) (digits : Nat)
  /-- `_memory_percent(d.get(used), d.get(total))` -/
  | percent (used total : Text)
  /-- `int(_number(d.get(key)))` -/
  | count (key : Text)
  /-- a dict of such counts -/
  | counts (parts : List (Text × Text))
  /-- `list(d.get(key) or [])` -/
  | items (key : Text)
  /-- `d.get(key) or other` -/
  | orElse (key : Text) (other : Value)
  /-- `str(d.get(key) or "")[:length]` -/
  | clipped (key : Text) (length : Nat)
  /-- `_data_age_seconds(d.get(key))` -/
  | age (key : Text)

/-- `int(_number(d.get(key)))`. -/
def countOf (d : Fields) (key : Text) : Except Fault Value := do
  let x ← number (get d key)
  return .int (← truncate x)

def Shown.read (env : Env) (d : Fields) : Shown → Except Fault Value
  | .plain key default => .ok (getOr d key default)
  | .flag key => .ok (.bool (truthy (getOr d key (.bool false))))
  | .rounded key digits => (McpTools.rounded (get d key) digits).map .float
  | .percent used total => (memoryPercent (get d used) (get d total)).map .float
  | .count key => countOf d key
  | .counts parts =>
    (parts.mapM fun p => (countOf d p.2).map fun v => (p.1, v)).map .object
  | .items key => (iterate (PyJson.orElse (get d key) (.array []))).map .array
  | .orElse key other => .ok (PyJson.orElse (get d key) other)
  | .clipped key length => .ok (text ((str env (PyJson.orElse (get d key) (text []))).take length))
  | .age key => .ok (dataAgeSeconds env (get d key))

/-- The keys that a field is read from. -/
def Shown.keys : Shown → List Text
  | .plain key _ | .flag key | .rounded key _ | .count key | .items key | .orElse key _
  | .clipped key _ | .age key => [key]
  | .percent used total => [used, total]
  | .counts parts => parts.map Prod.snd

/-- A record of a table, in the order of the table. -/
def record (env : Env) (table : List (Text × Shown)) (d : Fields) : Except Fault Fields :=
  table.mapM fun p => (p.2.read env d).map fun v => (p.1, v)

/-- The fields that only the extended mode adds. -/
def extended (env : Env) (table : List (Text × Shown)) (d : Fields) : Except Fault Fields :=
  if env.strict then .ok [] else record env table d

/-! ## GPUs and servers -/

def resourceTable : List (Text × Shown) :=
  [("pid", .plain "pid" .null), ("gpu_memory_mb", .rounded "mem_mb" 1)]

def ownerTable : List (Text × Shown) :=
  [("user", .plain "user" (text [])), ("command", .clipped "command" 120)]

def processTable (strict : Bool) : List (Text × Shown) :=
  if strict then resourceTable else resourceTable ++ ownerTable

def snapshotTable : List (Text × Shown) :=
  [("index", .plain "index" (.int 0)), ("name", .plain "name" (text [])),
    ("utilization_pct", .rounded "utilization" 1),
    ("memory_utilization_pct", .rounded "util_memory" 1),
    ("memory_used_mb", .rounded "mem_used_mb" 1), ("memory_total_mb", .rounded "mem_total_mb" 1),
    ("memory_used_pct", .percent "mem_used_mb" "mem_total_mb"),
    ("temperature_c", .rounded "temperature" 1),
    ("memory_temperature_c", .rounded "mem_temperature" 1),
    ("power_draw_w", .rounded "power_draw" 1), ("power_limit_w", .rounded "power_limit" 1),
    ("fan_speed_pct", .rounded "fan_speed" 1), ("pstate", .plain "pstate" (text [])),
    ("compute_mode", .plain "compute_mode" (text [])),
    ("clock_graphics_mhz", .rounded "clock_graphics" 1),
    ("clock_memory_mhz", .rounded "clock_memory" 1),
    ("throttle_reasons", .items "throttle_reasons"), ("ecc_supported", .flag "ecc_supported"),
    ("ecc_corrected_volatile", .count "ecc_corrected_volatile"),
    ("ecc_uncorrected_volatile", .count "ecc_uncorrected_volatile"),
    ("ecc_corrected_total", .count "ecc_corrected_total"),
    ("ecc_uncorrected_total", .count "ecc_uncorrected_total"),
    ("retired_pages_pending", .count "retired_pending"),
    ("remapped_rows_pending", .count "remapped_pending"),
    ("remapped_rows_failure", .count "remapped_failure"),
    ("pcie_generation", .counts [("current", "pcie_gen_current"), ("maximum", "pcie_gen_max")]),
    ("pcie_width", .counts [("current", "pcie_width_current"), ("maximum", "pcie_width_max")])]

def hardwareTable : List (Text × Shown) :=
  [("uuid", .plain "uuid" (text [])), ("serial", .plain "serial" (text [])),
    ("pci_bus_id", .plain "pci_bus_id" (text []))]

/-- `[p for p in (d.get("processes") or []) if isinstance(p, dict)]`. -/
def processesOf (gpu : Fields) : Except Fault (List Fields) :=
  (iterate (orElse (get gpu "processes") (.array []))).map dicts

/-- The hardware id of a GPU, as an HMAC in the strict mode. -/
def hardwareFields (env : Env) (hashName : Text) (table : List (Text × Shown)) (gpu : Fields) :
    Except Fault Fields :=
  if env.strict then
    (opaqueHardwareId env (get gpu "uuid")).map fun hash => [(hashName, text hash)]
  else record env table gpu

/-- The first processes of a GPU, and whether there are more. -/
def listedProcesses (env : Env) (most : Nat) (processes : List Fields) : Except Fault Fields :=
  ((processes.take most).mapM (record env (processTable env.strict))).map fun shown =>
    [("processes", .array (shown.map .object)),
      ("processes_truncated", .bool (most < processes.length))]

/-- `_gpu_snapshot`, with the processes. -/
def gpuSnapshot (env : Env) (gpu : Fields) : Except Fault Fields := do
  let out ← record env snapshotTable gpu
  let hardware ← hardwareFields env "hardware_id_hash" hardwareTable gpu
  let processes ← processesOf gpu
  let listed ← listedProcesses env 50 processes
  return out ++ hardware ++ ("process_count".toList, count processes.length) :: listed

/-- One process of `_privacy_gpu_record`. -/
def privateProcess (p : Fields) : Except Fault Value := do
  let memory ← rounded (getOr p "gpu_memory_mb" (get p "mem_mb")) 1
  return .object [("pid", get p "pid"), ("gpu_memory_mb", .float memory)]

/-- The keys of a record that `_privacy_gpu_record` replaces by hashes. -/
def hardwareKeys : List Text := ["uuid", "serial", "pci_bus_id", "gpu_uuid"]

/-- One turn of its loop. -/
def hideHardwareId (env : Env) (out : Fields) (key : Text) : Except Fault Fields :=
  if (out.lookup key).isNone then .ok out
  else (opaqueHardwareId env (get out key)).map fun hash =>
    erase (set out (key ++ "_hash".toList) (text hash)) key

/-- Its last step. -/
def hideProcesses (out : Fields) : Except Fault Fields :=
  if (out.lookup ("processes" : Text)).isNone then .ok out
  else do
    let processes ← iterate (get out "processes")
    let shown ← (dicts processes).mapM privateProcess
    return set out "processes" (.array shown)

/-- `_privacy_gpu_record`. -/
def privacyGpuRecord (env : Env) (item : Fields) : Except Fault Fields :=
  if env.strict then do
    let out ← hardwareKeys.foldlM (hideHardwareId env) item
    hideProcesses out
  else .ok item

def identityTable : List (Text × Shown) :=
  [("id", .plain "id" .null), ("name", .plain "name" (text [])), ("enabled", .flag "enabled"),
    ("server_type", .plain "server_type" (text "gpu")),
    ("lifecycle_status", .orElse "status" (text "active"))]

def placeTable : List (Text × Shown) :=
  [("host", .plain "host" (text [])), ("port", .plain "port" (.int 22)),
    ("status_reason", .orElse "status_reason" (text [])),
    ("status_until", .plain "status_until" .null), ("tags", .items "tags")]

def serverTable (strict : Bool) : List (Text × Shown) :=
  if strict then identityTable else identityTable ++ placeTable

/-- `_server_public`. -/
def serverPublic (env : Env) (server : Fields) : Except Fault Value :=
  (record env (serverTable env.strict) server).map .object

/-! ## The server that is meant -/

/-- `_as_list`. -/
def asList (value : Value) (label : Text) : Except Fault (List Fields) :=
  match value with
  | .array items => .ok (dicts items)
  | _ => .error (.raised ("GPU Monitor returned an invalid ".toList ++ label ++ " payload".toList))

/-- `if not matches: matches = …`. -/
def orNext (found next : List Fields) : List Fields := if found.isEmpty then next else found

/-- The folded name or host of a server. -/
def folded (env : Env) (key : Text) (s : Fields) : Text :=
  env.casefold (str env (getOr s key (text [])))

/-- The servers with the id that `ref` is. `int(ref)` is taken for each of them, and refuses digits
that are not decimal. -/
def withId (ref : Text) (servers : List Fields) : Except Fault (List Fields) :=
  if isDigitText ref ∧ servers ≠ [] then
    match intOfDigits ref with
    | none => .error .valueError
    | some n => .ok (servers.filter fun s => equalsInt (get s "id") n)
  else .ok []

/-- The three ways to name a server, the first one that finds any counts. -/
def matching (env : Env) (ref : Text) (servers : List Fields) : Except Fault (List Fields) := do
  let byId ← withId ref servers
  let exactly := servers.filter fun s =>
    env.casefold ref = folded env "name" s || env.casefold ref = folded env "host" s
  let partly := servers.filter fun s => contains (env.casefold ref) (folded env "name" s)
  return orNext byId (orNext exactly partly)

/-- `f"{s.get('id')}:{s.get('name')}"` of the servers. -/
def choices (env : Env) (servers : List Fields) : Text :=
  join ", " (servers.map fun s => str env (get s "id") ++ ':' :: str env (get s "name"))

/-- The server that is matched, if it is one; otherwise the error names some of them. -/
def chooseServer (env : Env) (ref : Text) (gpuServers matched : List Fields) :
    Except Fault Fields :=
  match matched with
  | [s] => .ok s
  | [] =>
    let available := choices env (gpuServers.take 20)
    .error (.raised ("GPU server not found: ".toList ++ ref ++ ". Available GPU servers: ".toList ++
      if available = [] then "none".toList else available))
  | several =>
    .error (.raised ("server reference is ambiguous; choose one of: ".toList ++
      choices env (several.take 10)))

def isGpuServer (s : Fields) : Bool := !isText (getOr s "server_type" (text "gpu")) "cpu"

/-- `_resolve_server`. -/
def resolveServer (env : Env) (api : Backend) (reference : Text) : Except Fault Fields :=
  let ref := strip reference
  if ref = [] then
    .error (.raised "server must be an ID, exact name, or unambiguous name fragment")
  else if 128 < ref.length || ref.any fun c => c.toNat < 32 || c.toNat = 127 then
    .error (.raised "server reference is invalid or too long")
  else do
    let servers ← asList (← api.get "/api/servers" []) "server list"
    let gpuServers := servers.filter isGpuServer
    chooseServer env ref gpuServers (← matching env ref gpuServers)

/-- `int(resolved["id"])`. -/
def serverId (server : Fields) : Except Fault Int :=
  match server.lookup ("id" : Text) with
  | none => .error .keyError
  | some v => toInt v

/-! ## Tools -/

def object (fields : List (Text × Value)) : Value := .object fields

/-- `[g for g in (d.get("gpus") or []) if isinstance(g, dict)]`. -/
def gpusOf (d : Fields) : Except Fault (List Fields) :=
  (iterate (orElse (get d "gpus") (.array []))).map dicts

/-- `[_number(g.get(key)) for g in gpus]`. -/
def numbers (key : Text) (gpus : List Fields) : Except Fault (List PyFloat) :=
  gpus.mapM fun g => number (get g key)

/-- `round(sum(xs), 1)`; the sum of nothing is the integer zero. -/
def roundedSum (xs : List PyFloat) : Value :=
  if xs = [] then .int 0 else .float (round 1 (sum xs))

/-- `round(sum(xs) / len(xs), 1) if xs else 0.0`. -/
def roundedMean (xs : List PyFloat) : Value :=
  if xs = [] then .float (.finite 0)
  else .float (round 1 (div (sum xs) (.finite xs.length)))

/-- `round(max(xs), 1) if xs else 0.0`. -/
def roundedMax (xs : List PyFloat) : Value :=
  if xs = [] then .float (.finite 0) else .float (round 1 (PyJson.max xs))

/-- `_memory_percent` of two sums. -/
def percentOfSums (used total : List PyFloat) : Value :=
  if sum total = .finite 0 then .float (.finite 0) else .float (percentOf (sum used) (sum total))

/-- `bool(d.get(key, False))`. -/
def flag (d : Fields) (key : Text) : Bool := truthy (getOr d key (.bool false))

def rowTable : List (Text × Shown) :=
  [("server_id", .plain "server_id" .null), ("server_name", .plain "server_name" (text [])),
    ("enabled", .flag "enabled"), ("online", .flag "online"),
    ("lifecycle_status", .orElse "status" (text "active"))]

def rowPlaceTable : List (Text × Shown) :=
  [("hostname", .plain "hostname" (text [])), ("tags", .items "tags"),
    ("error", .plain "error" (text []))]

/-- One row of `_summarize_matrix`. -/
def summarizeRow (env : Env) (row : Fields) : Except Fault Value := do
  let gpus ← gpusOf row
  let utils ← numbers "utilization" gpus
  let temperatures ← numbers "temperature" gpus
  let memUsed ← numbers "mem_used_mb" gpus
  let memTotal ← numbers "mem_total_mb" gpus
  let shown ← record env rowTable row
  let power ← numbers "power_draw" gpus
  let place ← extended env rowPlaceTable row
  let totals : Fields :=
    [("gpu_count", count gpus.length), ("average_utilization_pct", roundedMean utils),
      ("memory_used_mb", roundedSum memUsed), ("memory_total_mb", roundedSum memTotal),
      ("memory_used_pct", percentOfSums memUsed memTotal),
      ("maximum_temperature_c", roundedMax temperatures), ("power_draw_w", roundedSum power)]
  return object (shown ++ totals ++ place)

/-- `_summarize_matrix`. -/
def summarizeMatrix (env : Env) (rows : List Fields) (includeDisabled : Bool) :
    Except Fault (List Value) :=
  (rows.filter fun row => includeDisabled || flag row "enabled").mapM (summarizeRow env)

def userTable : List (Text × Shown) :=
  [("username", .plain "username" (text [])), ("display_name", .plain "display_name" (text []))]

/-- `gpu_monitor_connection_status`. -/
def connectionStatus (env : Env) (api : Backend) : Except Fault Value := do
  let health ← api.health
  let me ← api.get "/api/auth/me" []
  let role := (asDict me).elim (text []) fun d => getOr d "role" (text [])
  let more ← (asDict me).elim (.ok []) (extended env userTable)
  return object [("health", health), ("authenticated_user", object (("role".toList, role) :: more)),
    ("read_only_tools", .bool true),
    ("privacy_mode", text (if env.strict then "strict" else "extended"))]

/-- `gpu_monitor_list_servers`. -/
def listServers (env : Env) (api : Backend) (includeDisabled : Bool) : Except Fault Value := do
  let rows ← asList (← api.get "/api/metrics/cluster-gpus" []) "GPU matrix"
  let servers ← summarizeMatrix env rows includeDisabled
  return object [("count", count servers.length), ("servers", .array servers)]

/-- A GPU with its score. -/
def withRisk (g : Fields) : Except Fault (PyFloat × Fields) :=
  (number (get g "risk")).map fun r => (r, g)

/-- Before `b` in the order of `sort(key=risk, reverse=True)`. -/
def riskier (a b : PyFloat × Fields) : Bool := !lt a.1 b.1

/-- `gpu_monitor_cluster_summary`. -/
def clusterSummary (env : Env) (api : Backend) : Except Fault Value := do
  let isIdle := fun util => lt util (.finite 5)
  let rows ← asList (← api.get "/api/metrics/cluster-gpus" []) "GPU matrix"
  let enabled := rows.filter fun row => flag row "enabled"
  let online := enabled.filter fun row => flag row "online"
  let gpus := (← online.mapM gpusOf).flatten
  let utils ← numbers "utilization" gpus
  let temperatures ← numbers "temperature" gpus
  let memUsed ← numbers "mem_used_mb" gpus
  let memTotal ← numbers "mem_total_mb" gpus
  let analysis := (asDict (← api.get "/api/cluster/gpu-analysis" [])).getD []
  let risky ← (← gpusOf analysis).mapM withRisk
  let percents ← gpus.mapM fun g => memoryPercent (get g "mem_used_mb") (get g "mem_total_mb")
  let power ← numbers "power_draw" gpus
  let idleHeld ← countOf analysis "idle_held_count"
  let highRisk ← countOf analysis "high_risk_count"
  let highest ← ((risky.insertionSort fun a b => riskier a b).take 10).mapM fun p =>
    (privacyGpuRecord env p.2).map object
  return object
    [("servers", object [("total", count rows.length), ("enabled", count enabled.length),
      ("online", count online.length),
      ("offline", count (enabled.filter fun row => !flag row "online").length)]),
    ("gpus", object [("total_reporting", count gpus.length),
      ("busy", count (utils.filter fun u => lt (.finite 5) u || u = .finite 5).length),
      ("idle", count (utils.filter isIdle).length),
      ("idle_with_memory_held", count ((utils.zip percents).filter fun p =>
        isIdle p.1 && (lt (.finite 30) p.2 || p.2 = .finite 30)).length),
      ("average_utilization_pct", roundedMean utils), ("memory_used_mb", roundedSum memUsed),
      ("memory_total_mb", roundedSum memTotal),
      ("memory_used_pct", percentOfSums memUsed memTotal),
      ("maximum_temperature_c", roundedMax temperatures), ("power_draw_w", roundedSum power)]),
    ("risk", object [("idle_held_count", idleHeld), ("high_risk_count", highRisk),
      ("highest_risk_gpus", .array highest)])]

def riskTable : List (Text × Shown) :=
  [("score", .count "risk"), ("label", .plain "risk_label" (text "unknown")),
    ("xid_events_24h", .count "xid_events"),
    ("thermal_throttle_samples_24h", .count "thermal_throttle_samples"),
    ("maximum_temperature_24h_c", .rounded "max_temp" 1)]

def metricTable : List (Text × Shown) :=
  [("collected_at", .plain "collected_at" .null), ("age_seconds", .age "collected_at"),
    ("status", .plain "status" (text "unknown")), ("error_code", .plain "error_code" (text [])),
    ("gpu_driver", .plain "gpu_driver" (text [])),
    ("ssh_latency_seconds", .rounded "ssh_latency" 3),
    ("collection_duration_seconds", .rounded "duration" 2)]

def metricPlaceTable : List (Text × Shown) :=
  [("hostname", .plain "hostname" (text [])), ("error", .plain "error" (text []))]

/-- `risk_by_uuid.get(str(uuid), {})`: a later entry of one uuid replaces an earlier one. -/
def riskOf (env : Env) (risks : List Fields) (uuid : Text) : Fields :=
  ((risks.reverse.filter fun r => truthy (get r "uuid")).find? fun r =>
    str env (get r "uuid") = uuid).getD []

def serverPath (id : Int) (rest : Text) : Text :=
  "/api/metrics/server/".toList ++ intText id ++ rest

def riskPath (id : Int) : Text := "/api/servers/".toList ++ intText id ++ "/risk".toList

def asPayload (value : Value) (label : Text) : Except Fault Fields :=
  match value with
  | .object d => .ok d
  | _ => .error (.raised ("GPU Monitor returned an invalid ".toList ++ label))

/-- `risk_payload.get("gpus", [])`, its dicts. -/
def risksOf (payload : Value) : Except Fault (List Fields) :=
  match payload with
  | .object d => (iterate (getOr d "gpus" (.array []))).map dicts
  | _ => .ok []

/-- A GPU of the answer, with its entry of the risk list. -/
def gpuWithRisk (env : Env) (risks : List Fields) (gpu : Fields) : Except Fault Value := do
  let shown ← gpuSnapshot env gpu
  let risk ← record env riskTable (riskOf env risks (str env (get gpu "uuid")))
  return object (shown ++ [("risk".toList, object risk)])

/-- `gpu_monitor_get_server_gpu_info`. -/
def getServerGpuInfo (env : Env) (api : Backend) (server : Text) : Except Fault Value := do
  let resolved ← resolveServer env api server
  let id ← serverId resolved
  let latest ← asPayload (← api.get (serverPath id "/latest") []) "latest metric"
  let risks ← risksOf (← api.get (riskPath id) [])
  let snapshots ← (← gpusOf latest).mapM (gpuWithRisk env risks)
  let metric ← record env metricTable latest
  let place ← extended env metricPlaceTable latest
  let shown ← serverPublic env resolved
  return object [("server", shown), ("metric", object (metric ++ place)),
    ("gpu_count", count snapshots.length), ("gpus", .array snapshots)]

def pointTable : List (Text × Shown) :=
  [("time", .plain "time" .null), ("utilization_pct", .rounded "gpu_util" 1),
    ("memory_used_mb", .rounded "gpu_mem_used_mb" 1),
    ("memory_used_pct", .rounded "gpu_mem_percent" 1),
    ("maximum_temperature_c", .rounded "gpu_temp" 1), ("power_draw_w", .rounded "gpu_power" 1),
    ("average_graphics_clock_mhz", .rounded "gpu_clock" 1)]

/-- The rows that are shown; the places are those of `Mcp.indices`. -/
def thinnedRows (rows : List Fields) (maxPoints : Int) : List Fields :=
  if maxPoints < rows.length then
    (Mcp.indices rows.length maxPoints.toNat).filterMap fun index => rows[index.toNat]?
  else rows

/-- `gpu_monitor_get_gpu_history`; the arguments are integers. -/
def getGpuHistory (env : Env) (api : Backend) (server : Text) (hours maxPoints : Int) :
    Except Fault Value :=
  if hours < 1 || 168 < hours then .error (.raised "hours must be between 1 and 168")
  else if maxPoints < 10 || 720 < maxPoints then
    .error (.raised "max_points must be between 10 and 720")
  else do
    let resolved ← resolveServer env api server
    let id ← serverId resolved
    let all ← asList (← api.get (serverPath id "/history") [("hours", .int hours)]) "GPU history"
    let rows := thinnedRows all maxPoints
    let points ← rows.mapM (record env pointTable)
    let utils ← rows.mapM fun row => rounded (get row "gpu_util") 1
    let temps ← rows.mapM fun row => rounded (get row "gpu_temp") 1
    let powers ← rows.mapM fun row => rounded (get row "gpu_power") 1
    let shown ← serverPublic env resolved
    return object [("server", shown), ("window_hours", .int hours),
      ("point_count", count points.length),
      ("summary", object [("average_utilization_pct", roundedMean utils),
        ("maximum_temperature_c", roundedMax temps), ("average_power_draw_w", roundedMean powers)]),
      ("points", .array (points.map object))]

def gpuTable : List (Text × Shown) :=
  [("gpu_index", .plain "index" .null), ("gpu_name", .plain "name" (text []))]

def gpuUuidTable : List (Text × Shown) := [("gpu_uuid", .plain "uuid" (text []))]

/-- A GPU of the answer, and how many processes it has. -/
def gpuWithProcesses (env : Env) (gpu : Fields) : Except Fault (Nat × Value) := do
  let processes ← processesOf gpu
  let names ← record env gpuTable gpu
  let listed ← listedProcesses env 100 processes
  let hardware ← hardwareFields env "gpu_uuid_hash" gpuUuidTable gpu
  return (processes.length,
    object (names ++ ("process_count".toList, count processes.length) :: listed ++ hardware))

/-- `gpu_monitor_get_gpu_processes`. -/
def getGpuProcesses (env : Env) (api : Backend) (server : Text) : Except Fault Value := do
  let resolved ← resolveServer env api server
  let id ← serverId resolved
  let latest ← asPayload (← api.get (serverPath id "/latest") []) "latest metric"
  let rows ← (← gpusOf latest).mapM (gpuWithProcesses env)
  let shown ← serverPublic env resolved
  return object [("server", shown), ("collected_at", get latest "collected_at"),
    ("age_seconds", dataAgeSeconds env (get latest "collected_at")),
    ("total_processes", count (rows.map Prod.fst).sum), ("gpus", .array (rows.map Prod.snd))]

/-- The filter of `gpu_monitor_get_risk_analysis`. -/
def isListed (minimumRisk : Int) (idleOnly : Bool) (p : PyFloat × Fields) : Bool :=
  (lt (.finite minimumRisk) p.1 || p.1 = .finite minimumRisk) && (!idleOnly || flag p.2 "idle_held")

/-- `gpu_monitor_get_risk_analysis`; the arguments are integers. -/
def getRiskAnalysis (env : Env) (api : Backend) (minimumRisk : Int) (idleOnly : Bool)
    (limit : Int) : Except Fault Value :=
  if minimumRisk < 0 || 100 < minimumRisk then
    .error (.raised "minimum_risk must be between 0 and 100")
  else if limit < 1 || 200 < limit then .error (.raised "limit must be between 1 and 200")
  else do
    let payload ← asPayload (← api.get "/api/cluster/gpu-analysis" []) "risk analysis"
    let scored ← (← gpusOf payload).mapM withRisk
    let gpus := scored.filter (isListed minimumRisk idleOnly)
    let total ← countOf payload "total_gpus"
    let idleHeld ← countOf payload "idle_held_count"
    let highRisk ← countOf payload "high_risk_count"
    let shown ← (gpus.take limit.toNat).mapM fun p => (privacyGpuRecord env p.2).map object
    return object [("cluster_total_gpus", total), ("cluster_idle_held_count", idleHeld),
      ("cluster_high_risk_count", highRisk),
      ("filters", object [("minimum_risk", .int minimumRisk), ("idle_only", .bool idleOnly),
        ("limit", .int limit)]),
      ("matched_count", count gpus.length),
      ("returned_count", .int (min (gpus.length : Int) limit)), ("gpus", .array shown)]

def eventTable : List (Text × Shown) :=
  [("id", .plain "id" .null), ("server_id", .plain "server_id" .null),
    ("server_name", .plain "server_name" (text [])), ("metric", .plain "metric" (text [])),
    ("rule_name", .plain "rule_name" (text [])), ("value", .plain "value" .null),
    ("threshold", .plain "threshold" .null), ("triggered_at", .plain "triggered_at" .null),
    ("recovered_at", .plain "recovered_at" .null), ("acked_at", .plain "acked_at" .null)]

def eventPersonTable : List (Text × Shown) :=
  [("message", .plain "message" (text [])), ("acked_by", .plain "acked_by" (text [])),
    ("assignee", .plain "assignee" (text []))]

def gpuTerms : List Text := ["GPU", "XID", "ECC", "PCIE", "NVIDIA", "NVML"]

/-- `any(term in haystack for term in gpu_terms)`. -/
def concernsGpu (env : Env) (row : Fields) : Bool :=
  let haystack := join " " ((["metric", "rule_name", "message"] : List Text).map fun key =>
    str env (orElse (get row key) (text [])))
  gpuTerms.any fun term => contains term (haystack.flatMap env.upperChar)

/-- An event of the answer. -/
def shownEvent (env : Env) (row : Fields) : Except Fault Value := do
  let shown ← record env eventTable row
  let people ← extended env eventPersonTable row
  return object (shown ++ people)

/-- The server of the request, if there is one. -/
def resolveOptional (env : Env) (api : Backend) (server : Text) : Except Fault (Option Fields) :=
  if strip server = [] then .ok none else (resolveServer env api server).map some

def serverParam (resolved : Option Fields) : Except Fault Fields :=
  match resolved with
  | none => .ok []
  | some s => (serverId s).map fun id => [("server_id", .int id)]

/-- `gpu_monitor_get_gpu_alerts`; the limit is an integer. -/
def getGpuAlerts (env : Env) (api : Backend) (server : Text) (openOnly : Bool) (limit : Int) :
    Except Fault Value :=
  if limit < 1 || 200 < limit then .error (.raised "limit must be between 1 and 200")
  else do
    let resolved ← resolveOptional env api server
    let more ← serverParam resolved
    let params : Fields :=
      ("open_only", text (if openOnly then "true" else "false")) :: ("limit", .int limit) :: more
    let rows ← asList (← api.get "/api/alerts/events" params) "alert event list"
    let events ← (rows.filter (concernsGpu env)).mapM (shownEvent env)
    let shown ← resolved.elim (.ok .null) (serverPublic env)
    return object [("server", shown), ("open_only", .bool openOnly),
      ("count", count events.length), ("events", .array events)]

/-- A call of a tool. -/
inductive Call
  | connectionStatus
  | listServers (includeDisabled : Bool)
  | clusterSummary
  | getServerGpuInfo (server : Text)
  | getGpuHistory (server : Text) (hours maxPoints : Int)
  | getGpuProcesses (server : Text)
  | getRiskAnalysis (minimumRisk : Int) (idleOnly : Bool) (limit : Int)
  | getGpuAlerts (server : Text) (openOnly : Bool) (limit : Int)

def Call.run (env : Env) (api : Backend) : Call → Except Fault Value
  | .connectionStatus => McpTools.connectionStatus env api
  | .listServers includeDisabled => McpTools.listServers env api includeDisabled
  | .clusterSummary => McpTools.clusterSummary env api
  | .getServerGpuInfo server => McpTools.getServerGpuInfo env api server
  | .getGpuHistory server hours maxPoints => McpTools.getGpuHistory env api server hours maxPoints
  | .getGpuProcesses server => McpTools.getGpuProcesses env api server
  | .getRiskAnalysis minimumRisk idleOnly limit =>
    McpTools.getRiskAnalysis env api minimumRisk idleOnly limit
  | .getGpuAlerts server openOnly limit => McpTools.getGpuAlerts env api server openOnly limit

/-- How the call names a server. -/
def Call.reference : Call → Text
  | .getServerGpuInfo server | .getGpuHistory server _ _ | .getGpuProcesses server
  | .getGpuAlerts server _ _ => server
  | _ => []

end GpuMon.McpTools

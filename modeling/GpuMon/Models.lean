import GpuMon.Library.PyFloat
import GpuMon.Library.PyText
import GpuMon.Library.Table

/-!
# Rows of the database (`models.py`)

One structure per table, with the columns that a modelled function reads or writes. A
`datetime` is an `Int`, in microseconds since the epoch; the naive values some databases hand
back are UTC already, so both kinds are the same number here. JSON columns are lists of
records whose fields are optional: `none` is a missing key or a JSON `null`, which the
source treats alike (`g.get(key, 0) or 0`).
-/

namespace GpuMon

/-- `timedelta(seconds=n)`, in microseconds. -/
def seconds (n : Int) : Int := n * 1000000

/-- `timedelta(minutes=n)`, in microseconds. -/
def minutes (n : Int) : Int := seconds (n * 60)

/-- `d.total_seconds()`. -/
def totalSeconds (d : Int) : ℚ := d / 1000000

/-- An `HTTPException`. -/
structure HttpError where
  status : Nat
  detail : Text
  deriving DecidableEq

/-- A process, listed under a GPU or in the process table of a host. -/
structure GpuProcess where
  pid : Nat
  user : Option Text := none
  command : Option Text := none
  ppid : Option Nat := none
  cpu : Option ℚ := none
  mem : Option ℚ := none
  rssMb : Option ℚ := none
  vszMb : Option ℚ := none
  stat : Option Text := none
  etimes : Option Nat := none
  memMb : Option ℚ := none
  deriving DecidableEq

/-- A login session of a host (`_parse_who`). -/
structure UserSession where
  user : Text
  tty : Text := []
  host : Text := []
  login : Text := []
  deriving DecidableEq

/-- One entry of the JSON list `gpus`; `ν` is the type of its numbers. -/
structure Gpu (ν : Type) where
  index : Option Int := none
  uuid : Option Text := none
  name : Option Text := none
  utilization : Option ν := none
  utilMemory : Option ν := none
  memUsedMb : Option ν := none
  memTotalMb : Option ν := none
  temperature : Option ν := none
  powerDraw : Option ν := none
  powerLimit : Option ν := none
  fanSpeed : Option ν := none
  clockGraphics : Option ν := none
  clockMemory : Option ν := none
  clockGraphicsMax : Option ν := none
  clockMemoryMax : Option ν := none
  encoderSessions : Option ν := none
  decoderSessions : Option ν := none
  pstate : Option Text := none
  computeMode : Option Text := none
  serial : Option Text := none
  pciBusId : Option Text := none
  memTemperature : Option ν := none
  throttleMask : Option Text := none
  throttleReasons : List Text := []
  eccMode : Option Text := none
  eccSupported : Bool := false
  eccCorrectedVolatile : Option ν := none
  eccUncorrectedVolatile : Option ν := none
  eccCorrectedTotal : Option ν := none
  eccUncorrectedTotal : Option ν := none
  remappedPending : Option ν := none
  remappedFailure : Option ν := none
  retiredPending : Option ν := none
  pcieGenCurrent : Option ν := none
  pcieGenMax : Option ν := none
  pcieWidthCurrent : Option ν := none
  pcieWidthMax : Option ν := none
  processes : List GpuProcess := []
  deriving DecidableEq

section Uuids

variable {ν : Type}

/-- The uuid of a GPU, if it has one that is not empty. -/
def validUuid (g : Gpu ν) : Option Text := g.uuid.filter fun uuid => uuid ≠ []

/-- The uuids of a sample. -/
def validUuids (gpus : List (Gpu ν)) : List Text := gpus.filterMap validUuid

theorem validUuid_eq_some {g : Gpu ν} {uuid : Text} :
    validUuid g = some uuid ↔ g.uuid = some uuid ∧ uuid ≠ [] := by
  simp [validUuid, Option.filter_eq_some_iff]

theorem mem_validUuids {gpus : List (Gpu ν)} {uuid : Text} :
    uuid ∈ validUuids gpus ↔ uuid ≠ [] ∧ some uuid ∈ gpus.map Gpu.uuid := by
  simp only [validUuids, List.mem_filterMap, validUuid_eq_some, List.mem_map]
  constructor
  · rintro ⟨g, hg, hUuid, hNe⟩
    exact ⟨hNe, g, hg, hUuid⟩
  · rintro ⟨hNe, g, hg, hUuid⟩
    exact ⟨g, hg, hUuid, hNe⟩

end Uuids

/-- `ServerMetric.status`. -/
inductive MetricStatus
  | ok
  | error
  deriving DecidableEq

/-- One mount of the JSON list `disks`. -/
structure Disk where
  mount : Text := []
  percent : ℚ := 0
  deriving DecidableEq

/-- `ServerMetric`: one raw sample. -/
structure ServerMetric where
  id : Nat
  serverId : Nat
  collectedAt : Int
  sampleIntervalSeconds : Option Int := none
  hostname : Text := []
  cpuCount : Int := 0
  cpuPercent : ℚ := 0
  load1 : ℚ := 0
  memTotalMb : ℚ := 0
  memUsedMb : ℚ := 0
  swapTotalMb : ℚ := 0
  swapUsedMb : ℚ := 0
  disks : List Disk := []
  netRxBytes : ℚ := 0
  netTxBytes : ℚ := 0
  users : List UserSession := []
  gpus : List (Gpu ℚ) := []
  processes : List GpuProcess := []
  status : MetricStatus := .ok
  errorCode : Text := "OK"
  error : Text := []
  deriving DecidableEq

instance : Keyed ServerMetric := ⟨ServerMetric.id⟩

theorem ServerMetric.key_with_id (m : ServerMetric) (id : Nat) :
    Keyed.key { m with id } = id := rfl

/-- The order of `(collected_at, id)`, in which samples of one instant follow their ids. -/
def ServerMetric.key (m : ServerMetric) : Int ×ₗ Nat := toLex (m.collectedAt, m.id)

theorem ServerMetric.collectedAt_le_of_key_le {a b : ServerMetric} (h : a.key ≤ b.key) :
    a.collectedAt ≤ b.collectedAt := by
  rcases Prod.Lex.le_iff.mp h with hLt | hEq
  · exact le_of_lt hLt
  · exact le_of_eq hEq.1

/-- `ServerMetricHourly`: the rollup of one server and one hour. -/
structure ServerMetricHourly where
  serverId : Nat
  hour : Int
  samples : Nat := 0
  okSamples : Nat := 0
  cpuAvg : ℚ := 0
  cpuMax : ℚ := 0
  memAvgPct : ℚ := 0
  gpuUtilAvg : ℚ := 0
  gpuUtilMax : ℚ := 0
  gpuMemPctAvg : ℚ := 0
  gpuPowerAvg : ℚ := 0
  netRxAvgBps : ℚ := 0
  netTxAvgBps : ℚ := 0
  idleHeldMinutes : Int := 0
  gpuSampleMinutes : Option ℚ := none
  idleHeldGpuMinutes : Option ℚ := none
  gpuTimeEstimated : Bool := false
  deriving DecidableEq

/-- `Server.status`. -/
inductive ServerStatus
  | active
  | maintenance
  | drained
  | rma
  deriving DecidableEq

/-- `Server`: the columns the scheduler reads and those a restore fills in. -/
structure Server where
  id : Nat
  name : Text := []
  host : Text := []
  port : Nat := 22
  authType : Text := "password"
  username : Text := "gpumon"
  password : Text := []
  privateKey : Text := []
  passphrase : Text := []
  bmcHost : Text := []
  bmcUser : Text := []
  bmcPassword : Text := []
  enabled : Bool := true
  serverType : Text := "gpu"
  tags : List Text := []
  note : Text := []
  status : ServerStatus := .active
  deriving DecidableEq

instance : Keyed Server := ⟨Server.id⟩

theorem Server.key_with_id (server : Server) (id : Nat) : Keyed.key { server with id } = id := rfl

/-- The metrics a user rule can watch (`AlertRuleBase.metric`). -/
inductive Metric
  | cpuPercent
  | memPercent
  | swapPercent
  | diskPercent
  | loadPerCore
  | gpuUtil
  | gpuTemp
  | gpuMemPercent
  | gpuPower
  deriving DecidableEq

/-- The column text of a metric. -/
def Metric.text : Metric → Text
  | .cpuPercent => "cpu_percent"
  | .memPercent => "mem_percent"
  | .swapPercent => "swap_percent"
  | .diskPercent => "disk_percent"
  | .loadPerCore => "load_per_core"
  | .gpuUtil => "gpu_util"
  | .gpuTemp => "gpu_temp"
  | .gpuMemPercent => "gpu_mem_percent"
  | .gpuPower => "gpu_power"

/-- The comparison of a user rule (`AlertRuleBase.op`). -/
inductive CompareOp
  | gt
  | ge
  | lt
  | le
  deriving DecidableEq

/-- The column text of a comparison. -/
def CompareOp.text : CompareOp → Text
  | .gt => ">"
  | .ge => ">="
  | .lt => "<"
  | .le => "<="

/-- `AlertRule`. -/
structure AlertRule where
  id : Nat
  name : Text := []
  metric : Metric
  op : CompareOp := .gt
  threshold : ℚ
  durationMinutes : Nat := 0
  serverId : Option Nat := none
  enabled : Bool := true
  deriving DecidableEq

instance : Keyed AlertRule := ⟨AlertRule.id⟩

theorem AlertRule.key_with_id (rule : AlertRule) (id : Nat) : Keyed.key { rule with id } = id := rfl

/-- `AlertEvent`: raised by a user rule, or by a detector when `ruleId` is `none`. -/
structure AlertEvent where
  id : Nat
  ruleId : Option Nat := none
  ruleName : Text := []
  serverId : Nat
  serverName : Text := []
  metric : Text
  value : ℚ := 0
  threshold : ℚ := 0
  message : Text := []
  triggeredAt : Int := 0
  recoveredAt : Option Int := none
  ackedAt : Option Int := none
  ackedBy : Text := []
  notified : Bool := false
  deriving DecidableEq

instance : Keyed AlertEvent := ⟨AlertEvent.id⟩

/-- `recovered_at IS NULL`. -/
def AlertEvent.isOpen (ev : AlertEvent) : Bool := ev.recoveredAt.isNone

/-- The kinds of kernel events. -/
inductive EventType
  | gpuXid
  | gpuFallenOffBus
  | oomKill
  | mceHardwareError
  | edacMemoryError
  | pcieAer
  | ioError
  | nvmeError
  | nfsError
  | nicReset
  | tcpRequested
  deriving DecidableEq

/-- The column text of a kind. -/
def EventType.text : EventType → Text
  | .gpuXid => "GPU_XID"
  | .gpuFallenOffBus => "GPU_FALLEN_OFF_BUS"
  | .oomKill => "OOM_KILL"
  | .mceHardwareError => "MCE_HARDWARE_ERROR"
  | .edacMemoryError => "EDAC_MEMORY_ERROR"
  | .pcieAer => "PCIE_AER"
  | .ioError => "IO_ERROR"
  | .nvmeError => "NVME_ERROR"
  | .nfsError => "NFS_ERROR"
  | .nicReset => "NIC_RESET"
  | .tcpRequested => "TCP_REQUESTED"

inductive Severity
  | critical
  | warning
  | info
  deriving DecidableEq

/-- `KernelEventRow`. -/
structure KernelEventRow where
  serverId : Nat
  collectedAt : Int
  bootId : Text := []
  eventType : EventType
  severity : Severity := .info
  gpuUuid : Text := []
  xid : Nat := 0
  message : Text := []
  rawMessage : Text := []
  dedupHash : Text
  deriving DecidableEq

/-- One entry of `SlowHealth.mdraid["arrays"]`; a missing key is `none`. -/
structure RaidArray where
  name : Text
  level : Option Text := none
  activeDisks : Option Nat := none
  totalDisks : Option Nat := none
  state : Option Text := none
  degraded : Bool := false
  recoveryPercent : Option PyFloat := none
  deriving DecidableEq

/-- `SlowHealth.mdraid`. -/
structure Mdraid where
  personalities : List Text := []
  arrays : List RaidArray := []
  raw : Text := []
  deriving DecidableEq

/-- `GpuBaseline`: a GPU that some successful poll of the server listed. -/
structure GpuBaseline where
  serverId : Nat
  gpuUuid : Text
  name : Text := []
  serial : Text := []
  pciBusId : Text := []
  lastSeen : Int := 0
  missingSince : Option Int := none
  deriving DecidableEq

end GpuMon

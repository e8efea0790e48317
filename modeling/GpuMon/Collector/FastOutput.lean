import GpuMon.Collector.Counters
import GpuMon.Collector.Cpu
import GpuMon.Collector.FileSystems
import GpuMon.Collector.Gpus
import Mathlib.Tactic.MkIffOfInductiveProp

/-!
# The output of the fast script (`ssh_collector.py`)

`_parse_fast_output` hands each section to its parser. An exception in any of them is an exception
of the whole, and the host is then reported as one that could not be collected.

* `isSome_readHost_iff`, `isSome_readCpu_iff`, ..: what each part of the function asks of the text.
* `fast_output_parsed_iff`: the whole returns a result for the texts that are `Readable`, and raises
  for the others; `collect` answers that with `COLLECT_FAILED`.
-/

namespace GpuMon.Collector

open PyText PyFloat BatchLoop

/-! ## The function -/

/-- What `_parse_fast_output` writes of a `MetricResult`. -/
structure MetricResult where
  hostname : Text := []
  os : Text := []
  kernel : Text := []
  uptimeSeconds : Int := 0
  bootId : Text := []
  hostTs : Int := 0
  cpuModel : Text := []
  cpuCount : Int := 0
  cpuPercent : PyFloat := 0
  cpuIowait : PyFloat := 0
  cpuFreqAvg : Int := 0
  cpuTempPackage : PyFloat := 0
  cores : List Core := []
  load1 : PyFloat := 0
  load5 : PyFloat := 0
  load15 : PyFloat := 0
  memTotalMb : PyFloat := 0
  memUsedMb : PyFloat := 0
  memAvailableMb : PyFloat := 0
  memCachedMb : PyFloat := 0
  swapTotalMb : PyFloat := 0
  swapUsedMb : PyFloat := 0
  hugepagesTotal : Int := 0
  hugepagesFree : Int := 0
  diskIo : List DiskRate := []
  netIfaces : List NetRate := []
  disks : List DiskUse := []
  inodes : List InodeUse := []
  sockEstab : Int := 0
  sockTimewait : Int := 0
  fdAllocated : Int := 0
  fdMax : Int := 0
  pidMax : Int := 0
  gpuDriver : Text := []
  gpus : List PolledGpu := []
  processes : List Process := []
  users : List Text := []
  kernelLog : Text := []

/-- `int(_to_float(uptime[0])) if uptime else 0`. -/
def uptimeOf (text : Text) : Option Int :=
  match words text with
  | [] => some 0
  | uptime :: _ => toInt? uptime

def withLoad (text : Text) (r : MetricResult) : MetricResult :=
  match words text with
  | one :: five :: fifteen :: _ =>
    { r with load1 := toFloat one, load5 := toFloat five, load15 := toFloat fifteen }
  | _ => r

/-- The names of the host, its clock and its load. -/
def readHost (sec : Dict Text Text) (host : Text) (r : MetricResult) : Option MetricResult := do
  let hostname ← firstLine (textOf sec "HOSTNAME" [])
  let os ← firstLine (textOf sec "OS" [])
  let kernel ← firstLine (textOf sec "KERNEL" [])
  let bootId ← firstLine (textOf sec "BOOTID" [])
  let hostTs ← intLine? (textOf sec "DATETIME" "0")
  let uptimeSeconds ← uptimeOf (textOf sec "UPTIME" [])
  some (withLoad (textOf sec "LOADAVG" [])
    { r with
      hostname := if hostname ≠ [] then hostname else host
      os, kernel, bootId, hostTs, uptimeSeconds })

/-- `round(sum(freqs) / len(freqs)) if freqs else 0.0`, over the cores that have a frequency. -/
def freqAvg (cores : List Core) : Option Int :=
  let freqs := (cores.map Core.freqMhz).filter (0 < ·)
  if freqs ≠ [] then average? freqs else some 0

def readCpu (sec : Dict Text Text) (r : MetricResult) : Option MetricResult := do
  let cpuModel ← firstLine (textOf sec "CPUMODEL" [])
  let cpuCount ← intLine? (textOf sec "CPUCOUNT" "0")
  let cpu ← parseCpu (textOf sec "CPUSTAT1" []) (textOf sec "CPUSTAT2" [])
    (textOf sec "CPUFREQ" []) (textOf sec "CPUTEMP" []) cpuCount
  let cpuFreqAvg ← freqAvg cpu.cores
  some
    { r with
      cpuModel := cpuModel.take 120
      cpuCount
      cpuPercent := cpu.overall
      cpuIowait := cpu.iowait
      cores := cpu.cores
      cpuTempPackage := cpu.packageTemp
      cpuFreqAvg }

/-- `int(info.get(key, 0))`. -/
def pagesOf (info : Dict Text PyFloat) (key : Text) : Option Int :=
  ((info.get? key).getD 0).truncate?

def readMemory (sec : Dict Text Text) (r : MetricResult) : Option MetricResult := do
  let info ← parseMeminfo (textOf sec "MEMINFO" [])
  let mem := memory info
  let hugepagesTotal ← pagesOf info "HugePages_Total"
  let hugepagesFree ← pagesOf info "HugePages_Free"
  some
    { r with
      memTotalMb := roundDigits 1 mem.totalMb
      memUsedMb := roundDigits 1 mem.usedMb
      memAvailableMb := roundDigits 1 mem.availableMb
      memCachedMb := roundDigits 1 mem.cachedMb
      swapTotalMb := roundDigits 1 mem.swapTotalMb
      swapUsedMb := roundDigits 1 mem.swapUsedMb
      hugepagesTotal
      hugepagesFree }

/-- Disks, interfaces and file systems; the snapshots are a second apart. -/
def readDevices (sec : Dict Text Text) (r : MetricResult) : Option MetricResult := do
  let disks1 ← parseDiskstats (textOf sec "DISKSTATS1" [])
  let disks2 ← parseDiskstats (textOf sec "DISKSTATS2" [])
  let link2 ← parseNetlink (textOf sec "NETLINK2" [])
  let net1 ← parseNetdev (textOf sec "NETDEV1" [])
  let net2 ← parseNetdev (textOf sec "NETDEV2" [])
  let disks ← parseDf (textOf sec "DF" [])
  let inodes ← parseDfi (textOf sec "DFI" [])
  some
    { r with
      diskIo := diskRates disks1 disks2 1
      netIfaces := netRates net1 net2 1 link2
      disks
      inodes }

/-- `2**63 - 1`. -/
def maxInt64 : Int := 2 ^ 63 - 1

def withFiles (text : Text) (r : MetricResult) : Option MetricResult :=
  match words text with
  | allocated :: _ :: most :: _ => do
    let fdAllocated ← toInt? allocated
    let fdMax ← toInt? most
    some { r with fdAllocated := min fdAllocated maxInt64, fdMax := min fdMax maxInt64 }
  | _ => some r

/-- Sockets, open files and process numbers. -/
def readLimits (alnum : Char → Bool) (sec : Dict Text Text) (r : MetricResult) :
    Option MetricResult := do
  let sock ← parseSockstat alnum (textOf sec "SOCKETS" [])
  let r ← withFiles (textOf sec "FDNR" [])
    { r with sockEstab := sock.estab, sockTimewait := sock.timewait }
  let pidMax ← intLine? (textOf sec "PIDMAX" "0")
  some { r with pidMax }

/-- The processes; who is logged in is not kept. -/
def readProcesses (sec : Dict Text Text) (r : MetricResult) : Option MetricResult := do
  let processes ← parsePs (textOf sec "PS" []) 500 false
  some { r with processes, users := [], kernelLog := textOf sec "KLOG" [] }

def readGpus (sec : Dict Text Text) (r : MetricResult) : Option MetricResult := do
  let (gpus, gpuDriver) ← parseGpus (textOf sec "GPU" [])
  let psIndex := Dict.ofList (r.processes.map fun p => (p.pid, p))
  let gpus ← mergeGpuHealth (textOf sec "GPUHEALTH" []) gpus
  let gpus ← mergeGpuClocks (textOf sec "GPUCLOCK" []) gpus
  let gpus ← mergeGpuApps (textOf sec "GPUAPPS" []) (textOf sec "GPUAPPNAME" []) gpus psIndex
  some { r with gpus, gpuDriver }

/-- `_parse_fast_output`. -/
def parseFastOutput (alnum : Char → Bool) (out : Text) (result : MetricResult) (host : Text) :
    Option MetricResult := do
  let sec := splitSections out
  let result ← readHost sec host result
  let result ← readCpu sec result
  let result ← readMemory sec result
  let result ← readDevices sec result
  let result ← readLimits alnum sec result
  let result ← readProcesses sec result
  readGpus sec result

/-- The outcome of a poll in a `MetricResult`. -/
structure Outcome where
  ok : Bool
  errorCode : Text
  error : Text

/-- What `collect` makes of the output of the script and its exit code. -/
def collectOutcome (alnum : Char → Bool) (out : Text) (code : Int) (result : MetricResult)
    (host : Text) : Outcome :=
  if strip out = [] then
    { ok := false, errorCode := "COLLECT_FAILED"
      error := "remote collector returned no usable output (exit ".toList ++ intText code ++ [')'] }
  else
    match parseFastOutput alnum out result host with
    | none =>
      { ok := false, errorCode := "COLLECT_FAILED"
        error := "remote collector output could not be parsed" }
    | some _ => { ok := true, errorCode := "OK", error := [] }

/-! ## What its parts ask of the text -/

/-- The first word is a finite number. -/
def UptimeReadable (text : Text) : Prop := ∀ uptime, (words text)[0]? = some uptime → IsNumber uptime

theorem isSome_uptimeOf_iff {text : Text} :
    (uptimeOf text).isSome = true ↔ UptimeReadable text := by
  rw [uptimeOf, UptimeReadable]
  cases words text with
  | nil => simp
  | cons uptime rest => simp [isSome_toInt?]

@[mk_iff]
structure HostReadable (sec : Dict Text Text) : Prop where
  datetime : FirstLineReadable (textOf sec "DATETIME" "0")
  uptime : UptimeReadable (textOf sec "UPTIME" [])

theorem isSome_readHost_iff (sec : Dict Text Text) (host : Text) (r : MetricResult) :
    (readHost sec host r).isSome = true ↔ HostReadable sec := by
  rw [readHost, hostReadable_iff, ← isSome_intLine?_iff, ← isSome_uptimeOf_iff]
  -- the four names
  iterate 4
    refine (isSome_bind_of_forall fun _ _ => ?_).trans (and_iff_right (isSome_firstLine _))
  refine isSome_bind_of_forall fun hostTs _ => ?_
  exact (isSome_bind_of_forall fun _ _ => iff_of_true rfl trivial).trans (iff_of_eq (and_true _))

/-- The frequencies are in range, and so is their average. -/
theorem isSome_freqAvg {s1 s2 freqText tempText : Text} {count : Int} {cpu : Cpu}
    (h : parseCpu s1 s2 freqText tempText count = some cpu) :
    (freqAvg cpu.cores).isSome = true := by
  rw [freqAvg]
  split
  · rename_i hSome
    refine isSome_average? hSome (fun n hn => ?_) fun n hn => ?_
    · exact of_decide_eq_true (List.mem_filter.mp hn).2
    · obtain ⟨core, hCore, rfl⟩ := List.mem_map.mp (List.mem_filter.mp hn).1
      exact freqMhz_le_greatest h hCore
  · rfl

@[mk_iff]
structure CoresReadable (sec : Dict Text Text) : Prop where
  cpuCount : FirstLineReadable (textOf sec "CPUCOUNT" "0")
  cpu : ∀ count, intLine? (textOf sec "CPUCOUNT" "0") = some count →
    CpuReadable (textOf sec "CPUSTAT1" []) (textOf sec "CPUSTAT2" [])
      (textOf sec "CPUFREQ" []) (textOf sec "CPUTEMP" []) count

theorem isSome_readCpu_iff (sec : Dict Text Text) (r : MetricResult) :
    (readCpu sec r).isSome = true ↔ CoresReadable sec := by
  rw [readCpu, coresReadable_iff, ← isSome_intLine?_iff]
  refine (isSome_bind_of_forall fun model _ => ?_).trans (and_iff_right (isSome_firstLine _))
  refine isSome_bind_of_forall fun count hCount => ?_
  simp only [hCount, Option.some.injEq, forall_eq']
  rw [← isSome_parseCpu_iff]
  refine (isSome_bind_of_forall fun cpu hCpu => ?_).trans (iff_of_eq (and_true _))
  exact (isSome_bind_of_forall fun _ _ => iff_of_true rfl trivial).trans
    (and_iff_left trivial |>.trans (iff_of_true (isSome_freqAvg hCpu) trivial))

/-- The counts of huge pages are finite numbers. -/
def PagesReadable (text : Text) : Prop :=
  ∀ info, parseMeminfo text = some info → ∀ key ∈ [("HugePages_Total" : Text), "HugePages_Free"],
    ∀ pages, info.get? key = some pages → pages.isFinite = true

theorem isSome_pagesOf_iff {info : Dict Text PyFloat} {key : Text} :
    (pagesOf info key).isSome = true ↔
      ∀ pages, info.get? key = some pages → pages.isFinite = true := by
  rw [pagesOf, isSome_truncate?]
  cases hPages : info.get? key with
  | none => exact iff_of_true rfl fun pages h => nomatch h
  | some pages => simp

theorem isSome_readMemory_iff (sec : Dict Text Text) (r : MetricResult) :
    (readMemory sec r).isSome = true ↔ PagesReadable (textOf sec "MEMINFO" []) := by
  rw [readMemory, PagesReadable]
  refine (isSome_bind_of_forall fun info hInfo => ?_).trans
    (and_iff_right (isSome_parseMeminfo _))
  simp only [hInfo, Option.some.injEq, forall_eq', List.forall_mem_cons, List.not_mem_nil,
    false_implies, implies_true, and_true, ← isSome_pagesOf_iff]
  refine isSome_bind_of_forall fun total _ => ?_
  exact (isSome_bind_of_forall fun _ _ => iff_of_true rfl trivial).trans (iff_of_eq (and_true _))

@[mk_iff]
structure DevicesReadable (sec : Dict Text Text) : Prop where
  links : ∀ line ∈ splitlines (textOf sec "NETLINK2" []), NetlinkReadable line
  inodes : InodesReadable [] ((tableRows (textOf sec "DFI" [])).filterMap inodeRow?)

theorem isSome_readDevices_iff (sec : Dict Text Text) (r : MetricResult) :
    (readDevices sec r).isSome = true ↔ DevicesReadable sec := by
  rw [readDevices, devicesReadable_iff, ← isSome_parseNetlink_iff, ← isSome_parseDfi_iff]
  refine (isSome_bind_of_forall fun _ _ => ?_).trans (and_iff_right (isSome_parseDiskstats _))
  refine (isSome_bind_of_forall fun _ _ => ?_).trans (and_iff_right (isSome_parseDiskstats _))
  refine isSome_bind_of_forall fun link _ => ?_
  refine (isSome_bind_of_forall fun _ _ => ?_).trans (and_iff_right (isSome_parseNetdev _))
  refine (isSome_bind_of_forall fun _ _ => ?_).trans (and_iff_right (isSome_parseNetdev _))
  refine (isSome_bind_of_forall fun _ _ => ?_).trans (and_iff_right (isSome_parseDf _))
  exact (isSome_bind_of_forall fun _ _ => iff_of_true rfl trivial).trans (iff_of_eq (and_true _))

/-- The first and the third of three words are finite numbers. -/
def FilesReadable (text : Text) : Prop :=
  ∀ allocated free most rest, words text = allocated :: free :: most :: rest →
    IsNumber allocated ∧ IsNumber most

theorem isSome_withFiles_iff (text : Text) (r : MetricResult) :
    (withFiles text r).isSome = true ↔ FilesReadable text := by
  rw [withFiles, FilesReadable]
  split
  · rename_i allocated free most rest hWords
    rw [hWords]
    simp only [List.cons.injEq, and_imp, ← isSome_toInt?]
    constructor
    · rintro h _ _ _ _ rfl rfl rfl rfl
      cases hAllocated : toInt? allocated <;> cases hMost : toInt? most <;> simp_all
    · intro h
      obtain ⟨hAllocated, hMost⟩ := h allocated free most rest rfl rfl rfl rfl
      obtain ⟨_, hAllocated⟩ := Option.isSome_iff_exists.mp hAllocated
      obtain ⟨_, hMost⟩ := Option.isSome_iff_exists.mp hMost
      simp [hAllocated, hMost]
  · rename_i hShort
    exact iff_of_true rfl fun allocated free most rest hWords =>
      (hShort allocated free most rest hWords).elim

@[mk_iff]
structure LimitsReadable (alnum : Char → Bool) (sec : Dict Text Text) : Prop where
  sockets : ∀ line ∈ splitlines (textOf sec "SOCKETS" []), SockReadable alnum line
  files : FilesReadable (textOf sec "FDNR" [])
  pidMax : FirstLineReadable (textOf sec "PIDMAX" "0")

theorem isSome_readLimits_iff (alnum : Char → Bool) (sec : Dict Text Text) (r : MetricResult) :
    (readLimits alnum sec r).isSome = true ↔ LimitsReadable alnum sec := by
  rw [readLimits, limitsReadable_iff, ← isSome_parseSockstat_iff, ← isSome_intLine?_iff]
  refine isSome_bind_of_forall fun sock _ => ?_
  rw [← isSome_withFiles_iff _ { r with sockEstab := sock.estab, sockTimewait := sock.timewait }]
  refine isSome_bind_of_forall fun r _ => ?_
  exact (isSome_bind_of_forall fun _ _ => iff_of_true rfl trivial).trans (iff_of_eq (and_true _))

/-- So many processes are read, and no further rows. -/
def ProcessesReadable (text : Text) : Prop :=
  ∀ line ∈ ((psLines text).filter isProcessRow).take 500, AgeReadable line

theorem isSome_readProcesses_iff (sec : Dict Text Text) (r : MetricResult) :
    (readProcesses sec r).isSome = true ↔ ProcessesReadable (textOf sec "PS" []) := by
  rw [readProcesses, ProcessesReadable, ← isSome_parsePs_iff _ (by decide)]
  exact (isSome_bind_of_forall fun _ _ => iff_of_true rfl trivial).trans (iff_of_eq (and_true _))

@[mk_iff]
structure CardsReadable (sec : Dict Text Text) : Prop where
  gpus : GpusReadable (textOf sec "GPU" [])
  health : strip (textOf sec "GPUHEALTH" []) ≠ [] →
    ∀ line ∈ splitlines (textOf sec "GPUHEALTH" []),
      HealthReadable (knownCards (textOf sec "GPU" [])) line
  clocks : strip (textOf sec "GPUCLOCK" []) ≠ [] →
    ∀ line ∈ splitlines (textOf sec "GPUCLOCK" []),
      ClockReadable (knownCards (textOf sec "GPU" [])) line
  names : ∀ line ∈ splitlines (textOf sec "GPUAPPNAME" []), NameReadable line
  apps : ∀ line ∈ splitlines (textOf sec "GPUAPPS" []), AppReadable line

theorem isSome_readGpus_iff (sec : Dict Text Text) (r : MetricResult) :
    (readGpus sec r).isSome = true ↔ CardsReadable sec := by
  rw [readGpus, cardsReadable_iff, ← isSome_parseGpus_iff]
  refine isSome_bind_of_forall fun cards hCards => ?_
  obtain ⟨gpus, driver⟩ := cards
  rw [← indices_parseGpus hCards, ← isSome_mergeGpuHealth_iff]
  refine isSome_bind_of_forall fun checked hHealth => ?_
  rw [← indices_mergeGpuHealth hHealth, ← isSome_mergeGpuClocks_iff]
  refine isSome_bind_of_forall fun clocked _ => ?_
  rw [← isSome_mergeGpuApps_iff _ _ clocked (Dict.ofList (r.processes.map fun p => (p.pid, p)))]
  exact (isSome_bind_of_forall fun _ _ => iff_of_true rfl trivial).trans (iff_of_eq (and_true _))

/-! ## The whole output -/

/-- What the sections must hold for the output to be parsed. -/
@[mk_iff]
structure Readable (alnum : Char → Bool) (sec : Dict Text Text) : Prop where
  host : HostReadable sec
  cores : CoresReadable sec
  memory : PagesReadable (textOf sec "MEMINFO" [])
  devices : DevicesReadable sec
  limits : LimitsReadable alnum sec
  processes : ProcessesReadable (textOf sec "PS" [])
  cards : CardsReadable sec

theorem isSome_parseFastOutput_iff (alnum : Char → Bool) (out : Text) (result : MetricResult)
    (host : Text) : (parseFastOutput alnum out result host).isSome = true ↔
      Readable alnum (splitSections out) := by
  rw [parseFastOutput, readable_iff, ← isSome_readHost_iff _ host result]
  refine isSome_bind_of_forall fun result _ => ?_
  rw [← isSome_readCpu_iff _ result]
  refine isSome_bind_of_forall fun result _ => ?_
  rw [← isSome_readMemory_iff _ result]
  refine isSome_bind_of_forall fun result _ => ?_
  rw [← isSome_readDevices_iff _ result]
  refine isSome_bind_of_forall fun result _ => ?_
  rw [← isSome_readLimits_iff _ _ result]
  refine isSome_bind_of_forall fun result _ => ?_
  rw [← isSome_readProcesses_iff _ result]
  refine isSome_bind_of_forall fun result _ => ?_
  exact isSome_readGpus_iff _ result

theorem collectOutcome_failed_iff (alnum : Char → Bool) (out : Text) (code : Int)
    (result : MetricResult) (host : Text) :
    (collectOutcome alnum out code result host).errorCode = "COLLECT_FAILED" ↔
      strip out = [] ∨ ¬Readable alnum (splitSections out) := by
  rw [collectOutcome, ← isSome_parseFastOutput_iff alnum out result host]
  split
  · rename_i hBlank
    exact iff_of_true rfl (.inl hBlank)
  · rename_i hText
    rw [or_iff_right hText]
    cases hParse : parseFastOutput alnum out result host with
    | none => simp
    | some result =>
      have hCode : ("OK" : Text) ≠ "COLLECT_FAILED" := by decide
      exact iff_of_false hCode (by simp)

/-- The output of a poll is parsed without an exception just when every section is readable, and
the host is reported as one that could not be collected for every other output. -/
theorem fast_output_parsed_iff (alnum : Char → Bool) (out : Text) (code : Int)
    (result : MetricResult) (host : Text) :
    ((parseFastOutput alnum out result host).isSome = true ↔ Readable alnum (splitSections out)) ∧
      ((collectOutcome alnum out code result host).errorCode = "COLLECT_FAILED" ↔
        strip out = [] ∨ ¬Readable alnum (splitSections out)) :=
  ⟨isSome_parseFastOutput_iff alnum out result host,
    collectOutcome_failed_iff alnum out code result host⟩

/-- A name that is missing, a line cut short and a number that is infinite. -/
theorem defective_section_raises :
    (parseFastOutput (fun _ => false) "==GPUAPPNAME==\n12," {} "node1").isSome = false ∧
      (parseFastOutput (fun _ => false) "==CPUSTAT1==\ncpu 10\n==CPUSTAT2==\ncpu 20" {}
        "node1").isSome = false ∧
      (parseFastOutput (fun _ => false) "==UPTIME==\ninf" {} "node1").isSome = false ∧
      (collectOutcome (fun _ => false) "==UPTIME==\ninf" 0 {} "node1").errorCode =
        "COLLECT_FAILED" := by
  decide +kernel

end GpuMon.Collector

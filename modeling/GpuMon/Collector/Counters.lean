import GpuMon.Collector.Text

/-!
# Memory, disks and interfaces (`ssh_collector.py`)

* `isSome_parseMeminfo`, `isSome_parseDiskstats`, `isSome_parseNetdev`: these parsers do not raise.
* `isSome_parseNetlink_iff`: the links do, over a speed that `int` does not accept.
-/

namespace GpuMon.Collector

open PyText PyFloat BatchLoop

/-! ## Memory -/

/-- `_parse_meminfo`. -/
def parseMeminfo (text : Text) : Option (Dict Text PyFloat) :=
  (splitlines text).foldlM (fun info line =>
    let parts := splitMax ':' 1 line
    if parts.length ≠ 2 then some info
    else do
      let key := strip (← parts[0]?)
      let rest := strip (← parts[1]?)
      let val : Text ← if rest ≠ [] then (words rest)[0]? else some "0".toList
      some (info.set key (toFloat val))) .empty

structure Memory where
  totalMb : PyFloat
  usedMb : PyFloat
  availableMb : PyFloat
  cachedMb : PyFloat
  swapTotalMb : PyFloat
  swapUsedMb : PyFloat

/-- `_memory`. -/
def memory (info : Dict Text PyFloat) : Memory :=
  let get (key : Text) := (info.get? key).getD 0
  let available :=
    match info.get? "MemAvailable" with
    | some available => available
    | none =>
      let cached := sub (add (get "Cached") (get "SReclaimable")) (get "Shmem")
      add (add (get "MemFree") (get "Buffers")) (maxOf 0 cached)
  { totalMb := divBy 1024 (get "MemTotal")
    usedMb := divBy 1024 (maxOf 0 (sub (get "MemTotal") available))
    availableMb := divBy 1024 available
    cachedMb := divBy 1024 (add (add (get "Buffers") (get "Cached")) (get "SReclaimable"))
    swapTotalMb := divBy 1024 (get "SwapTotal")
    swapUsedMb := divBy 1024 (maxOf 0 (sub (get "SwapTotal") (get "SwapFree"))) }

/-! ## Disks and interfaces -/

structure DiskCounters where
  reads : PyFloat
  sectorsRead : PyFloat
  writes : PyFloat
  sectorsWritten : PyFloat
  ioMs : PyFloat

/-- `_parse_diskstats`. -/
def parseDiskstats (text : Text) : Option (Dict Text DiskCounters) :=
  (splitlines text).foldlM (fun out line =>
    let parts := words line
    if parts.length < 14 then some out
    else do
      let name ← parts[2]?
      let counters : DiskCounters :=
        { reads := toFloat (← parts[3]?)
          sectorsRead := toFloat (← parts[5]?)
          writes := toFloat (← parts[7]?)
          sectorsWritten := toFloat (← parts[9]?)
          ioMs := ← if 13 < parts.length then parts[13]?.map toFloat else some 0 }
      some (out.set name counters)) .empty

/-- `_SKIP_DISK.match(name)`. -/
def skipDisk (name : Text) : Bool :=
  let numbered (start : Text) := startsWith name start && (name.drop start.length).head?.any isDecimal
  ([("loop" : Text), "ram", "sr", "fd", "zram"].any fun start => startsWith name start) ||
    numbered "dm-" || numbered "md"

structure DiskRate where
  device : Text
  readBps : PyFloat
  writeBps : PyFloat
  readIops : PyFloat
  writeIops : PyFloat
  busyPercent : PyFloat

/-- The entry of a disk; the window is a number of the format and not zero. -/
def diskRate (window : ℚ) (name : Text) (a b : DiskCounters) : Option DiskRate :=
  let readBps := maxOf 0 (divBy window (mul (sub b.sectorsRead a.sectorsRead) (finite 512)))
  let writeBps := maxOf 0 (divBy window (mul (sub b.sectorsWritten a.sectorsWritten) (finite 512)))
  let readIops := maxOf 0 (divBy window (sub b.reads a.reads))
  let writeIops := maxOf 0 (divBy window (sub b.writes a.writes))
  let busyMs := maxOf 0 (sub b.ioMs a.ioMs)
  let windowMs := mul (finite window) (finite 1000)
  let busyPercent := minOf (finite 100) (mul (div busyMs windowMs) (finite 100))
  if lt readBps (finite 1) ∧ lt writeBps (finite 1) ∧ lt busyPercent (finite (1 / 2)) then none
  else some
    { device := name
      readBps := roundDigits 1 readBps
      writeBps := roundDigits 1 writeBps
      readIops := roundDigits 1 readIops
      writeIops := roundDigits 1 writeIops
      busyPercent := roundDigits 1 busyPercent }

/-- `_disk_rates`; nothing is kept of a device that is idle. -/
def diskRates (d1 d2 : Dict Text DiskCounters) (window : ℚ) : List DiskRate :=
  let devices := d2.keys.filter fun n => d1.contains n && !skipDisk n
  ((devices.insertionSort (· ≤ ·)).take 16).filterMap fun name => do
    diskRate window name (← d1.get? name) (← d2.get? name)

structure NetCounters where
  rxBytes : PyFloat
  rxErr : PyFloat
  rxDrop : PyFloat
  txBytes : PyFloat
  txErr : PyFloat
  txDrop : PyFloat

/-- `_parse_netdev`. -/
def parseNetdev (text : Text) : Option (Dict Text NetCounters) :=
  (splitlines text).foldlM (fun out line =>
    if ':' ∉ line then some out
    else do
      let iface := strip (← (splitMax ':' 1 line)[0]?)
      let rest ← (splitMax ':' 1 line)[1]?
      if iface = ("lo" : Text) then some out
      else
        let parts := words rest
        if parts.length < 16 then some out
        else do
          let counters : NetCounters :=
            { rxBytes := toFloat (← parts[0]?)
              rxErr := toFloat (← parts[2]?)
              rxDrop := toFloat (← parts[3]?)
              txBytes := toFloat (← parts[8]?)
              txErr := toFloat (← parts[10]?)
              txDrop := toFloat (← parts[11]?) }
          some (out.set iface counters)) .empty

structure Link where
  state : Text := []
  carrier : Text := []
  speed : Int := 0

/-- `int(parts[3]) if len(parts) > 3 and parts[3].isdigit() else 0`. -/
def speedOf (parts : List Text) : Option Int :=
  if 3 < parts.length then
    parts[3]?.bind fun speed => if isDigitText speed then int? speed else some 0
  else some 0

def netlinkLine (out : Dict Text Link) (line : Text) : Option (Dict Text Link) :=
  let parts := words line
  if 3 ≤ parts.length then do
    let iface ← parts[0]?
    let state ← parts[1]?
    let carrier ← parts[2]?
    let speed ← speedOf parts
    some (out.set iface { state, carrier, speed })
  else some out

/-- `_parse_netlink`. -/
def parseNetlink (text : Text) : Option (Dict Text Link) :=
  (splitlines text).foldlM netlinkLine .empty

structure NetRate where
  iface : Text
  rxBps : PyFloat
  txBps : PyFloat
  rxErrRate : PyFloat
  rxDropRate : PyFloat
  txErrRate : PyFloat
  txDropRate : PyFloat
  operstate : Text
  speedMbps : Int

/-- Too little happened for the interface to be reported. -/
def isIdle (window : ℚ) (a b : NetCounters) : Bool :=
  lt (divBy window (sub b.rxBytes a.rxBytes)) (finite 1) &&
    lt (divBy window (sub b.txBytes a.txBytes)) (finite 1) &&
    sub b.rxErr a.rxErr = 0 && sub b.rxDrop a.rxDrop = 0 &&
    sub b.txErr a.txErr = 0 && sub b.txDrop a.txDrop = 0

/-- The entry of an interface that is reported. -/
def netRate (window : ℚ) (iface : Text) (a b : NetCounters) (link : Link) : NetRate where
  iface := iface
  rxBps := roundDigits 1 (divBy window (sub b.rxBytes a.rxBytes))
  txBps := roundDigits 1 (divBy window (sub b.txBytes a.txBytes))
  rxErrRate := roundDigits 3 (sub b.rxErr a.rxErr)
  rxDropRate := roundDigits 3 (sub b.rxDrop a.rxDrop)
  txErrRate := roundDigits 3 (sub b.txErr a.txErr)
  txDropRate := roundDigits 3 (sub b.txDrop a.txDrop)
  operstate := link.state
  speedMbps := link.speed

/-- `_net_rates`; both branches for an idle interface skip it. -/
def netRates (n1 n2 : Dict Text NetCounters) (window : ℚ) (link : Dict Text Link) : List NetRate :=
  (n2.keys.insertionSort (· ≤ ·)).filterMap fun iface => do
    let a ← n1.get? iface
    let b ← n2.get? iface
    if isIdle window a b then none
    else some (netRate window iface a b ((link.get? iface).getD {}))

/-- `net_rx_bytes` of the stored sample. -/
def netRxBytes (ifaces : List NetRate) : PyFloat := sum (ifaces.map NetRate.rxBps)

/-- `net_tx_bytes` of the stored sample. -/
def netTxBytes (ifaces : List NetRate) : PyFloat := sum (ifaces.map NetRate.txBps)

/-! ## What makes them raise -/

theorem isSome_parseMeminfo (text : Text) : (parseMeminfo text).isSome = true := by
  refine isSome_foldlM (fun info line => ?_) _ _
  dsimp only
  split
  · rfl
  · rename_i hParts
    have hLength : (splitMax ':' 1 line).length = 2 := by simpa using hParts
    rw [List.getElem?_eq_getElem (by omega), List.getElem?_eq_getElem (by omega)]
    simp only [Option.bind_eq_bind, Option.bind_some]
    split
    · rename_i hRest
      obtain ⟨val, hVal⟩ := Option.isSome_iff_exists.mp
        (isSome_getElem?_zero (words_ne_nil (by rwa [strip_strip])))
      rw [hVal]
      rfl
    · rfl

theorem isSome_parseDiskstats (text : Text) : (parseDiskstats text).isSome = true := by
  refine isSome_foldlM (fun out line => ?_) _ _
  dsimp only
  split
  · rfl
  · simp (disch := omega)
    split <;> rfl

theorem length_splitMax_one {sep : Char} {t : Text} (h : sep ∈ t) :
    (splitMax sep 1 t).length = 2 := by
  simp [splitMax, h]

theorem isSome_parseNetdev (text : Text) : (parseNetdev text).isSome = true := by
  refine isSome_foldlM (fun out line => ?_) _ _
  split
  · rfl
  · rename_i hColon
    have hLength := length_splitMax_one (not_not.mp hColon)
    rw [List.getElem?_eq_getElem (by omega), List.getElem?_eq_getElem (by omega)]
    simp only [Option.bind_eq_bind, Option.bind_some]
    split
    · rfl
    · split
      · rfl
      · simp (disch := omega)

/-- A speed of digits is one that `int` accepts. -/
def NetlinkReadable (line : Text) : Prop :=
  ∀ speed, (words line)[3]? = some speed → isDigitText speed = true → (int? speed).isSome = true

theorem isSome_netlinkLine_iff (out : Dict Text Link) (line : Text) :
    (netlinkLine out line).isSome = true ↔ NetlinkReadable line := by
  have hSpeed : (speedOf (words line)).isSome = true ↔ NetlinkReadable line := by
    rw [speedOf, NetlinkReadable]
    split
    · rename_i hLength
      rw [List.getElem?_eq_getElem hLength, Option.bind_some]
      split
      · rename_i hDigits
        simp [hDigits]
      · rename_i hDigits
        simp [hDigits]
    · rename_i hLength
      simp [List.getElem?_eq_none (not_lt.mp hLength)]
  rw [netlinkLine]
  split
  · rw [← hSpeed]
    simp (disch := omega)
    cases speedOf (words line) <;> rfl
  · rename_i hShort
    refine iff_of_true rfl fun speed hFourth => ?_
    rw [List.getElem?_eq_none (by omega)] at hFourth
    cases hFourth

theorem isSome_parseNetlink_iff (text : Text) :
    (parseNetlink text).isSome = true ↔ ∀ line ∈ splitlines text, NetlinkReadable line :=
  isSome_foldlM_forall_iff isSome_netlinkLine_iff _ _

end GpuMon.Collector

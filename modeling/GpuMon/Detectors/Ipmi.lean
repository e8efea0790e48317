import GpuMon.Detectors.OpenTexts
import GpuMon.Library.Dict
import GpuMon.Library.PyFloat
import GpuMon.Library.Runs

/-!
# Out-of-band events (`_store_ipmi`, `summarize`)

A cycle stores what a BMC has answered and raises the events of its detectors. The events of
`BMC_UNREACHABLE` and `CHASSIS_POWER_OFF` are closed by the same function; those of `PSU_FAULT`
are only ever opened, one for each bad sensor, with the name of the sensor as the key. A power
reading that `int` or `float` refuses ends the cycle before anything is stored.

* `psu_fault_iff_bad`: in every run, the open `PSU_FAULT` events after a cycle are those of the
  bad sensors exactly when every sensor in fault is bad again and no name is confused with
  another, or, where the power reading is refused, when the events are those already.
* `healed_supply_in_fault`: a power supply that is healthy again stays in fault.
-/

namespace GpuMon.Detectors

open PyText

/-! ## The answer of a BMC (`ipmi_collector.py`) -/

/-- A row of `sdr elist full`. -/
structure Sensor where
  name : Text
  status : Text := []
  deriving DecidableEq

/-- A row of `sel list`; a row that could not be split has no record. -/
structure SelEntry where
  record : Option Text := none
  event : Option Text := none
  deriving DecidableEq

/-- What `collect_ipmi` returns. `sensors` is `none` when the section was not read: the source
puts an empty list in its place. -/
structure IpmiResult where
  ok : Bool
  error : Text := []
  chassis : Dict Text Text := .empty
  power : Dict Text Text := .empty
  sensors : Option (List Sensor) := none
  sel : List SelEntry := []

/-- The number in front of the first `W` of a reading. -/
def wattsOf (v : Text) : Option Nat :=
  let digits := (v.takeWhile (· ≠ 'W')).filter isDigitChar
  if digits = [] then some 0 else intOfDigits digits

/-- The power reading, from the first key that names it. -/
def powerWatts (power : Dict Text Text) : Option Nat :=
  match power.entries.find? fun kv =>
      contains "instantaneous" (lower kv.1) && contains "power" (lower kv.1) with
  | none => some 0
  | some kv => wattsOf kv.2

/-- The last key that names the system power decides. -/
def powerOn (chassis : Dict Text Text) : Bool :=
  chassis.entries.foldl
    (fun on kv => if contains "system power" (lower kv.1) then lower (strip kv.2) = "on" else on)
    false

/-- `s.get("status") not in ("ok", "")`. -/
def Sensor.abnormal (s : Sensor) : Bool := s.status ≠ "ok" && s.status ≠ []

/-- Whether one of the words is in the lower-case text. -/
def mentions (words : List Text) (t : Text) : Bool := words.any fun w => contains w (lower t)

def psuWords : List Text := ["ps", "psu", "power supply"]

def criticalWords : List Text :=
  ["uncorrectable", "critical", "failure", "failed", "fatal", "non-recoverable", "ierr",
    "machine check"]

/-- The names of the abnormal sensors of power supplies. -/
def psuBad (sensors : List Sensor) : List Text :=
  (sensors.filter fun s => s.abnormal && mentions psuWords s.name).map Sensor.name

def fanBad (sensors : List Sensor) : List Text :=
  (sensors.filter fun s => s.abnormal && mentions ["fan"] s.name).map Sensor.name

/-- What `summarize` returns. -/
structure Summary where
  powerW : Nat
  powerOn : Bool
  psuBad : List Text
  fanBad : List Text
  selCritical : List SelEntry

/-- `summarize`; `none` when the power reading is not a number for `int`. -/
def summarize (res : IpmiResult) : Option Summary :=
  (powerWatts res.power).map fun watts =>
    { powerW := watts
      powerOn := powerOn res.chassis
      psuBad := psuBad (res.sensors.getD [])
      fanBad := fanBad (res.sensors.getD [])
      selCritical := res.sel.filter fun e => mentions criticalWords (e.event.getD []) }

/-! ## `_store_ipmi` -/

def psuMessage (psu : Text) : Text := "电源传感器异常：".toList ++ psu

def firePsu (env : Environment) (serverId : Nat) (serverName : Text) (events : Table AlertEvent)
    (psu : Text) : Table AlertEvent :=
  fire env events "PSU_FAULT" serverId serverName (psuMessage psu) 0 0 psu

def selKey (e : SelEntry) : Text :=
  e.record.getD [] ++ '-' :: (e.event.getD []).take 40

def fireSel (env : Environment) (serverId : Nat) (serverName : Text) (events : Table AlertEvent)
    (e : SelEntry) : Table AlertEvent :=
  fire env events "SEL_CRITICAL" serverId serverName ((e.event.getD []).take 200) 0 0 (selKey e)

def chassisEvents (env : Environment) (serverId : Nat) (serverName : Text) (isOn : Bool)
    (events : Table AlertEvent) : Table AlertEvent :=
  if isOn then recover env events "CHASSIS_POWER_OFF" serverId []
  else fire env events "CHASSIS_POWER_OFF" serverId serverName "BMC 报告机箱电源处于关闭状态" 0 0 []

/-- A cycle of one server, with its clock. -/
structure IpmiCycle where
  env : Environment
  serverId : Nat
  serverName : Text := []
  result : IpmiResult

/-- The summary of a row that is stored: `float(s["power_w"])` may raise an `OverflowError`; the
columns of SQLite take any other number. -/
def storedSummary (res : IpmiResult) : Option Summary :=
  (summarize res).filter fun s => (s.powerW : ℚ) < PyFloat.overflow

/-- `_store_ipmi` on the events; `none` when it raises before anything is stored. -/
def storeIpmi (events : Table AlertEvent) (c : IpmiCycle) : Option (Table AlertEvent) :=
  (storedSummary c.result).map fun s =>
    if !c.result.ok then
      fire c.env events "BMC_UNREACHABLE" c.serverId c.serverName
        ("BMC 连接失败：".toList ++ c.result.error.take 150) 0 0 []
    else
      let reachable := recover c.env events "BMC_UNREACHABLE" c.serverId []
      let powered := chassisEvents c.env c.serverId c.serverName s.powerOn reachable
      let supplied := s.psuBad.foldl (firePsu c.env c.serverId c.serverName) powered
      (s.selCritical.drop (s.selCritical.length - 3)).foldl
        (fireSel c.env c.serverId c.serverName) supplied

/-- The events after a cycle; one that has raised leaves them as they were. -/
def afterCycle (events : Table AlertEvent) (c : IpmiCycle) : Table AlertEvent :=
  (storeIpmi events c).getD events

/-- `int` or `float` refuses the power reading. -/
def PowerRefused (power : Dict Text Text) : Prop :=
  ∀ watts, powerWatts power = some watts → PyFloat.overflow ≤ watts

theorem storedSummary_eq_none_iff {res : IpmiResult} :
    storedSummary res = none ↔ PowerRefused res.power := by
  unfold storedSummary summarize PowerRefused
  cases powerWatts res.power with
  | none => simp
  | some watts => simp [Option.filter_some]

theorem not_powerRefused_empty : ¬ PowerRefused .empty := by
  intro h
  exact absurd (h 0 rfl) (by decide +kernel)

theorem summarize_of_stored {res : IpmiResult} {s : Summary} (h : storedSummary res = some s) :
    summarize res = some s :=
  (Option.filter_eq_some_iff.mp h).1

theorem storeIpmi_of_refused (events : Table AlertEvent) {c : IpmiCycle}
    (h : PowerRefused c.result.power) : storeIpmi events c = none := by
  rw [storeIpmi, storedSummary_eq_none_iff.mpr h, Option.map_none]

theorem exists_store_of_not_refused (events : Table AlertEvent) {c : IpmiCycle}
    (h : ¬ PowerRefused c.result.power) :
    ∃ events', storeIpmi events c = some events' ∧ afterCycle events c = events' := by
  cases hStore : storeIpmi events c with
  | none =>
    exact absurd (storedSummary_eq_none_iff.mp (Option.map_eq_none_iff.mp hStore)) h
  | some events' => exact ⟨events', rfl, by rw [afterCycle, hStore, Option.getD_some]⟩

/-! ## The events of the power supplies -/

/-- An open `PSU_FAULT` event keyed by a sensor. -/
def InFault (events : Table AlertEvent) (serverId : Nat) (psu : Text) : Prop :=
  ∃ ev ∈ events.rows, FiredWith "PSU_FAULT" serverId psu (psuMessage psu) ev

theorem inFault_iff {events : Table AlertEvent} {serverId : Nat} {psu : Text} :
    InFault events serverId psu ↔
      textOf psuMessage psu ∈ openTexts events "PSU_FAULT" serverId := by
  simp only [openTexts, List.mem_map, List.mem_filter, isOpenOf_iff]
  constructor
  · rintro ⟨ev, hev, hFired⟩
    exact ⟨ev, ⟨hev, hFired.ruleId, hFired.metric, hFired.server, hFired.isOpen⟩, hFired.text⟩
  · rintro ⟨ev, ⟨hev, hRule, hMetric, hServer, hOpen⟩, hText⟩
    exact ⟨ev, hev, hRule, hMetric, hServer, hText, hOpen⟩

theorem textOf_psu_injective : Function.Injective (textOf psuMessage) := by
  intro psu other h
  have hLength : ∀ name, (textOf psuMessage name).length =
      if name = [] then 8 else 11 + 2 * name.length := by
    intro name
    unfold textOf keyedMessage psuMessage keyText
    split
    · rename_i hNil
      rw [hNil]
      decide
    · simp
      omega
  have hSame := congrArg List.length h
  rw [hLength, hLength] at hSame
  by_cases hNil : psu = []
  · by_cases hNil' : other = []
    · rw [hNil, hNil']
    · rw [if_pos hNil, if_neg hNil'] at hSame
      omega
  · by_cases hNil' : other = []
    · rw [if_neg hNil, if_pos hNil'] at hSame
      omega
    · rw [if_neg hNil, if_neg hNil'] at hSame
      unfold textOf keyedMessage keyText at h
      rw [if_neg hNil, if_neg hNil'] at h
      simp only [List.cons_append, List.append_assoc] at h
      exact (List.append_inj (List.cons.inj h).2 (by omega)).1

/-- The open events of power supplies carry their keys. -/
def SupplyKeys (events : Table AlertEvent) (serverId : Nat) (keys : List Text) : Prop :=
  openTexts events "PSU_FAULT" serverId = keys.map (textOf psuMessage)

theorem SupplyKeys.inFault_iff {events : Table AlertEvent} {serverId : Nat} {keys : List Text}
    (hKeys : SupplyKeys events serverId keys) {psu : Text} :
    InFault events serverId psu ↔ psu ∈ keys := by
  rw [Detectors.inFault_iff, hKeys, List.mem_map_of_injective textOf_psu_injective]

section Store

variable {env : Environment} {events : Table AlertEvent} {serverId : Nat} {serverName : Text}

theorem SupplyKeys.firePsu {keys : List Text} (hKeys : SupplyKeys events serverId keys)
    (psus : List Text) : SupplyKeys (psus.foldl (firePsu env serverId serverName) events) serverId
      (psus.foldl (fireKey psuMessage) keys) := by
  induction psus generalizing events keys with
  | nil => exact hKeys
  | cons psu psus ih =>
    refine ih ?_
    unfold SupplyKeys Detectors.firePsu
    rw [openTexts_fire, hKeys, fireText_map]

theorem openTexts_firePsu_of_ne {other : Nat} (hOther : other ≠ serverId) (psus : List Text) :
    openTexts (psus.foldl (firePsu env serverId serverName) events) "PSU_FAULT" other =
      openTexts events "PSU_FAULT" other := by
  induction psus generalizing events with
  | nil => rfl
  | cons psu psus ih => exact ih.trans (openTexts_fire_of_ne (.inr hOther))

theorem openTexts_fireSel (other : Nat) (entries : List SelEntry) :
    openTexts (entries.foldl (fireSel env serverId serverName) events) "PSU_FAULT" other =
      openTexts events "PSU_FAULT" other := by
  induction entries generalizing events with
  | nil => rfl
  | cons e entries ih => exact ih.trans (openTexts_fire_of_ne (.inl (by decide)))

theorem openTexts_chassisEvents (other : Nat) (isOn : Bool) :
    openTexts (chassisEvents env serverId serverName isOn events) "PSU_FAULT" other =
      openTexts events "PSU_FAULT" other := by
  unfold chassisEvents
  split
  · exact openTexts_recover_of_ne (.inl (by decide))
  · exact openTexts_fire_of_ne (.inl (by decide))

end Store

/-- The bad supplies of a cycle that raises alarms. -/
def alarmsOf (c : IpmiCycle) : List Text :=
  if c.result.ok then psuBad (c.result.sensors.getD []) else []

theorem supplyKeys_of_store {events events' : Table AlertEvent} {c : IpmiCycle}
    (hStore : storeIpmi events c = some events') {keys : List Text}
    (hKeys : SupplyKeys events c.serverId keys) :
    SupplyKeys events' c.serverId ((alarmsOf c).foldl (fireKey psuMessage) keys) := by
  obtain ⟨s, hStored, rfl⟩ := Option.map_eq_some_iff.mp hStore
  obtain ⟨watts, -, rfl⟩ := Option.map_eq_some_iff.mp (summarize_of_stored hStored)
  unfold alarmsOf
  cases hOk : c.result.ok with
  | false =>
    change openTexts (fire _ _ _ _ _ _ _ _ _) _ _ = _
    rw [openTexts_fire_of_ne (.inl (by decide))]
    exact hKeys
  | true =>
    unfold SupplyKeys
    simp only [Bool.not_true, Bool.false_eq_true, if_false, if_true]
    rw [openTexts_fireSel]
    refine SupplyKeys.firePsu ?_ _
    unfold SupplyKeys
    rw [openTexts_chassisEvents, openTexts_recover_of_ne (.inl (by decide))]
    exact hKeys

theorem openTexts_store_of_ne {events events' : Table AlertEvent} {c : IpmiCycle}
    (hStore : storeIpmi events c = some events') {other : Nat} (hOther : other ≠ c.serverId) :
    openTexts events' "PSU_FAULT" other = openTexts events "PSU_FAULT" other := by
  obtain ⟨s, -, rfl⟩ := Option.map_eq_some_iff.mp hStore
  split
  · exact openTexts_fire_of_ne (.inr hOther)
  · rw [openTexts_fireSel, openTexts_firePsu_of_ne hOther, openTexts_chassisEvents,
      openTexts_recover_of_ne (.inr hOther)]

/-! ## Runs -/

/-- A cycle as a step of a run; it is one also where nothing is stored. -/
def cycleStep (events : Table AlertEvent) (c : IpmiCycle) : Option (Table AlertEvent) :=
  some (afterCycle events c)

/-- No power supply is in fault. -/
def NoSupplyFault (events : Table AlertEvent) : Prop :=
  ∀ serverId, openTexts events "PSU_FAULT" serverId = []

theorem exists_supplyKeys {events : Table AlertEvent}
    (hReach : Runs.Reach cycleStep NoSupplyFault Runs.Always events) :
    ∀ serverId, ∃ keys, SupplyKeys events serverId keys := by
  refine hReach.invariant (I := fun events => ∀ serverId, ∃ keys, SupplyKeys events serverId keys)
    ?_ ?_
  · intro events hNone serverId
    exact ⟨[], hNone serverId⟩
  · intro events c events' hKeyed _ hStep serverId
    obtain ⟨keys, hKeys⟩ := hKeyed serverId
    cases hStep
    by_cases hRefused : PowerRefused c.result.power
    · refine ⟨keys, ?_⟩
      rw [afterCycle, storeIpmi_of_refused events hRefused]
      exact hKeys
    · obtain ⟨events', hStore, rfl⟩ := exists_store_of_not_refused events hRefused
      by_cases hServer : serverId = c.serverId
      · subst hServer
        exact ⟨_, supplyKeys_of_store hStore hKeys⟩
      · exact ⟨keys, (openTexts_store_of_ne hStore hServer).trans hKeys⟩

/-- Every sensor in fault is bad again. Where the row is stored, no bad sensor without an event has
a name that is found in the event of another: one in fault, or one that stands before it. Where it
is not, every bad sensor is in fault already. -/
structure SuppliesSteady (events : Table AlertEvent) (serverId : Nat) (power : Dict Text Text)
    (sensors : List Sensor) : Prop where
  stillBad : ∀ psu, InFault events serverId psu → psu ∈ psuBad sensors
  clear : ¬ PowerRefused power → ∀ before psu after, psuBad sensors = before ++ psu :: after →
    ¬ InFault events serverId psu → psu ∉ before →
      ∀ other, InFault events serverId other ∨ other ∈ before →
        ¬ Confused psu other (psuMessage other)
  known : PowerRefused power → ∀ psu ∈ psuBad sensors, InFault events serverId psu

/-- In every run, after a cycle that has read the sensors the supplies in fault are the bad ones
exactly when the state before it was steady. -/
theorem psu_fault_iff_bad {events : Table AlertEvent} {c : IpmiCycle} {sensors : List Sensor}
    (hReach : Runs.Reach cycleStep NoSupplyFault Runs.Always events)
    (hOk : c.result.ok = true) (hRead : c.result.sensors = some sensors) :
    (∀ psu, InFault (afterCycle events c) c.serverId psu ↔ psu ∈ psuBad sensors) ↔
      SuppliesSteady events c.serverId c.result.power sensors := by
  by_cases hRefused : PowerRefused c.result.power
  · -- nothing is stored, and the events are those before the cycle
    rw [afterCycle, storeIpmi_of_refused events hRefused, Option.getD_none]
    constructor
    · intro hSame
      exact ⟨fun psu => (hSame psu).mp, fun h => absurd hRefused h, fun _ psu => (hSame psu).mpr⟩
    · rintro ⟨hStill, -, hKnown⟩ psu
      exact ⟨hStill psu, hKnown hRefused psu⟩
  · obtain ⟨events', hStore, hAfterCycle⟩ := exists_store_of_not_refused events hRefused
    rw [hAfterCycle]
    obtain ⟨keys, hKeys⟩ := exists_supplyKeys hReach c.serverId
    have hAfter := supplyKeys_of_store hStore hKeys
    have hAlarms : alarmsOf c = psuBad sensors := by
      rw [alarmsOf, if_pos hOk, hRead]
      rfl
    rw [hAlarms] at hAfter
    have hSteady : SuppliesSteady events c.serverId c.result.power sensors ↔
        (∀ k ∈ keys, k ∈ psuBad sensors) ∧ ClearAlarms psuMessage keys (psuBad sensors) := by
      constructor
      · rintro ⟨hStill, hClear, -⟩
        simp only [hKeys.inFault_iff] at hStill hClear
        exact ⟨hStill, hClear hRefused⟩
      · rintro ⟨hStill, hClear⟩
        refine ⟨?_, fun _ => ?_, fun h => absurd h hRefused⟩
        · simp only [hKeys.inFault_iff]
          exact hStill
        · simp only [hKeys.inFault_iff]
          exact hClear
    rw [hSteady, ← open_iff_alarm_iff]
    exact forall_congr' fun psu => by rw [hAfter.inFault_iff]

/-- A cycle of server 7 that has read one sensor. -/
def supplyCycle (now : Int) (status : Text) : IpmiCycle where
  env := ⟨now, fun _ => true⟩
  serverId := 7
  serverName := "gpu-7"
  result := { ok := true, sensors := some [⟨"PSU1 Status", status⟩] }

/-- The events after the sensor was reported bad. -/
def faultEvents : Table AlertEvent := afterCycle .empty (supplyCycle 0 "cr")

theorem suppliesSteady_first : SuppliesSteady .empty 7 .empty [⟨"PSU1 Status", "cr"⟩] := by
  have hNone : ∀ psu, ¬ InFault .empty 7 psu := by
    rintro psu ⟨ev, hev, -⟩
    cases hev
  have hBad : psuBad [⟨"PSU1 Status", "cr"⟩] = ["PSU1 Status"] := by decide
  refine ⟨fun psu h => absurd h (hNone psu), ?_, fun h => absurd h not_powerRefused_empty⟩
  intro _ before psu after hSplit _ _ other hOther
  rw [hBad] at hSplit
  rcases hOther with h | h
  · exact absurd h (hNone other)
  · have hLength := congrArg List.length hSplit
    have hPos := List.length_pos_of_mem h
    simp at hLength
    omega

/-- The first bad reading of a supply opens its event. -/
theorem psu_fault_iff_bad_first :
    InFault faultEvents 7 "PSU1 Status" ↔ ("PSU1 Status" : Text) ∈ psuBad [⟨"PSU1 Status", "cr"⟩] :=
  (psu_fault_iff_bad (.start fun _ => rfl) rfl rfl).mpr suppliesSteady_first _

/-- A power supply that is healthy again stays in fault. -/
theorem healed_supply_in_fault : ∃ events,
    Runs.Reach cycleStep NoSupplyFault Runs.Always events ∧
      ("PSU1 Status" : Text) ∉ psuBad [⟨"PSU1 Status", "ok"⟩] ∧
      InFault (afterCycle events (supplyCycle 1 "ok")) 7 "PSU1 Status" := by
  refine ⟨faultEvents, (Runs.Reach.start fun _ => rfl).next trivial rfl, by decide, ?_⟩
  rw [inFault_iff]
  decide +kernel

end GpuMon.Detectors

import GpuMon.Detectors.Ipmi

/-!
# Sections that were not read (`collect_ipmi`)

After `mc info` the collector asks a BMC for seven sections. One that has timed out or has failed
is left empty, as is one whose output has nothing in it, and `summarize` reads an empty chassis
section as a chassis whose power is off.

* `power_alerts_supported_iff`: when the chassis section bears out what a cycle does to the
  events of `CHASSIS_POWER_OFF`.
* `timeout_reported_as_off`: a timeout of `chassis status` alone opens the event.
-/

namespace GpuMon.Detectors

open PyText

/-! ## `ipmi_collector.py` -/

/-- What became of a call of `ipmitool`. -/
inductive RunOutcome
  | exited (returncode : Int) (stdout stderr : Text)
  | timedOut (exc : Text)
  | failed (exc : Text)

/-- A row of `sdr elist full` in full. -/
structure SdrRow extends Sensor where
  id : Text
  entity : Text
  reading : Text

/-- A row of `sel list` in full. -/
structure SelRow extends SelEntry where
  date : Option Text := none
  time : Option Text := none
  deriving DecidableEq

/-- The sections of a BMC. -/
structure IpmiReport where
  ok : Bool := false
  error : Text := []
  mcInfo : Dict Text Text := .empty
  chassis : Dict Text Text := .empty
  power : Dict Text Text := .empty
  sensors : Option (List SdrRow) := none
  sel : List SelRow := []
  selInfo : Dict Text Text := .empty
  fru : List (Dict Text Text) := []
  lan : Dict Text Text := .empty

/-- The key and the value of a line with a colon. -/
def keyValue (line : Text) : Text × Text :=
  (strip (partition ':' line).1, strip (partition ':' line).2)

/-- `_parse_kv` on one line. -/
def addLine (out : Dict Text Text) (line : Text) : Dict Text Text :=
  if ':' ∈ line ∧ (keyValue line).1 ≠ [] then out.set (keyValue line).1 (keyValue line).2 else out

/-- `_parse_kv`. -/
def parseKv (text : Text) : Dict Text Text := (splitlines text).foldl addLine .empty

/-- `_parse_sdr`. -/
def parseSdr (text : Text) : List SdrRow :=
  (splitlines text).filterMap fun line =>
    match (splitOn '|' line).map strip with
    | name :: id :: status :: entity :: rest =>
      if name = [] then none
      else some { name, id, status, entity, reading := rest.headD [] }
    | _ => none

/-- `_parse_sel`. -/
def parseSel (text : Text) : List SelRow :=
  (splitlines text).filterMap fun line =>
    if strip line = [] then none
    else match (splitMax '|' 3 line).map strip with
      | record :: date :: time :: event :: _ =>
        some { record := some record, event := some event, date := some date, time := some time }
      | _ => some { event := some (strip line) }

/-- `_parse_fru` on one line; the last device is the current one. -/
def addFruLine (devices : List (Dict Text Text)) (line : Text) : List (Dict Text Text) :=
  if ':' ∉ line then devices
  else if contains "FRU Device Description" (keyValue line).1 then
    devices ++ [(Dict.empty : Dict Text Text).set "description" (keyValue line).2]
  else match devices.getLast? with
    | none => devices
    | some cur => devices.dropLast ++ [cur.set (keyValue line).1 (keyValue line).2]

/-- `_parse_fru`. -/
def parseFru (text : Text) : List (Dict Text Text) := (splitlines text).foldl addFruLine []

/-- A section, or its fallback when it could not be read. -/
def readSection {α : Type} (parser : Text → α) (fallback : α) : RunOutcome → α
  | .exited rc out _ => if rc = 0 then parser out else fallback
  | .timedOut _ => fallback
  | .failed _ => fallback

/-- The last line of what `ipmitool` said when `mc info` has failed. -/
def connectError (out err : Text) : Text :=
  let msg := if strip err ≠ [] then strip err else if out ≠ [] then out else "BMC 连接失败"
  (((splitlines (strip msg)).getLast?).getD "BMC 连接失败").take 300

/-- The sections after `mc info` has answered. -/
def readSections (ipmitool : List Text → RunOutcome) (mcInfo : Text) : IpmiReport where
  ok := true
  mcInfo := parseKv mcInfo
  chassis := readSection parseKv .empty (ipmitool ["chassis", "status"])
  power := readSection parseKv .empty (ipmitool ["dcmi", "power", "reading"])
  sensors := readSection (fun out => some (parseSdr out)) none (ipmitool ["sdr", "elist", "full"])
  sel := readSection parseSel [] (ipmitool ["sel", "list", "last", "100"])
  selInfo := readSection parseKv .empty (ipmitool ["sel", "info"])
  fru := readSection parseFru [] (ipmitool ["fru", "list"])
  lan := readSection parseKv .empty (ipmitool ["lan", "print"])

/-- `collect_ipmi`; an exception of `mc info` is passed on. -/
def collectIpmi (available : Bool) (ipmitool : List Text → RunOutcome) : Except Text IpmiReport :=
  if !available then .ok { error := "监控主机未安装 ipmitool" }
  else match ipmitool ["mc", "info"] with
    | .timedOut exc => .error exc
    | .failed exc => .error exc
    | .exited rc out err =>
      if rc ≠ 0 then .ok { error := connectError out err }
      else .ok (readSections ipmitool out)

/-- The part of `run_ipmi_cycle` that puts an exception in the place of a report. -/
def reportOf : Except Text IpmiReport → IpmiReport
  | .ok report => report
  | .error exc => { error := exc.take 300 }

/-- What `summarize` and the detectors read of a report. -/
def IpmiReport.result (r : IpmiReport) : IpmiResult where
  ok := r.ok
  error := r.error
  chassis := r.chassis
  power := r.power
  sensors := r.sensors.map fun rows => rows.map SdrRow.toSensor
  sel := r.sel.map SelRow.toSelEntry

/-- A cycle of one server: collect, then store. -/
def ipmiCycle (env : Environment) (serverId : Nat) (serverName : Text) (available : Bool)
    (ipmitool : List Text → RunOutcome) : IpmiCycle :=
  ⟨env, serverId, serverName, (reportOf (collectIpmi available ipmitool)).result⟩

theorem collectIpmi_of_mcInfo {ipmitool : List Text → RunOutcome} {out err : Text}
    (hMc : ipmitool ["mc", "info"] = .exited 0 out err) :
    collectIpmi true ipmitool = .ok (readSections ipmitool out) := by
  unfold collectIpmi
  rw [hMc]
  rfl

/-! ## The keys of a section -/

theorem mem_keys_foldl_addLine {k : Text} {lines : List Text} {out : Dict Text Text} :
    k ∈ (lines.foldl addLine out).keys ↔
      k ∈ out.keys ∨ ∃ line ∈ lines, ':' ∈ line ∧ (keyValue line).1 ≠ [] ∧ (keyValue line).1 = k := by
  induction lines generalizing out with
  | nil => simp
  | cons line rest ih =>
    rw [List.foldl_cons, ih]
    have hHead : k ∈ (addLine out line).keys ↔
        k ∈ out.keys ∨ (':' ∈ line ∧ (keyValue line).1 ≠ [] ∧ (keyValue line).1 = k) := by
      unfold addLine
      split
      · rename_i hLine
        unfold Dict.keys Dict.set
        rw [Dict.mem_keys_setEntries]
        constructor
        · rintro (rfl | h)
          · exact .inr ⟨hLine.1, hLine.2, rfl⟩
          · exact .inl h
        · rintro (h | ⟨-, -, rfl⟩)
          · exact .inr h
          · exact .inl rfl
      · rename_i hLine
        refine (or_iff_left ?_).symm
        rintro ⟨hColon, hne, -⟩
        exact hLine ⟨hColon, hne⟩
    rw [hHead, List.exists_mem_cons_iff, or_assoc]

/-- The keys of a section are those in front of the colons of its lines. -/
theorem mem_keys_parseKv {k text : Text} : k ∈ (parseKv text).keys ↔
    ∃ line ∈ splitlines text, ':' ∈ line ∧ (keyValue line).1 ≠ [] ∧ (keyValue line).1 = k := by
  unfold parseKv
  rw [mem_keys_foldl_addLine]
  refine or_iff_right ?_
  intro h
  cases h

/-! ## The power of the chassis -/

/-- `"system power" in k.lower()`. -/
def namesPower (k : Text) : Bool := contains "system power" (lower k)

/-- `v.strip().lower() == "on"`. -/
def isOn (v : Text) : Bool := lower (strip v) = "on"

/-- A system-power entry that is on, or one that is not. -/
def HasPowerEntry (chassis : Dict Text Text) (on : Bool) : Prop :=
  ∃ kv ∈ chassis.entries, namesPower kv.1 = true ∧ isOn kv.2 = on

theorem foldl_last {α : Type} (p q : α → Bool) (l : List α) (b : Bool) :
    l.foldl (fun on x => if p x then q x else on) b =
      ((l.filter p).getLast?.map q).getD b := by
  induction l generalizing b with
  | nil => rfl
  | cons x rest ih =>
    rw [List.foldl_cons, ih]
    cases hx : p x with
    | false => rw [List.filter_cons_of_neg (by simp [hx]), if_neg (by simp)]
    | true =>
      rw [List.filter_cons_of_pos hx, List.getLast?_cons, if_pos rfl]
      cases (rest.filter p).getLast? <;> rfl

/-- The entries about the system power. -/
def powerEntries (chassis : Dict Text Text) : List (Text × Text) :=
  chassis.entries.filter fun kv => namesPower kv.1

theorem mem_powerEntries {chassis : Dict Text Text} {kv : Text × Text} :
    kv ∈ powerEntries chassis ↔ kv ∈ chassis.entries ∧ namesPower kv.1 = true :=
  List.mem_filter

theorem powerOn_eq (chassis : Dict Text Text) : powerOn chassis =
    ((powerEntries chassis).getLast?.map fun kv => isOn kv.2).getD false :=
  foldl_last (fun kv : Text × Text => namesPower kv.1) (fun kv => isOn kv.2) _ _

/-- A chassis whose power is on has an entry that says so. -/
theorem hasPowerEntry_of_on {chassis : Dict Text Text} (h : powerOn chassis = true) :
    HasPowerEntry chassis true := by
  rw [powerOn_eq] at h
  cases hLast : (powerEntries chassis).getLast? with
  | none =>
    rw [hLast] at h
    cases h
  | some kv =>
    rw [hLast] at h
    obtain ⟨hMem, hNames⟩ := mem_powerEntries.mp (List.mem_of_getLast? hLast)
    exact ⟨kv, hMem, hNames, h⟩

/-- A chassis whose power is not on has an entry that says so, or none about the power. -/
theorem hasPowerEntry_of_off {chassis : Dict Text Text} (h : powerOn chassis = false)
    (hNamed : ∃ k ∈ chassis.keys, namesPower k = true) : HasPowerEntry chassis false := by
  rw [powerOn_eq] at h
  cases hLast : (powerEntries chassis).getLast? with
  | none =>
    obtain ⟨k, hk, hNames⟩ := hNamed
    obtain ⟨kv, hkv, rfl⟩ := List.mem_map.mp hk
    have hMem := mem_powerEntries.mpr ⟨hkv, hNames⟩
    rw [List.getLast?_eq_none_iff.mp hLast] at hMem
    cases hMem
  | some kv =>
    rw [hLast] at h
    obtain ⟨hMem, hNames⟩ := mem_powerEntries.mp (List.mem_of_getLast? hLast)
    exact ⟨kv, hMem, hNames, h⟩

theorem named_of_hasPowerEntry {chassis : Dict Text Text} {on : Bool}
    (h : HasPowerEntry chassis on) : ∃ k ∈ chassis.keys, namesPower k = true := by
  obtain ⟨kv, hkv, hNames, -⟩ := h
  exact ⟨kv.1, List.mem_map_of_mem hkv, hNames⟩

/-! ## Events opened and closed -/

/-- An event of the detector is open after a step and was not before. -/
def OpensEvent (before after : Table AlertEvent) (detector : Text) (serverId : Nat) : Prop :=
  ∃ ev ∈ openRows after detector serverId, ∀ old ∈ openRows before detector serverId, old.id ≠ ev.id

/-- An event of the detector was open before a step and is not after it. -/
def ClosesEvent (before after : Table AlertEvent) (detector : Text) (serverId : Nat) : Prop :=
  OpensEvent after before detector serverId

theorem not_opens_of_subset {before after : Table AlertEvent} {detector : Text} {serverId : Nat}
    (h : openRows after detector serverId ⊆ openRows before detector serverId) :
    ¬ OpensEvent before after detector serverId := by
  rintro ⟨ev, hev, hNew⟩
  exact hNew ev (h hev) rfl

theorem opens_congr {before before' after after' : Table AlertEvent} {detector : Text}
    {serverId : Nat} (hBefore : openRows before detector serverId = openRows before' detector serverId)
    (hAfter : openRows after detector serverId = openRows after' detector serverId) :
    OpensEvent before after detector serverId ↔ OpensEvent before' after' detector serverId := by
  unfold OpensEvent
  rw [hBefore, hAfter]

/-- `_fire` opens an event exactly when none with the key is open. -/
theorem opens_fire_iff {env : Environment} {events : Table AlertEvent}
    {detector serverName message key : Text} {serverId : Nat} {value threshold : ℚ} :
    OpensEvent events (fire env events detector serverId serverName message value threshold key)
      detector serverId ↔ openEvent events detector serverId key = none := by
  cases hFound : openEvent events detector serverId key with
  | some ev =>
    have hSame : fire env events detector serverId serverName message value threshold key =
        events := by
      unfold fire
      rw [hFound]
    rw [hSame]
    exact iff_of_false (not_opens_of_subset (List.Subset.refl _)) (by simp)
  | none =>
    refine iff_of_true ?_ rfl
    let new := detectorEvent env detector serverId serverName (keyedMessage key message) value
      threshold events.nextKey
    refine ⟨new, List.mem_filter.mpr ⟨?_, ?_⟩, ?_⟩
    · unfold fire
      rw [hFound]
      exact Table.mem_insert.mpr (.inr rfl)
    · exact isOpenOf_iff.mpr ⟨rfl, rfl, rfl, rfl⟩
    · intro old hOld
      have hLt := Table.lt_nextKey (List.mem_filter.mp hOld).1
      exact Nat.ne_of_lt hLt

theorem openEvent_congr {before after : Table AlertEvent} {detector key : Text} {serverId : Nat}
    (h : openRows after detector serverId = openRows before detector serverId) :
    openEvent after detector serverId key = openEvent before detector serverId key := by
  have hFind : ∀ events : Table AlertEvent, openEvent events detector serverId key =
      (openRows events detector serverId).find? fun ev => matchesKey key ev.message := by
    intro events
    rw [openEvent_eq, openRows, List.find?_filter]
    congr 1
    funext ev
    rw [Bool.decide_and, Bool.decide_coe, Bool.decide_coe]
  rw [hFind, hFind, h]

theorem openRows_foldl_of_ne {α : Type} {detector : Text} {serverId : Nat}
    {f : Table AlertEvent → α → Table AlertEvent}
    (hStep : ∀ events x, openRows (f events x) detector serverId = openRows events detector serverId)
    (l : List α) (events : Table AlertEvent) :
    openRows (l.foldl f events) detector serverId = openRows events detector serverId := by
  induction l generalizing events with
  | nil => rfl
  | cons x rest ih => exact (ih _).trans (hStep events x)

/-! ## What a cycle does to the events of the power -/

section Power

variable {events events' : Table AlertEvent} {c : IpmiCycle}

/-- The events that a reachable BMC leaves to the detector of the power. -/
def reachableEvents (events : Table AlertEvent) (c : IpmiCycle) : Table AlertEvent :=
  recover c.env events "BMC_UNREACHABLE" c.serverId []

theorem openRows_reachableEvents : openRows (reachableEvents events c) "CHASSIS_POWER_OFF"
    c.serverId = openRows events "CHASSIS_POWER_OFF" c.serverId :=
  openRows_recover_of_ne (.inl (by decide))

/-- The other detectors of a cycle leave the events of the power alone. -/
theorem openRows_of_store (hOk : c.result.ok = true) (hStore : storeIpmi events c = some events') :
    openRows events' "CHASSIS_POWER_OFF" c.serverId =
      openRows (chassisEvents c.env c.serverId c.serverName (powerOn c.result.chassis)
        (reachableEvents events c)) "CHASSIS_POWER_OFF" c.serverId := by
  obtain ⟨s, hStored, rfl⟩ := Option.map_eq_some_iff.mp hStore
  obtain ⟨watts, -, rfl⟩ := Option.map_eq_some_iff.mp (summarize_of_stored hStored)
  rw [hOk]
  simp only [Bool.not_true, Bool.false_eq_true, if_false]
  have hSel : ∀ events e, openRows (fireSel c.env c.serverId c.serverName events e)
      "CHASSIS_POWER_OFF" c.serverId = openRows events "CHASSIS_POWER_OFF" c.serverId :=
    fun events e => openRows_fire_of_ne (.inl (by decide))
  have hPsu : ∀ events psu, openRows (firePsu c.env c.serverId c.serverName events psu)
      "CHASSIS_POWER_OFF" c.serverId = openRows events "CHASSIS_POWER_OFF" c.serverId :=
    fun events psu => openRows_fire_of_ne (.inl (by decide))
  rw [openRows_foldl_of_ne hSel, openRows_foldl_of_ne hPsu]
  rfl

/-- A cycle opens the event exactly when the power is not read as on and none is open. -/
theorem opens_power_iff (hOk : c.result.ok = true) (hStore : storeIpmi events c = some events') :
    OpensEvent events events' "CHASSIS_POWER_OFF" c.serverId ↔
      powerOn c.result.chassis = false ∧
        openEvent events "CHASSIS_POWER_OFF" c.serverId [] = none := by
  have hReachable : openRows (reachableEvents events c) "CHASSIS_POWER_OFF" c.serverId =
      openRows events "CHASSIS_POWER_OFF" c.serverId := openRows_reachableEvents
  rw [opens_congr hReachable.symm (openRows_of_store hOk hStore), ← openEvent_congr hReachable]
  unfold chassisEvents
  cases powerOn c.result.chassis with
  | true =>
    rw [if_pos rfl]
    exact iff_of_false (not_opens_of_subset openRows_recover_subset) (by simp)
  | false =>
    rw [if_neg (by simp), opens_fire_iff]
    simp

/-- A cycle closes the event only when the power is read as on. -/
theorem powerOn_of_closes (hOk : c.result.ok = true) (hStore : storeIpmi events c = some events')
    (hCloses : ClosesEvent events events' "CHASSIS_POWER_OFF" c.serverId) :
    powerOn c.result.chassis = true := by
  have hReachable : openRows (reachableEvents events c) "CHASSIS_POWER_OFF" c.serverId =
      openRows events "CHASSIS_POWER_OFF" c.serverId := openRows_reachableEvents
  unfold ClosesEvent at hCloses
  rw [opens_congr (openRows_of_store hOk hStore) hReachable.symm] at hCloses
  cases hOn : powerOn c.result.chassis with
  | true => rfl
  | false =>
    rw [hOn] at hCloses
    refine absurd hCloses (not_opens_of_subset ?_)
    intro ev hev
    obtain ⟨hRow, hOpenOf⟩ := List.mem_filter.mp hev
    refine List.mem_filter.mpr ⟨?_, hOpenOf⟩
    unfold chassisEvents
    rw [if_neg (by simp)]
    exact mem_fire_of_mem hRow

end Power

/-- The event of the power is opened on an entry that is not on, and closed on one that is. -/
structure PowerAlertsSupported (before after : Table AlertEvent) (serverId : Nat)
    (chassis : Dict Text Text) : Prop where
  opened : OpensEvent before after "CHASSIS_POWER_OFF" serverId → HasPowerEntry chassis false
  closed : ClosesEvent before after "CHASSIS_POWER_OFF" serverId → HasPowerEntry chassis true

/-- `chassis status` has answered, and a line of the answer is about the system power. -/
def ChassisAnswered (ipmitool : List Text → RunOutcome) : Prop :=
  ∃ out err, ipmitool ["chassis", "status"] = .exited 0 out err ∧
    ∃ line ∈ splitlines out, ':' ∈ line ∧ namesPower (keyValue line).1 = true

/-- The power reading is refused, and the cycle ends before anything is stored. -/
def ReadingRefused (ipmitool : List Text → RunOutcome) : Prop :=
  ∃ out err, ipmitool ["dcmi", "power", "reading"] = .exited 0 out err ∧
    PowerRefused (parseKv out)

theorem chassisAnswered_iff (ipmitool : List Text → RunOutcome) (mcInfo : Text) :
    ChassisAnswered ipmitool ↔
      ∃ k ∈ (readSections ipmitool mcInfo).chassis.keys, namesPower k = true := by
  have hNone : ¬ ∃ k ∈ (Dict.empty : Dict Text Text).keys, namesPower k = true := by
    rintro ⟨k, hk, -⟩
    cases hk
  unfold ChassisAnswered readSections
  dsimp only
  cases ipmitool ["chassis", "status"] with
  | timedOut exc => exact iff_of_false (by rintro ⟨_, _, h, -⟩; cases h) hNone
  | failed exc => exact iff_of_false (by rintro ⟨_, _, h, -⟩; cases h) hNone
  | exited rc out err =>
    by_cases hRc : rc = 0
    · subst hRc
      simp only [readSection, if_true, mem_keys_parseKv]
      constructor
      · rintro ⟨_, _, ⟨⟩, line, hLine, hColon, hNames⟩
        refine ⟨_, ⟨line, hLine, hColon, ?_, rfl⟩, hNames⟩
        intro hNil
        rw [hNil] at hNames
        exact absurd hNames (by decide)
      · rintro ⟨_, ⟨line, hLine, hColon, -, rfl⟩, hNames⟩
        exact ⟨_, _, rfl, line, hLine, hColon, hNames⟩
    · rw [readSection, if_neg hRc]
      refine iff_of_false ?_ hNone
      rintro ⟨_, _, h, -⟩
      cases h
      exact hRc rfl

theorem readingRefused_iff (ipmitool : List Text → RunOutcome) (mcInfo : Text) :
    ReadingRefused ipmitool ↔ PowerRefused (readSections ipmitool mcInfo).result.power := by
  unfold ReadingRefused IpmiReport.result readSections
  dsimp only
  have hEmpty := not_powerRefused_empty
  cases ipmitool ["dcmi", "power", "reading"] with
  | timedOut exc => exact iff_of_false (by rintro ⟨_, _, h, -⟩; cases h) hEmpty
  | failed exc => exact iff_of_false (by rintro ⟨_, _, h, -⟩; cases h) hEmpty
  | exited rc out err =>
    by_cases hRc : rc = 0
    · subst hRc
      exact ⟨by rintro ⟨_, _, ⟨⟩, h⟩; exact h, fun h => ⟨out, err, rfl, h⟩⟩
    · rw [readSection, if_neg hRc]
      refine iff_of_false ?_ hEmpty
      rintro ⟨_, _, h, -⟩
      cases h
      exact hRc rfl

/-- After a successful `mc info`, the chassis section bears out what the cycle does to the events
of the power exactly when `chassis status` has answered about it, when an event is open already,
or when the power reading is refused. -/
theorem power_alerts_supported_iff (env : Environment) (events : Table AlertEvent) (serverId : Nat)
    (serverName : Text) {ipmitool : List Text → RunOutcome} {out err : Text}
    (hMc : ipmitool ["mc", "info"] = .exited 0 out err) :
    PowerAlertsSupported events
        (afterCycle events (ipmiCycle env serverId serverName true ipmitool)) serverId
        (reportOf (collectIpmi true ipmitool)).chassis ↔
      ChassisAnswered ipmitool ∨
        (openEvent events "CHASSIS_POWER_OFF" serverId []).isSome = true ∨
          ReadingRefused ipmitool := by
  have hCycle : ipmiCycle env serverId serverName true ipmitool =
      ⟨env, serverId, serverName, (readSections ipmitool out).result⟩ := by
    rw [ipmiCycle, collectIpmi_of_mcInfo hMc]
    rfl
  have hReport : reportOf (collectIpmi true ipmitool) = readSections ipmitool out := by
    rw [collectIpmi_of_mcInfo hMc]
    rfl
  rw [hCycle, hReport, chassisAnswered_iff ipmitool out, readingRefused_iff ipmitool out]
  by_cases hRefused : PowerRefused (readSections ipmitool out).result.power
  · -- the cycle has changed nothing
    have hSame : ¬ OpensEvent events events "CHASSIS_POWER_OFF" serverId :=
      not_opens_of_subset (List.Subset.refl _)
    rw [afterCycle, storeIpmi_of_refused events hRefused]
    exact iff_of_true ⟨fun h => absurd h hSame, fun h => absurd h hSame⟩ (.inr (.inr hRefused))
  · obtain ⟨events', hStore, hAfterCycle⟩ := exists_store_of_not_refused events hRefused
      (c := ⟨env, serverId, serverName, (readSections ipmitool out).result⟩)
    rw [hAfterCycle]
    have hOpens := opens_power_iff rfl hStore
    have hCloses := powerOn_of_closes rfl hStore
    constructor
    · rintro ⟨hOpened, -⟩
      cases hFound : openEvent events "CHASSIS_POWER_OFF" serverId [] with
      | some ev => exact .inr (.inl rfl)
      | none =>
        refine .inl ?_
        cases hOn : powerOn (readSections ipmitool out).chassis with
        | true => exact named_of_hasPowerEntry (hasPowerEntry_of_on hOn)
        | false => exact named_of_hasPowerEntry (hOpened (hOpens.mpr ⟨hOn, hFound⟩))
    · intro hCond
      refine ⟨fun hOpened => ?_, fun hClosed => hasPowerEntry_of_on (hCloses hClosed)⟩
      obtain ⟨hOff, hFound⟩ := hOpens.mp hOpened
      rcases hCond with hNamed | hSome | hDone
      · exact hasPowerEntry_of_off hOff hNamed
      · rw [hFound] at hSome
        cases hSome
      · exact absurd hDone hRefused

/-- A BMC whose chassis is on; it has no other section. -/
def poweredBmc : List Text → RunOutcome := fun args =>
  if args = ["mc", "info"] then .exited 0 "IPMI Version : 2.0\n" []
  else if args = ["chassis", "status"] then .exited 0 "System Power : on\n" []
  else .exited 1 [] []

/-- A cycle that has read the power as on. -/
theorem power_alerts_supported_answered :
    PowerAlertsSupported .empty
      (afterCycle .empty (ipmiCycle ⟨0, fun _ => true⟩ 7 "gpu-7" true poweredBmc)) 7
      (reportOf (collectIpmi true poweredBmc)).chassis := by
  have hMc : poweredBmc ["mc", "info"] = .exited 0 "IPMI Version : 2.0\n" [] := rfl
  refine (power_alerts_supported_iff ⟨0, fun _ => true⟩ .empty 7 "gpu-7" hMc).mpr (.inl ?_)
  exact ⟨_, _, rfl, "System Power : on", by decide +kernel, by decide +kernel, by decide +kernel⟩

/-- A BMC that answers `mc info` and then times out. -/
def slowBmc : List Text → RunOutcome := fun args =>
  if args = ["mc", "info"] then .exited 0 "IPMI Version : 2.0\n" [] else .timedOut "timed out"

/-- A timeout of `chassis status` is reported as a chassis whose power is off. -/
theorem timeout_reported_as_off :
    slowBmc ["mc", "info"] = .exited 0 "IPMI Version : 2.0\n" [] ∧
      slowBmc ["chassis", "status"] = .timedOut "timed out" ∧
      ¬ PowerAlertsSupported .empty
        (afterCycle .empty (ipmiCycle ⟨0, fun _ => true⟩ 7 "gpu-7" true slowBmc)) 7
        (reportOf (collectIpmi true slowBmc)).chassis := by
  refine ⟨rfl, rfl, ?_⟩
  rintro ⟨hOpened, -⟩
  obtain ⟨events', hStore, hAfterCycle⟩ := exists_store_of_not_refused .empty
    (c := ipmiCycle ⟨0, fun _ => true⟩ 7 "gpu-7" true slowBmc) not_powerRefused_empty
  rw [hAfterCycle] at hOpened
  obtain ⟨kv, hkv, -⟩ := hOpened ((opens_power_iff rfl hStore).mpr ⟨rfl, rfl⟩)
  cases hkv

end GpuMon.Detectors

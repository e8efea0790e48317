import GpuMon.Library.Regex
import GpuMon.Models

/-!
# Detectors (`health.py`)

A detector opens an alert event when something is wrong and closes it when it is not. Its
events have no rule; several of one detector and server are told apart by a key in brackets at
the front of the message, which the query finds with `LIKE`.
-/

namespace GpuMon.Detectors

open PyText

/-! ## Events of a detector -/

/-- A `LIKE` pattern: `%` stands for any text, `_` for any character, and ASCII letters match
regardless of case. -/
def likeRegex : Text → Regex
  | [] => .eps
  | ch :: rest =>
    if ch = '%' then .seq (.star fun _ => true) (likeRegex rest)
    else if ch = '_' then .seq (.chr fun _ => true) (likeRegex rest)
    else .seq (.chr fun x => x.toLower = ch.toLower) (likeRegex rest)

/-- `column.contains(needle)`: `column LIKE '%' || needle || '%'`, wildcards included. -/
def likeContains (needle t : Text) : Bool :=
  (Regex.go (likeRegex ('%' :: needle ++ ['%'])) (.start t)).any fun e => e.after = []

/-- The clock, and whether the notifier delivers an alert with a given message. -/
structure Environment where
  now : Int
  delivered : Text → Bool

/-- `f"[{key}]"`. -/
def keyText (key : Text) : Text := '[' :: key ++ [']']

/-- The message of an event, with its key in front. -/
def keyedMessage (key message : Text) : Text :=
  if key = [] then message else keyText key ++ ' ' :: message

/-- `_open_event`. -/
def openEvent (events : Table AlertEvent) (detector : Text) (serverId : Nat) (key : Text) :
    Option AlertEvent :=
  events.rows.find? fun ev => ev.ruleId.isNone && ev.metric = detector &&
    ev.serverId = serverId && ev.isOpen && (key = [] || likeContains (keyText key) ev.message)

/-- The event of a detector; the answer of the notifier is stored by a second commit. -/
def detectorEvent (env : Environment) (detector : Text) (serverId : Nat)
    (serverName message : Text) (value threshold : ℚ) (id : Nat) : AlertEvent where
  id
  ruleName := detector
  serverId
  serverName
  metric := detector
  value
  threshold
  message
  triggeredAt := env.now
  notified := env.delivered message

theorem key_detectorEvent (env : Environment) (detector : Text) (serverId : Nat)
    (serverName message : Text) (value threshold : ℚ) (k : Nat) :
    Keyed.key (detectorEvent env detector serverId serverName message value threshold k) = k := rfl

/-- `_fire`. -/
def fire (env : Environment) (events : Table AlertEvent) (detector : Text) (serverId : Nat)
    (serverName message : Text) (value threshold : ℚ) (key : Text) : Table AlertEvent :=
  match openEvent events detector serverId key with
  | some _ => events
  | none =>
    events.insert
      (detectorEvent env detector serverId serverName (keyedMessage key message) value threshold)
      (key_detectorEvent env detector serverId serverName (keyedMessage key message) value
        threshold)

theorem key_recovered (env : Environment) (ev : AlertEvent) :
    Keyed.key { ev with recoveredAt := some env.now } = Keyed.key ev := rfl

/-- `_recover`. -/
def recover (env : Environment) (events : Table AlertEvent) (detector : Text) (serverId : Nat)
    (key : Text) : Table AlertEvent :=
  match openEvent events detector serverId key with
  | none => events
  | some ev =>
    events.modify ev.id (fun ev => { ev with recoveredAt := some env.now }) (key_recovered env)

theorem mem_fire {env : Environment} {events : Table AlertEvent} {detector serverName message key :
    Text} {serverId : Nat} {value threshold : ℚ} {ev : AlertEvent}
    (h : ev ∈ (fire env events detector serverId serverName message value threshold key).rows) :
    ev ∈ events.rows ∨ ev.message = keyedMessage key message := by
  unfold fire at h
  split at h
  · exact .inl h
  · rcases Table.mem_insert.mp h with hOld | rfl
    · exact .inl hOld
    · exact .inr rfl

theorem isOpen_of_recover {env : Environment} {events : Table AlertEvent} {detector key : Text}
    {serverId : Nat} {ev : AlertEvent} (h : ev ∈ (recover env events detector serverId key).rows)
    (hOpen : ev.isOpen = true) : ev ∈ events.rows := by
  unfold recover at h
  split at h
  · exact h
  · rcases Table.mem_modify.mp h with ⟨hOld, -⟩ | ⟨old, -, -, rfl⟩
    · exact hOld
    · cases hOpen

/-! ## Degraded arrays -/

/-- `str` of an optional number. -/
def optText : Option Nat → Text
  | none => "None"
  | some n => natText n

def raidMessage (arr : RaidArray) : Text :=
  arr.name ++ " ".toList ++ arr.level.getD [] ++ " 状态降级（".toList ++ optText arr.activeDisks ++
    "/".toList ++ optText arr.totalDisks ++ " 在线, ".toList ++ arr.state.getD [] ++ "）".toList

/-- The condition of `_detect_raid`. -/
def raidDegraded (arr : RaidArray) : Bool :=
  '_' ∈ arr.state.getD [] ||
    match arr.activeDisks, arr.totalDisks with
    | some active, some total => active < total
    | _, _ => false

def detectRaidArray (env : Environment) (server : Server) (events : Table AlertEvent)
    (arr : RaidArray) : Table AlertEvent :=
  if raidDegraded arr then
    fire env events "RAID_DEGRADED" server.id server.name (raidMessage arr) 0 0 arr.name
  else recover env events "RAID_DEGRADED" server.id arr.name

/-- `_detect_raid`; `latest` is the newest slow sample. -/
def detectRaid (env : Environment) (server : Server) (latest : Option Mdraid)
    (events : Table AlertEvent) : Table AlertEvent :=
  match latest with
  | none => events
  | some mdraid => mdraid.arrays.foldl (detectRaidArray env server) events

/-! ## Missing GPUs -/

def missingMessage (b : GpuBaseline) : Text :=
  "GPU ".toList ++ (if b.name = [] then b.gpuUuid else b.name) ++ " (".toList ++ b.pciBusId ++
    ") 从采集结果中消失——掉卡/被移除/驱动异常".toList

/-- The row and the events after a baseline GPU was looked for among the uuids of a sample. -/
def detectGpuMissingRow (env : Environment) (server : Server) (hostname : Text)
    (seen : List (Option Text)) (b : GpuBaseline) (events : Table AlertEvent) :
    GpuBaseline × Table AlertEvent :=
  if some b.gpuUuid ∈ seen then
    ({ b with missingSince := none, lastSeen := env.now },
      recover env events "GPU_MISSING" server.id b.gpuUuid)
  else if b.missingSince.isNone then
    ({ b with missingSince := some env.now },
      fire env events "GPU_MISSING" server.id (if hostname = [] then server.name else hostname)
        (missingMessage b) 0 0 b.gpuUuid)
  else (b, events)

/-- `_detect_gpu_missing`, on the GPUs of the sample. -/
def detectGpuMissing {ν : Type} (env : Environment) (server : Server) (hostname : Text)
    (gpus : List (Gpu ν)) : List GpuBaseline → Table AlertEvent →
      List GpuBaseline × Table AlertEvent
  | [], events => ([], events)
  | b :: rest, events =>
    let (b', events') := detectGpuMissingRow env server hostname (gpus.map Gpu.uuid) b events
    let (rest', events'') := detectGpuMissing env server hostname gpus rest events'
    (b' :: rest', events'')

section Missing

variable {ν : Type} (env : Environment) (server : Server) (hostname : Text) (gpus : List (Gpu ν))
  (baseline : List GpuBaseline) (events : Table AlertEvent)

theorem missing_of_listed_row {seen : List (Option Text)} {b : GpuBaseline}
    (h : some b.gpuUuid ∈ seen) :
    (detectGpuMissingRow env server hostname seen b events).1.missingSince = none := by
  rw [detectGpuMissingRow, if_pos h]

theorem opened_of_row {seen : List (Option Text)} {b : GpuBaseline} {ev : AlertEvent}
    (h : ev ∈ (detectGpuMissingRow env server hostname seen b events).2.rows)
    (hOpen : ev.isOpen = true) : ev ∈ events.rows ∨ some b.gpuUuid ∉ seen ∧
      ev.message = keyedMessage b.gpuUuid (missingMessage b) := by
  unfold detectGpuMissingRow at h
  split at h
  · exact .inl (isOpen_of_recover h hOpen)
  · rename_i hAbsent
    split at h
    · exact (mem_fire h).imp_right fun hMessage => ⟨hAbsent, hMessage⟩
    · exact .inl h

/-- A card of the sample is not marked missing. -/
theorem missing_of_listed : ∀ p ∈ baseline.zip
    (detectGpuMissing env server hostname gpus baseline events).1,
    some p.1.gpuUuid ∈ gpus.map Gpu.uuid → p.2.missingSince = none := by
  induction baseline generalizing events with
  | nil =>
    intro p hp
    cases hp
  | cons b rest ih =>
    intro p hp hListed
    rcases List.mem_cons.mp hp with rfl | hp
    · exact missing_of_listed_row env server hostname events hListed
    · exact ih _ p hp hListed

/-- An event that was opened is about a card that the sample does not have. -/
theorem opened_of_detectGpuMissing {ev : AlertEvent}
    (h : ev ∈ (detectGpuMissing env server hostname gpus baseline events).2.rows)
    (hOpen : ev.isOpen = true) : ev ∈ events.rows ∨ ∃ b ∈ baseline,
      some b.gpuUuid ∉ gpus.map Gpu.uuid ∧
        ev.message = keyedMessage b.gpuUuid (missingMessage b) := by
  induction baseline generalizing events with
  | nil => exact .inl h
  | cons b rest ih =>
    rcases ih _ h with hRow | ⟨b', hb', hReport⟩
    · exact (opened_of_row env server hostname events hRow hOpen).imp_right
        fun hReport => ⟨b, List.mem_cons_self, hReport⟩
    · exact .inr ⟨b', List.mem_cons_of_mem b hb', hReport⟩

end Missing

end GpuMon.Detectors

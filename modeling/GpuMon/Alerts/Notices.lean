import GpuMon.Alerts.Recovery
import GpuMon.Detectors.OpenTexts

/-!
# Alerts and recoveries at the webhook channels (`notifier.py`)

An alert goes out with the severity of its event, a recovery with `info`, and a channel gets what
is not below its own minimum. Five paths close events: the recovery of a rule notifies, that of a
detector notifies when an alert was delivered, and the recoveries of `SSH_FAULT` and the expiry of
point events tell no channel.

* `alert_sent_iff`: in every run, the channels that were sent the alert of an event are those that
  admit its severity.
* `recovery_paired_iff`: in a run, each channel of an alert is sent the recovery exactly when at
  every closing the channels of the alert have no minimum above `info` and the path notifies.
* `warning_channel_not_told`: a channel with the minimum `warning` is not told of a recovery.
-/

namespace GpuMon.Notifier

/-! ## The notifier -/

/-- `WebhookChannel`, with its url as it is revealed. -/
structure WebhookChannel where
  url : Text
  template : Text := []
  minSeverity : Text := "info"
  enabled : Bool := true
  deriving DecidableEq

/-- The rows of the channels and the settings of the single target of old. -/
structure Webhooks where
  channels : List WebhookChannel
  legacyUrl : Text := []
  legacyTemplate : Text := []

/-- A url, a template and a minimum severity. -/
structure Target where
  url : Text
  template : Text
  minSeverity : Text
  deriving DecidableEq

/-- `DEFAULT_TEMPLATE`. -/
def defaultTemplate : Text :=
  "\x7b\"text\": \"[\x7b\x7blevel\x7d\x7d] \x7b\x7bserver_name\x7d\x7d: \x7b\x7bmetric\x7d\x7d=".toList ++
    "\x7b\x7bvalue\x7d\x7d \x7b\x7bop\x7d\x7d \x7b\x7bthreshold\x7d\x7d ".toList ++
    "(\x7b\x7brule_name\x7d\x7d) at \x7b\x7btime\x7d\x7d\"\x7d".toList

/-- The first of two texts that is not empty. -/
def orText (t default : Text) : Text := if t = [] then default else t

/-- `_channels`. -/
def channels (hooks : Webhooks) : List Target :=
  let out := (hooks.channels.filter fun ch => ch.enabled && ch.url ≠ []).map fun ch =>
    ⟨ch.url, orText ch.template defaultTemplate, orText ch.minSeverity "info"⟩
  if out ≠ [] then out
  else if hooks.legacyUrl ≠ [] then
    [⟨hooks.legacyUrl, orText hooks.legacyTemplate defaultTemplate, "info"⟩]
  else []

/-- `_SEV_RANK.get(severity, 0)`. -/
def sevRank (severity : Text) : Nat :=
  if severity = "warning" then 1 else if severity = "critical" then 2 else 0

/-- The targets that a dispatch does not skip. -/
def admitted (targets : List Target) (severity : Text) : List Target :=
  targets.filter fun t => !(sevRank severity < sevRank t.minSeverity)

/-- `send_webhook`, for one message: whether it was delivered, and a text. -/
abbrev SendWebhook := Target → Bool × Text

/-- `_dispatch`. -/
def dispatch (hooks : Webhooks) (severity : Text) (send : SendWebhook) : Bool × Text :=
  let targets := channels hooks
  if targets = [] then (false, "webhook not configured")
  else
    let results := (admitted targets severity).map send
    if results = [] then (false, "all channels below severity threshold")
    else (results.any Prod.fst, PyText.join "; " (results.map Prod.snd))

/-- `SEV_BY_DETECTOR`. -/
def sevByDetector : List (Text × Text) :=
  [("GPU_IDLE_VRAM_HELD", "warning"), ("GPU_MISSING", "critical"),
    ("GPU_ECC_UNCORRECTED", "critical"), ("GPU_XID", "critical"),
    ("GPU_THERMAL_THROTTLE", "warning"), ("NVME_HEALTH", "warning"),
    ("RAID_DEGRADED", "critical"), ("HOSTKEY_CHANGED", "critical"), ("SSH_FAULT", "critical"),
    ("BMC_UNREACHABLE", "warning"), ("CHASSIS_POWER_OFF", "critical"), ("PSU_FAULT", "critical"),
    ("SEL_CRITICAL", "critical"), ("NFS_STALE", "warning"), ("SERVICE_FAILED", "warning"),
    ("OOM_KILL", "critical"), ("STORAGE_BOTTLENECK", "info"), ("MCE_HARDWARE_ERROR", "critical"),
    ("PCIE_AER", "warning")]

/-- `SEV_BY_DETECTOR.get(metric, "warning")`, which for the metric of a rule is the default of
`notify_alert`. -/
def severityOf (metric : Text) : Text :=
  ((sevByDetector.find? fun p => p.1 = metric).map Prod.snd).getD "warning"

/-- The severity of `notify_recovery`. -/
def recoverySeverity : Text := "info"

theorem severityOf_rule (metric : Metric) : severityOf metric.text = "warning" := by
  cases metric <;> decide

/-! ## What is sent -/

inductive Level
  | alert
  | recovery
  deriving DecidableEq

/-- A message to a channel about an event. -/
structure Post where
  level : Level
  eventId : Nat
  target : Target
  delivered : Bool
  deriving DecidableEq

/-- The messages of a dispatch. -/
def postsOf (hooks : Webhooks) (level : Level) (eventId : Nat) (severity : Text)
    (send : SendWebhook) : List Post :=
  (admitted (channels hooks) severity).map fun t => ⟨level, eventId, t, (send t).1⟩

/-- The events, everything sent so far, and the ids of the events that the system has closed. -/
structure Ledger where
  events : Table AlertEvent
  posts : List Post
  recovered : List Nat

/-! ## The paths -/

/-- `POINT_EVENT_TYPES`. -/
def pointEventTypes : List Text := ["GPU_XID", "OOM_KILL", "MCE_HARDWARE_ERROR", "PCIE_AER"]

/-- `POINT_EVENT_TTL_MINUTES`. -/
def pointEventTtl : Int := minutes 60

/-- The query of `_ttl_recover_point_events`. -/
def isExpired (now : Int) (ev : AlertEvent) : Bool :=
  ev.ruleId.isNone && ev.metric ∈ pointEventTypes && ev.isOpen &&
    ev.triggeredAt ≤ now - pointEventTtl

/-- Marks the events of a query as recovered. -/
def closeAll (now : Int) (query : AlertEvent → Bool) (events : Table AlertEvent) :
    Table AlertEvent :=
  events.map (fun ev => if query ev then { ev with recoveredAt := some now } else ev) fun ev => by
    split <;> rfl

/-- What opens and closes events. The first seven are the system, the others its operators. -/
inductive NoticeAction
  | ruleBreached (env : Alerts.Environment) (rule : AlertRule) (m : ServerMetric) (sid : Nat)
      (value : ℚ) (send : SendWebhook)
  | ruleRecovered (env : Alerts.Environment) (rule : AlertRule) (sid : Nat) (send : SendWebhook)
  | detectorFired (now : Int) (detector : Text) (serverId : Nat) (serverName message : Text)
      (value threshold : ℚ) (key : Text) (send : SendWebhook)
  | detectorRecovered (now : Int) (detector : Text) (serverId : Nat) (key : Text)
      (send : SendWebhook)
  | sshRecovered (now : Int) (serverId : Nat)
  | pointEventsExpired (now : Int)
  | ack (eventId : Nat) (username : Text) (now : Int)
  | resolve (eventId : Nat) (now : Int)
  | deleteRule (ruleId : Nat)

/-- The surroundings of a rule's event: the answer of the notifier is that of the dispatch. -/
def ruleEnv (hooks : Webhooks) (severity : Text) (send : SendWebhook) (env : Alerts.Environment) :
    Alerts.Environment :=
  { env with
    dbFails := fun _ _ => false
    notifier := fun _ _ => if (dispatch hooks severity send).1 then .sent else .failed }

/-- The same for a detector. -/
def detectorEnv (hooks : Webhooks) (detector : Text) (send : SendWebhook) (now : Int) :
    Detectors.Environment :=
  ⟨now, fun _ => (dispatch hooks (severityOf detector) send).1⟩

/-- The open event of a rule and a server, unless it is acknowledged. -/
def unackedEvent (events : Table AlertEvent) (rule : AlertRule) (sid : Nat) :
    Option AlertEvent :=
  (events.rows.find? (Alerts.openFor rule.id sid)).filter fun ev => ev.ackedAt.isNone

/-- The open events that a step finds and closes. -/
def closedBy (s : Ledger) : NoticeAction → List AlertEvent
  | .ruleRecovered _ rule sid _ => (unackedEvent s.events rule sid).toList
  | .detectorRecovered _ detector serverId key _ =>
    (Detectors.openEvent s.events detector serverId key).toList
  | .sshRecovered _ serverId => s.events.rows.filter (Detectors.isOpenOf "SSH_FAULT" serverId)
  | .pointEventsExpired now => s.events.rows.filter (isExpired now)
  | .resolve eventId _ => (s.events.get? eventId).toList.filter AlertEvent.isOpen
  | _ => []

/-- Whether the path on which an event is closed calls the notifier. -/
def informs (a : NoticeAction) (ev : AlertEvent) : Bool :=
  match a with
  | .ruleRecovered .. => true
  | .detectorRecovered .. => ev.notified
  | _ => false

/-- The step is one of the system. -/
def NoticeAction.bySystem : NoticeAction → Bool
  | .ack .. => false
  | .resolve .. => false
  | .deleteRule _ => false
  | _ => true

def eventsAfter (hooks : Webhooks) (events : Table AlertEvent) :
    NoticeAction → Table AlertEvent
  | .ruleBreached env rule m sid value send =>
    if (events.rows.find? (Alerts.openFor rule.id sid)).isSome then events
    else (Alerts.fire (ruleEnv hooks "warning" send env) events rule m sid value).state
  | .ruleRecovered env rule sid send =>
    match unackedEvent events rule sid with
    | some ev => (Alerts.recover (ruleEnv hooks recoverySeverity send env) events rule sid ev).state
    | none => events
  | .detectorFired now detector serverId serverName message value threshold key send =>
    Detectors.fire (detectorEnv hooks detector send now) events detector serverId serverName message
      value threshold key
  | .detectorRecovered now detector serverId key send =>
    Detectors.recover (detectorEnv hooks detector send now) events detector serverId key
  | .sshRecovered now serverId => closeAll now (Detectors.isOpenOf "SSH_FAULT" serverId) events
  | .pointEventsExpired now => closeAll now (isExpired now) events
  | .ack eventId username now => (Alerts.ackEvent events eventId username now).toOption.getD events
  | .resolve eventId now => (Alerts.resolveEvent events eventId now).toOption.getD events
  | .deleteRule ruleId =>
    events.map (Alerts.detachRule ruleId) (Alerts.key_detachRule ruleId)

/-- The messages of a step: an alert for a new event, a recovery for a closed one. -/
def newPosts (hooks : Webhooks) (s : Ledger) : NoticeAction → List Post
  | .ruleBreached _ rule _ sid _ send =>
    if (s.events.rows.find? (Alerts.openFor rule.id sid)).isSome then []
    else postsOf hooks .alert s.events.nextKey "warning" send
  | .ruleRecovered _ rule sid send =>
    match unackedEvent s.events rule sid with
    | some ev => postsOf hooks .recovery ev.id recoverySeverity send
    | none => []
  | .detectorFired _ detector serverId _ _ _ _ key send =>
    if (Detectors.openEvent s.events detector serverId key).isSome then []
    else postsOf hooks .alert s.events.nextKey (severityOf detector) send
  | .detectorRecovered _ detector serverId key send =>
    match Detectors.openEvent s.events detector serverId key with
    | some ev => if ev.notified then postsOf hooks .recovery ev.id recoverySeverity send else []
    | none => []
  | _ => []

/-- The ids of the events that are open before and not after. -/
def closedIds (before after : Table AlertEvent) : List Nat :=
  (before.rows.filter fun ev =>
    ev.isOpen && !after.rows.any fun ev' => ev'.id = ev.id && ev'.isOpen).map AlertEvent.id

def noticeStep (hooks : Webhooks) (s : Ledger) (a : NoticeAction) : Ledger :=
  let events := eventsAfter hooks s.events a
  { events
    posts := s.posts ++ newPosts hooks s a
    recovered := s.recovered ++ if a.bySystem then closedIds s.events events else [] }

/-- The ledger after a series of actions. -/
def noticeRun (hooks : Webhooks) (as : List NoticeAction) : Ledger :=
  as.foldl (noticeStep hooks) ⟨.empty, [], []⟩

/-- A channel is sent a message about an event. -/
def PostedTo (posts : List Post) (level : Level) (eventId : Nat) (t : Target) : Prop :=
  ∃ p ∈ posts, p.level = level ∧ p.eventId = eventId ∧ p.target = t

instance (posts : List Post) (level : Level) (eventId : Nat) (t : Target) :
    Decidable (PostedTo posts level eventId t) :=
  inferInstanceAs (Decidable (∃ p ∈ posts, _))

/-- Every channel that was sent the alert of an event closed by the system was also sent its
recovery. -/
def Paired (s : Ledger) : Prop :=
  ∀ id ∈ s.recovered, ∀ t, PostedTo s.posts .alert id t → PostedTo s.posts .recovery id t

/-- A step of the system closes no event with a channel that its alert passes and its recovery
does not, and none on a path without a notice. -/
def Notifies (hooks : Webhooks) (s : Ledger) (a : NoticeAction) : Prop :=
  a.bySystem = true → ∀ ev ∈ closedBy s a, ∀ t ∈ channels hooks,
    sevRank t.minSeverity ≤ sevRank (severityOf ev.metric) →
      sevRank t.minSeverity = 0 ∧ informs a ev = true

/-! ## Messages -/

section Posts

variable {hooks : Webhooks} {posts posts' : List Post} {level level' : Level} {eventId id : Nat}
  {severity : Text} {send : SendWebhook} {t : Target}

theorem mem_admitted {targets : List Target} :
    t ∈ admitted targets severity ↔ t ∈ targets ∧ sevRank t.minSeverity ≤ sevRank severity := by
  simp [admitted]

theorem sevRank_recoverySeverity : sevRank recoverySeverity = 0 := by decide

theorem postedTo_append : PostedTo (posts ++ posts') level id t ↔
    PostedTo posts level id t ∨ PostedTo posts' level id t := by
  simp only [PostedTo, List.mem_append, or_and_right, exists_or]

theorem mem_postsOf {p : Post} (h : p ∈ postsOf hooks level eventId severity send) :
    p.level = level ∧ p.eventId = eventId := by
  obtain ⟨u, -, rfl⟩ := List.mem_map.mp h
  exact ⟨rfl, rfl⟩

theorem postedTo_postsOf : PostedTo (postsOf hooks level eventId severity send) level eventId t ↔
    t ∈ admitted (channels hooks) severity := by
  constructor
  · rintro ⟨p, hp, -, -, rfl⟩
    obtain ⟨u, hu, rfl⟩ := List.mem_map.mp hp
    exact hu
  · intro ht
    exact ⟨_, List.mem_map_of_mem ht, rfl, rfl, rfl⟩

end Posts

/-! ## What one step can do -/

/-- The effect of a step: a new event with its alert, or an update that closes the events of a
list and keeps everything else open, with recoveries of those only. -/
inductive Effect (hooks : Webhooks) (s : Ledger) :
    Table AlertEvent → List Post → List AlertEvent → Prop
  | opened {row : Nat → AlertEvent} (hKey : ∀ k, Keyed.key (row k) = k) (send : SendWebhook) :
      Effect hooks s (s.events.insert row hKey)
        (postsOf hooks .alert s.events.nextKey (severityOf (row s.events.nextKey).metric) send) []
  | settled {f : AlertEvent → AlertEvent} {closed : List AlertEvent} {posts : List Post}
      (hKey : ∀ ev, Keyed.key (f ev) = Keyed.key ev) :
      (∀ ev, (f ev).metric = ev.metric) →
      (∀ ev ∈ closed, ev ∈ s.events.rows ∧ ev.isOpen = true) →
      (∀ ev ∈ s.events.rows, (f ev).isOpen = true ↔ ev.isOpen = true ∧ ev ∉ closed) →
      (∀ p ∈ posts, p.level = .recovery ∧ ∃ ev ∈ closed, p.eventId = ev.id) →
      Effect hooks s (s.events.map f hKey) posts closed

namespace Effect

variable {hooks : Webhooks} {s : Ledger}

/-- An update that neither opens nor closes. -/
theorem update {f : AlertEvent → AlertEvent} (hKey : ∀ ev, Keyed.key (f ev) = Keyed.key ev)
    (hMetric : ∀ ev, (f ev).metric = ev.metric) (hOpen : ∀ ev, (f ev).isOpen = ev.isOpen) :
    Effect hooks s (s.events.map f hKey) [] [] := by
  refine .settled hKey hMetric (fun ev h => absurd h List.not_mem_nil) ?_
    fun p h => absurd h List.not_mem_nil
  intro ev _
  rw [hOpen ev, and_iff_left List.not_mem_nil]

theorem same : Effect hooks s s.events [] [] := by
  have hId : s.events.map id (fun _ => rfl) = s.events := Table.ext_rows (List.map_id _)
  have hUpdate : Effect hooks s (s.events.map id fun _ => rfl) [] [] :=
    update (fun _ => rfl) (fun _ => rfl) fun _ => rfl
  rwa [hId] at hUpdate

/-- The event with a key is closed. -/
theorem close {ev : AlertEvent} {now : Int} {posts : List Post} (hMem : ev ∈ s.events.rows)
    (hOpen : ev.isOpen = true) (hPosts : ∀ p ∈ posts, p.level = .recovery ∧ p.eventId = ev.id) :
    Effect hooks s
      (s.events.modify ev.id (fun ev => { ev with recoveredAt := some now }) fun _ => rfl)
      posts [ev] := by
  refine .settled _ ?_ ?_ ?_ ?_
  · intro x
    split <;> rfl
  · intro x hx
    rw [List.mem_singleton.mp hx]
    exact ⟨hMem, hOpen⟩
  · intro x hx
    rw [List.mem_singleton]
    split
    · rename_i hKey
      exact iff_of_false Bool.false_ne_true fun h => h.2 (Table.eq_of_key_eq hx hMem hKey)
    · rename_i hKey
      refine (and_iff_left ?_).symm
      rintro rfl
      exact hKey rfl
  · intro p hp
    exact ⟨(hPosts p hp).1, ev, List.mem_cons_self, (hPosts p hp).2⟩

/-- The events of a query are closed without a notice. -/
theorem closeAll {query : AlertEvent → Bool} {now : Int}
    (hQuery : ∀ ev, query ev = true → ev.isOpen = true) :
    Effect hooks s (closeAll now query s.events) [] (s.events.rows.filter query) := by
  refine .settled _ ?_ ?_ ?_ fun p h => absurd h List.not_mem_nil
  · intro ev
    split <;> rfl
  · intro ev hev
    obtain ⟨hMem, hFound⟩ := List.mem_filter.mp hev
    exact ⟨hMem, hQuery ev hFound⟩
  · intro ev hev
    rw [List.mem_filter]
    split
    · rename_i hFound
      exact iff_of_false Bool.false_ne_true fun h => h.2 ⟨hev, hFound⟩
    · rename_i hFound
      exact (and_iff_left fun h => hFound h.2).symm

end Effect

section Step

variable {hooks : Webhooks} {s : Ledger}

theorem unackedEvent_eq_some {events : Table AlertEvent} {rule : AlertRule} {sid : Nat}
    {ev : AlertEvent} (h : unackedEvent events rule sid = some ev) :
    ev ∈ events.rows ∧ ev.isOpen = true := by
  obtain ⟨hFind, -⟩ := Option.filter_eq_some_iff.mp h
  refine ⟨List.mem_of_find?_eq_some hFind, ?_⟩
  obtain ⟨-, -, hOpen⟩ := Alerts.openFor_iff.mp (List.find?_some hFind)
  rw [AlertEvent.isOpen, hOpen]
  rfl

theorem openEvent_mem {events : Table AlertEvent} {detector key : Text} {serverId : Nat}
    {ev : AlertEvent} (h : Detectors.openEvent events detector serverId key = some ev) :
    ev ∈ events.rows ∧ ev.isOpen = true := by
  obtain ⟨hOpenOf, -⟩ := Detectors.openEvent_eq_some h
  exact ⟨List.mem_of_find?_eq_some h, (Detectors.isOpenOf_iff.mp hOpenOf).2.2.2⟩

theorem ruleBreached_effect {env : Alerts.Environment} {rule : AlertRule} {m : ServerMetric}
    {sid : Nat} {value : ℚ} {send : SendWebhook} :
    Effect hooks s (Alerts.fire (ruleEnv hooks "warning" send env) s.events rule m sid value).state
      (postsOf hooks .alert s.events.nextKey "warning" send) [] := by
  rw [← severityOf_rule rule.metric]
  unfold Alerts.fire ruleEnv
  dsimp only
  rw [if_neg Bool.false_ne_true]
  split
  · exact .opened (Alerts.key_newEvent _ rule m sid value) send
  · exact .opened (Alerts.key_newEvent _ rule m sid value) send
  · dsimp only [Alerts.Result.state]
    rw [Table.modify_insert]
    exact .opened _ send

theorem detectorFired_effect {env : Detectors.Environment} {detector serverName message key : Text}
    {serverId : Nat} {value threshold : ℚ} {send : SendWebhook} :
    Effect hooks s
      (Detectors.fire env s.events detector serverId serverName message value threshold key)
      (if (Detectors.openEvent s.events detector serverId key).isSome then []
        else postsOf hooks .alert s.events.nextKey (severityOf detector) send) [] := by
  unfold Detectors.fire
  cases Detectors.openEvent s.events detector serverId key with
  | some ev => exact .same
  | none => exact .opened (Detectors.key_detectorEvent env detector serverId serverName _ _ _) send

theorem ack_effect {eventId : Nat} {username : Text} {now : Int} :
    Effect hooks s ((Alerts.ackEvent s.events eventId username now).toOption.getD s.events)
      [] [] := by
  unfold Alerts.ackEvent
  split
  · exact .same
  split
  · exact .same
  split
  · exact .same
  · refine .update ?_ ?_ ?_ <;> intro ev <;> split <;> rfl

theorem resolve_effect {eventId : Nat} {now : Int} :
    Effect hooks s ((Alerts.resolveEvent s.events eventId now).toOption.getD s.events) []
      ((s.events.get? eventId).toList.filter AlertEvent.isOpen) := by
  unfold Alerts.resolveEvent
  cases hGet : s.events.get? eventId with
  | none => exact .same
  | some ev =>
    unfold Table.get? at hGet
    have hMem : ev ∈ s.events.rows := List.mem_of_find?_eq_some hGet
    have hFound := List.find?_some hGet
    have hKey : ev.id = eventId := of_decide_eq_true hFound
    have hIsOpen : ev.isOpen = !ev.recoveredAt.isSome := (Option.not_isSome _).symm
    rw [Option.toList_some]
    dsimp only
    split
    · rename_i hClosed
      rw [List.filter_cons_of_neg (by rw [hIsOpen, hClosed]; decide)]
      exact .same
    · rename_i hNotClosed
      have hOpen : ev.isOpen = true := by
        rw [hIsOpen, Bool.eq_false_iff.mpr hNotClosed]
        rfl
      rw [List.filter_cons_of_pos hOpen, ← hKey]
      exact .close hMem hOpen fun p h => absurd h List.not_mem_nil

theorem noticeStep_effect (a : NoticeAction) :
    Effect hooks s (eventsAfter hooks s.events a) (newPosts hooks s a) (closedBy s a) := by
  cases a with
  | ruleBreached env rule m sid value send =>
    dsimp only [eventsAfter, newPosts, closedBy]
    split
    · exact .same
    · exact ruleBreached_effect
  | ruleRecovered env rule sid send =>
    dsimp only [eventsAfter, newPosts, closedBy]
    cases hFound : unackedEvent s.events rule sid with
    | none => exact .same
    | some ev =>
      obtain ⟨hMem, hOpen⟩ := unackedEvent_eq_some hFound
      dsimp only
      unfold Alerts.recover ruleEnv
      dsimp only
      rw [if_neg Bool.false_ne_true]
      split <;> exact .close hMem hOpen fun p => mem_postsOf
  | detectorFired now detector serverId serverName message value threshold key send =>
    exact detectorFired_effect
  | detectorRecovered now detector serverId key send =>
    dsimp only [eventsAfter, newPosts, closedBy, Detectors.recover]
    cases hFound : Detectors.openEvent s.events detector serverId key with
    | none => exact .same
    | some ev =>
      obtain ⟨hMem, hOpen⟩ := openEvent_mem hFound
      refine .close hMem hOpen fun p hp => ?_
      dsimp only at hp
      split at hp
      · exact mem_postsOf hp
      · cases hp
  | sshRecovered now serverId =>
    exact .closeAll fun ev h => (Detectors.isOpenOf_iff.mp h).2.2.2
  | pointEventsExpired now =>
    refine .closeAll fun ev h => ?_
    simp only [isExpired, Bool.and_eq_true] at h
    exact h.1.2
  | ack eventId username now => exact ack_effect
  | resolve eventId now => exact resolve_effect
  | deleteRule ruleId =>
    refine .update (Alerts.key_detachRule ruleId) ?_ ?_ <;> intro ev <;>
      unfold Alerts.detachRule <;> split <;> rfl

/-- The recoveries of an event that a step closes. -/
theorem recovery_newPosts_iff {a : NoticeAction} {ev : AlertEvent} {t : Target}
    (h : ev ∈ closedBy s a) : PostedTo (newPosts hooks s a) .recovery ev.id t ↔
      informs a ev = true ∧ t ∈ admitted (channels hooks) recoverySeverity := by
  cases a with
  | ruleRecovered env rule sid send =>
    dsimp only [closedBy] at h
    dsimp only [newPosts]
    rw [Option.mem_toList] at h
    rw [h]
    dsimp only
    rw [postedTo_postsOf]
    exact (and_iff_right rfl).symm
  | detectorRecovered now detector serverId key send =>
    dsimp only [closedBy] at h
    dsimp only [newPosts]
    rw [Option.mem_toList] at h
    rw [h]
    dsimp only
    split
    · rename_i hNotified
      rw [postedTo_postsOf]
      exact (and_iff_right hNotified).symm
    · rename_i hNotified
      refine iff_of_false ?_ fun hBoth => hNotified hBoth.1
      rintro ⟨p, hp, -⟩
      cases hp
  | ruleBreached _ _ _ _ _ _ | detectorFired _ _ _ _ _ _ _ _ _ | ack _ _ _ | deleteRule _ =>
    cases h
  | sshRecovered _ _ | pointEventsExpired _ | resolve _ _ =>
    refine iff_of_false ?_ fun hBoth => Bool.false_ne_true hBoth.1
    rintro ⟨p, hp, -⟩
    cases hp

end Step

namespace Effect

variable {hooks : Webhooks} {s : Ledger} {events' : Table AlertEvent} {posts : List Post}
  {closed : List AlertEvent} (h : Effect hooks s events' posts closed)

include h

theorem mem_of_closed {ev : AlertEvent} (hev : ev ∈ closed) :
    ev ∈ s.events.rows ∧ ev.isOpen = true := by
  cases h with
  | opened _ _ => cases hev
  | settled _ _ hClosed _ _ => exact hClosed ev hev

/-- An event stays in the table, and is open if it was and the step did not close it. -/
theorem kept {ev : AlertEvent} (hev : ev ∈ s.events.rows) : ∃ ev' ∈ events'.rows,
    ev'.id = ev.id ∧ ev'.metric = ev.metric ∧ (ev'.isOpen = true ↔ ev.isOpen = true ∧ ev ∉ closed) := by
  cases h with
  | opened hKey _ =>
    exact ⟨ev, Table.mem_insert.mpr (.inl hev), rfl, rfl, (and_iff_left List.not_mem_nil).symm⟩
  | settled hKey hMetric _ hOpen _ =>
    exact ⟨_, Table.mem_map.mpr ⟨ev, hev, rfl⟩, hKey ev, hMetric ev, hOpen ev hev⟩

theorem mem_closedIds_iff {id : Nat} :
    id ∈ closedIds s.events events' ↔ ∃ ev ∈ closed, ev.id = id := by
  unfold closedIds
  rw [List.mem_map]
  constructor
  · rintro ⟨ev, hev, rfl⟩
    obtain ⟨hMem, hLost⟩ := List.mem_filter.mp hev
    obtain ⟨hOpen, hNone⟩ := Bool.and_eq_true_iff.mp hLost
    obtain ⟨ev', hMem', hId, -, hOpen'⟩ := h.kept hMem
    refine ⟨ev, ?_, rfl⟩
    by_contra hNot
    have hFound : events'.rows.any (fun x => x.id = ev.id && x.isOpen) = true :=
      List.any_eq_true.mpr ⟨ev', hMem', by simp [hId, hOpen'.mpr ⟨hOpen, hNot⟩]⟩
    rw [hFound] at hNone
    cases hNone
  · rintro ⟨ev, hev, rfl⟩
    obtain ⟨hMem, hOpen⟩ := h.mem_of_closed hev
    obtain ⟨ev', hMem', hId, -, hOpen'⟩ := h.kept hMem
    refine ⟨ev, List.mem_filter.mpr ⟨hMem, Bool.and_eq_true_iff.mpr ⟨hOpen, ?_⟩⟩, rfl⟩
    rw [Bool.not_eq_true', List.any_eq_false]
    intro x hx hFound
    simp only [Bool.and_eq_true, decide_eq_true_eq] at hFound
    have hSame : x = ev' := Table.eq_of_key_eq hx hMem' (hFound.1.trans hId.symm)
    exact (hOpen'.mp (hSame ▸ hFound.2)).2 hev

/-- No message is about an event that was closed before. -/
theorem eventId_ne {ev : AlertEvent} (hev : ev ∈ s.events.rows) (hNot : ev.isOpen = false) {p : Post}
    (hp : p ∈ posts) : p.eventId ≠ ev.id := by
  intro hSame
  cases h with
  | opened hKey send =>
    have hOld : ev.id < s.events.nextKey := Table.lt_nextKey hev
    rw [(mem_postsOf hp).2] at hSame
    omega
  | settled _ _ hClosed _ hPosts =>
    obtain ⟨-, other, hOther, hId⟩ := hPosts p hp
    obtain ⟨hMem, hOpen⟩ := hClosed other hOther
    have hEq : other = ev := Table.eq_of_key_eq hMem hev (hId.symm.trans hSame)
    rw [hEq, hNot] at hOpen
    cases hOpen

end Effect

/-! ## Runs -/

/-- What holds in every run: messages are about known events, the alert of an event went to the
channels that admit its severity, and nothing was sent of the recovery of an open event. -/
structure Told (hooks : Webhooks) (s : Ledger) : Prop where
  known : ∀ p ∈ s.posts, p.eventId < s.events.nextKey
  alerts : ∀ ev ∈ s.events.rows, ∀ t, PostedTo s.posts .alert ev.id t ↔
    t ∈ admitted (channels hooks) (severityOf ev.metric)
  recoveries : ∀ ev ∈ s.events.rows, ev.isOpen = true → ∀ t, ¬ PostedTo s.posts .recovery ev.id t
  closed : ∀ id ∈ s.recovered, ∃ ev ∈ s.events.rows, ev.id = id ∧ ev.isOpen = false

section Told

variable {hooks : Webhooks} {s : Ledger} {events' : Table AlertEvent} {posts : List Post}
  {closed : List AlertEvent}

theorem Told.not_postedTo_next (hTold : Told hooks s) {level : Level} {t : Target} :
    ¬ PostedTo s.posts level s.events.nextKey t := by
  rintro ⟨p, hp, -, hId, -⟩
  have hKnown := hTold.known p hp
  omega

theorem Effect.known (h : Effect hooks s events' posts closed) (hTold : Told hooks s) :
    ∀ p ∈ s.posts ++ posts, p.eventId < events'.nextKey := by
  intro p hp
  cases h with
  | opened hKey send =>
    have hNext : s.events.nextKey < (s.events.insert _ hKey).nextKey := Table.nextKey_lt_insert
    rcases List.mem_append.mp hp with hp | hp
    · exact (hTold.known p hp).trans hNext
    · rwa [(mem_postsOf hp).2]
  | settled hKey _ hClosed _ hPosts =>
    rw [Table.nextKey_map]
    rcases List.mem_append.mp hp with hp | hp
    · exact hTold.known p hp
    · obtain ⟨-, ev, hev, hId⟩ := hPosts p hp
      rw [hId]
      exact Table.lt_nextKey (hClosed ev hev).1

theorem Effect.alerts (h : Effect hooks s events' posts closed) (hTold : Told hooks s)
    {ev : AlertEvent} (hev : ev ∈ events'.rows) {t : Target} :
    PostedTo (s.posts ++ posts) .alert ev.id t ↔
      t ∈ admitted (channels hooks) (severityOf ev.metric) := by
  rw [postedTo_append]
  cases h with
  | opened hKey send =>
    rcases Table.mem_insert.mp hev with hOld | rfl
    · rw [← hTold.alerts ev hOld t, or_iff_left]
      rintro ⟨p, hp, -, hId, -⟩
      have hLt : ev.id < s.events.nextKey := Table.lt_nextKey hOld
      rw [(mem_postsOf hp).2] at hId
      omega
    · have hId : (_ : AlertEvent).id = s.events.nextKey := hKey s.events.nextKey
      rw [hId, or_iff_right hTold.not_postedTo_next, postedTo_postsOf]
  | settled hKey hMetric _ _ hPosts =>
    obtain ⟨old, hOld, rfl⟩ := Table.mem_map.mp hev
    have hId : (_ : AlertEvent).id = old.id := hKey old
    rw [hId, hMetric old, ← hTold.alerts old hOld t, or_iff_left]
    rintro ⟨p, hp, hLevel, -⟩
    rw [(hPosts p hp).1] at hLevel
    cases hLevel

theorem Effect.recoveries (h : Effect hooks s events' posts closed) (hTold : Told hooks s)
    {ev : AlertEvent} (hev : ev ∈ events'.rows) (hOpen : ev.isOpen = true) {t : Target} :
    ¬ PostedTo (s.posts ++ posts) .recovery ev.id t := by
  rw [postedTo_append, not_or]
  cases h with
  | opened hKey send =>
    constructor
    · rcases Table.mem_insert.mp hev with hOld | rfl
      · exact hTold.recoveries ev hOld hOpen t
      · have hId : (_ : AlertEvent).id = s.events.nextKey := hKey s.events.nextKey
        rw [hId]
        exact hTold.not_postedTo_next
    · rintro ⟨p, hp, hLevel, -⟩
      rw [(mem_postsOf hp).1] at hLevel
      cases hLevel
  | settled hKey _ hClosed hOpenIff hPosts =>
    obtain ⟨old, hOld, rfl⟩ := Table.mem_map.mp hev
    obtain ⟨hWasOpen, hNotClosed⟩ := (hOpenIff old hOld).mp hOpen
    have hId : (_ : AlertEvent).id = old.id := hKey old
    rw [hId]
    refine ⟨hTold.recoveries old hOld hWasOpen t, ?_⟩
    rintro ⟨p, hp, -, hOf, -⟩
    obtain ⟨-, other, hOther, hOther'⟩ := hPosts p hp
    have hSame : other = old :=
      Table.eq_of_key_eq (hClosed other hOther).1 hOld (hOther'.symm.trans hOf)
    exact hNotClosed (hSame ▸ hOther)

theorem told_noticeStep (a : NoticeAction) (hTold : Told hooks s) :
    Told hooks (noticeStep hooks s a) := by
  have hEffect : Effect hooks s _ _ _ := noticeStep_effect a
  refine ⟨hEffect.known hTold, fun ev hev t => hEffect.alerts hTold hev,
    fun ev hev hOpen t => hEffect.recoveries hTold hev hOpen, ?_⟩
  intro id hid
  have hClosedAfter : ∀ ev ∈ s.events.rows, (ev.isOpen = true → ev ∈ closedBy s a) →
      ∃ ev' ∈ (noticeStep hooks s a).events.rows, ev'.id = ev.id ∧ ev'.isOpen = false := by
    intro ev hev hIf
    obtain ⟨ev', hMem', hId, -, hOpen'⟩ := hEffect.kept hev
    refine ⟨ev', hMem', hId, Bool.eq_false_iff.mpr fun hOpen => ?_⟩
    exact (hOpen'.mp hOpen).2 (hIf (hOpen'.mp hOpen).1)
  rcases List.mem_append.mp hid with hOld | hNew
  · obtain ⟨ev, hev, rfl, hNot⟩ := hTold.closed id hOld
    exact hClosedAfter ev hev fun hOpen => absurd (hNot.symm.trans hOpen) Bool.false_ne_true
  · split at hNew
    · obtain ⟨ev, hev, rfl⟩ := hEffect.mem_closedIds_iff.mp hNew
      exact hClosedAfter ev (hEffect.mem_of_closed hev).1 fun _ => hev
    · cases hNew

/-- The messages about an event that the step closes. -/
theorem paired_closed_iff {a : NoticeAction} (hTold : Told hooks s) {ev : AlertEvent}
    (hev : ev ∈ closedBy s a) :
    (∀ t, PostedTo (noticeStep hooks s a).posts .alert ev.id t →
      PostedTo (noticeStep hooks s a).posts .recovery ev.id t) ↔
    ∀ t ∈ channels hooks, sevRank t.minSeverity ≤ sevRank (severityOf ev.metric) →
      sevRank t.minSeverity = 0 ∧ informs a ev = true := by
  have hEffect : Effect hooks s _ _ _ := noticeStep_effect a
  obtain ⟨hMem, hOpen⟩ := hEffect.mem_of_closed hev
  obtain ⟨ev', hMem', hId, hMetric, -⟩ := hEffect.kept hMem
  have hAlert : ∀ t, PostedTo (noticeStep hooks s a).posts .alert ev.id t ↔
      t ∈ channels hooks ∧ sevRank t.minSeverity ≤ sevRank (severityOf ev.metric) := by
    intro t
    rw [← hId, (told_noticeStep a hTold).alerts ev' hMem' t, hMetric, mem_admitted]
  have hRecovery : ∀ t, PostedTo (noticeStep hooks s a).posts .recovery ev.id t ↔
      informs a ev = true ∧ t ∈ channels hooks ∧ sevRank t.minSeverity = 0 := by
    intro t
    have hSplit : PostedTo (noticeStep hooks s a).posts .recovery ev.id t ↔ _ ∨ _ :=
      postedTo_append
    rw [hSplit, or_iff_right (hTold.recoveries ev hMem hOpen t), recovery_newPosts_iff hev,
      mem_admitted, sevRank_recoverySeverity, Nat.le_zero]
  simp only [hAlert, hRecovery]
  constructor
  · intro hPaired t ht hAdmits
    obtain ⟨hInforms, -, hZero⟩ := hPaired t ⟨ht, hAdmits⟩
    exact ⟨hZero, hInforms⟩
  · rintro hAll t ⟨ht, hAdmits⟩
    obtain ⟨hZero, hInforms⟩ := hAll t ht hAdmits
    exact ⟨hInforms, ht, hZero⟩

theorem paired_noticeStep_iff (a : NoticeAction) (hTold : Told hooks s) :
    Paired (noticeStep hooks s a) ↔ Paired s ∧ Notifies hooks s a := by
  have hEffect : Effect hooks s _ _ _ := noticeStep_effect a
  have hOld : ∀ id ∈ s.recovered, ∀ level t,
      PostedTo (noticeStep hooks s a).posts level id t ↔ PostedTo s.posts level id t := by
    intro id hid level t
    obtain ⟨ev, hev, rfl, hNot⟩ := hTold.closed id hid
    have hSplit : PostedTo (noticeStep hooks s a).posts level ev.id t ↔ _ ∨ _ := postedTo_append
    rw [hSplit, or_iff_left]
    rintro ⟨p, hp, -, hId, -⟩
    exact hEffect.eventId_ne hev hNot hp hId
  have hNew : (∀ id ∈ if a.bySystem then closedIds s.events (eventsAfter hooks s.events a) else [],
      ∀ t, PostedTo (noticeStep hooks s a).posts .alert id t →
        PostedTo (noticeStep hooks s a).posts .recovery id t) ↔ Notifies hooks s a := by
    unfold Notifies
    split
    · rename_i hSystem
      rw [forall_prop_of_true hSystem]
      constructor
      · intro hAll ev hev
        exact (paired_closed_iff hTold hev).mp
          (hAll ev.id (hEffect.mem_closedIds_iff.mpr ⟨ev, hev, rfl⟩))
      · intro hAll id hid
        obtain ⟨ev, hev, rfl⟩ := hEffect.mem_closedIds_iff.mp hid
        exact (paired_closed_iff hTold hev).mpr (hAll ev hev)
    · rename_i hSystem
      exact iff_of_true (fun id hid => absurd hid List.not_mem_nil) fun h => absurd h hSystem
  rw [← hNew]
  unfold Paired
  change (∀ id ∈ s.recovered ++ _, _) ↔ _
  rw [List.forall_mem_append]
  refine and_congr_left fun _ => forall₂_congr fun id hid => forall_congr' fun t => ?_
  rw [hOld id hid, hOld id hid]

theorem told_start : Told hooks ⟨.empty, [], []⟩ where
  known _ hp := absurd hp List.not_mem_nil
  alerts _ hev := absurd hev List.not_mem_nil
  recoveries _ hev := absurd hev List.not_mem_nil
  closed _ hid := absurd hid List.not_mem_nil

/-- In every run the alert of an event went to exactly the channels that admit its severity. -/
theorem alert_sent_iff {as : List NoticeAction} {ev : AlertEvent}
    (hev : ev ∈ (noticeRun hooks as).events.rows) {t : Target} :
    PostedTo (noticeRun hooks as).posts .alert ev.id t ↔
      t ∈ admitted (channels hooks) (severityOf ev.metric) := by
  have hTold : Told hooks (noticeRun hooks as) :=
    Runs.foldl_invariant (fun _ a => told_noticeStep a) told_start as
  exact hTold.alerts ev hev t

end Told

/-- In a run, all channels that were sent the alert of an event closed by the system were sent its
recovery if and only if every step of the system notifies. -/
theorem recovery_paired_iff (hooks : Webhooks) (as : List NoticeAction) :
    Paired (noticeRun hooks as) ↔
      Runs.StepsOk (noticeStep hooks) (Notifies hooks) ⟨.empty, [], []⟩ as := by
  have hRun := Runs.foldl_iff_of_step (I := Told hooks) (P := Paired)
    (fun _ a => told_noticeStep a) (fun _ a => paired_noticeStep_iff a) told_start as
  have hStart : Paired ⟨.empty, [], []⟩ := fun id hid => absurd hid List.not_mem_nil
  exact hRun.trans (and_iff_right hStart)

/-! A hot GPU at a channel for warnings, and an unreachable server at a channel for everything. -/

def hookOf (minSeverity : Text) : Webhooks where
  channels := [{ url := "https://hooks.example/x", minSeverity }]

def targetOf (minSeverity : Text) : Target := ⟨"https://hooks.example/x", defaultTemplate, minSeverity⟩

def answered : SendWebhook := fun _ => (true, "HTTP 200")

def hotNotices : List NoticeAction :=
  [.ruleBreached Alerts.sampleEnvironment Alerts.tempRule (Alerts.tempSample 1 1700000000 90) 1 90
    answered, .ruleRecovered Alerts.sampleEnvironment Alerts.tempRule 1 answered]

def sshNotices : List NoticeAction :=
  [.detectorFired (seconds 1700000000) "SSH_FAULT" 1 "gpu-01" "timeout: timed out" 0 0 "SSH" answered,
    .sshRecovered (seconds 1700000060) 1]

/-- The channel for warnings was sent the alert of the rule and not its recovery; the channel for
everything was sent the alert of `SSH_FAULT` and not its recovery. -/
theorem warning_channel_not_told :
    ¬ Paired (noticeRun (hookOf "warning") hotNotices) ∧
      ¬ Paired (noticeRun (hookOf "info") sshNotices) := by
  constructor
  · intro hPaired
    have hTold := hPaired 1 (by decide +kernel) (targetOf "warning") (by decide +kernel)
    exact absurd hTold (by decide +kernel)
  · intro hPaired
    have hTold := hPaired 1 (by decide +kernel) (targetOf "info") (by decide +kernel)
    exact absurd hTold (by decide +kernel)

end GpuMon.Notifier

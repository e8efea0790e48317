import GpuMon.Alerts.Notices

/-!
# Open events without a rule or a server

A pass looks at enabled rules and enabled servers only. Administrators disable, retarget and delete
rules, and disable and delete servers, without a look at the open events; deleting a rule also
empties the `rule_id` of its events.

* `pass_allOwned_iff`: a pass neither opens nor closes an event whose rule or server is gone.
* `open_events_owned_iff`: as long as every administrative step leaves alone what has an event open,
  each open event of a rule has its rule and server, and a step that does not breaks this for the
  next pass.
* `disabled_rule_strands`: the event of a disabled rule stays open; `stranded` has the same for a
  deleted rule and for a disabled or deleted server.
-/

namespace GpuMon.Alerts

/-! ## Administrators -/

/-- `AlertRuleUpdate`; a field that is `none` was not sent. -/
structure AlertRuleUpdate where
  name : Option Text := none
  metric : Option Metric := none
  op : Option CompareOp := none
  threshold : Option ℚ := none
  durationMinutes : Option Nat := none
  serverId : Option (Option Nat) := none
  enabled : Option Bool := none

/-- The fields that were sent are written to the rule. -/
def AlertRuleUpdate.apply (body : AlertRuleUpdate) (rule : AlertRule) : AlertRule where
  id := rule.id
  name := body.name.getD rule.name
  metric := body.metric.getD rule.metric
  op := body.op.getD rule.op
  threshold := body.threshold.getD rule.threshold
  durationMinutes := body.durationMinutes.getD rule.durationMinutes
  serverId := body.serverId.getD rule.serverId
  enabled := body.enabled.getD rule.enabled

theorem AlertRuleUpdate.key_apply (body : AlertRuleUpdate) (rule : AlertRule) :
    Keyed.key (body.apply rule) = Keyed.key rule := rfl

/-- The server of a request exists, or there is none. -/
def serverFound (db : Store) (serverId : Option Nat) : Bool :=
  serverId.all fun sid => (db.servers.get? sid).isSome

/-- `create_rule`. -/
def createRule (db : Store) (body : AlertRule) : Except HttpError Store :=
  if serverFound db body.serverId then
    .ok { db with rules := db.rules.insert (fun id => { body with id }) body.key_with_id }
  else .error ⟨404, "Server not found"⟩

/-- `update_rule`. -/
def updateRule (db : Store) (ruleId : Nat) (body : AlertRuleUpdate) : Except HttpError Store :=
  if (db.rules.get? ruleId).isNone then .error ⟨404, "Rule not found"⟩
  else if serverFound db body.serverId.join then
    .ok { db with rules := db.rules.modify ruleId body.apply body.key_apply }
  else .error ⟨404, "Server not found"⟩

/-- `delete_rule`, with `ON DELETE SET NULL` of the events. -/
def deleteRule (db : Store) (ruleId : Nat) : Except HttpError Store :=
  if (db.rules.get? ruleId).isNone then .error ⟨404, "Rule not found"⟩
  else .ok { db with
    rules := db.rules.filter fun rule => rule.id ≠ ruleId
    events := db.events.map (detachRule ruleId) (key_detachRule ruleId) }

/-- The rules that go with a server by `ON DELETE CASCADE`. -/
def rulesOfServer (db : Store) (serverId : Nat) : List AlertRule :=
  db.rules.rows.filter fun rule => rule.serverId = some serverId

/-- `ON DELETE SET NULL` of the events of several rules. -/
def detachRules (rules : List AlertRule) (ev : AlertEvent) : AlertEvent :=
  if rules.any fun rule => ev.ruleId = some rule.id then { ev with ruleId := none } else ev

theorem key_detachRules (rules : List AlertRule) (ev : AlertEvent) :
    Keyed.key (detachRules rules ev) = Keyed.key ev := by
  unfold detachRules
  split <;> rfl

/-- `delete_server`. The server of an event is not a foreign key, so its events stay. -/
def deleteServer (db : Store) (serverId : Nat) : Except HttpError Store :=
  if (db.servers.get? serverId).isNone then .error ⟨404, "Server not found"⟩
  else .ok {
    rules := db.rules.filter fun rule => rule.serverId ≠ some serverId
    servers := db.servers.filter fun server => server.id ≠ serverId
    metrics := db.metrics.filter fun m => m.serverId ≠ serverId
    events := db.events.map (detachRules (rulesOfServer db serverId))
      (key_detachRules (rulesOfServer db serverId)) }

/-- A row of a server with everything but its id replaced, by whatever edits a server. -/
def editServer (new old : Server) : Server := { new with id := old.id }

theorem key_editServer (new old : Server) : Keyed.key (editServer new old) = Keyed.key old := rfl

/-- What happens to the tables. -/
inductive AdminAction
  | sample (m : ServerMetric)
  | purge (cutoff : Int)
  | detectorFired (env : Detectors.Environment) (detector : Text) (serverId : Nat)
      (serverName message : Text) (value threshold : ℚ) (key : Text)
  | detectorRecovered (env : Detectors.Environment) (detector : Text) (serverId : Nat) (key : Text)
  | sshRecovered (now : Int) (serverId : Nat)
  | pointEventsExpired (now : Int)
  | createRule (rule : AlertRule)
  | updateRule (ruleId : Nat) (body : AlertRuleUpdate)
  | deleteRule (ruleId : Nat)
  | createServer (server : Server)
  | updateServer (server : Server)
  | deleteServer (serverId : Nat)
  | ack (eventId : Nat) (username : Text) (now : Int)
  | resolve (eventId : Nat) (now : Int)
  | pass (env : Environment)

def storeAfter (db : Store) : AdminAction → Store
  | .sample m => { db with metrics := db.metrics.insert (fun id => { m with id }) m.key_with_id }
  | .purge cutoff => { db with metrics := db.metrics.filter fun m => cutoff ≤ m.collectedAt }
  | .detectorFired env detector serverId serverName message value threshold key =>
    { db with
      events := Detectors.fire env db.events detector serverId serverName message value threshold
        key }
  | .detectorRecovered env detector serverId key =>
    { db with events := Detectors.recover env db.events detector serverId key }
  | .sshRecovered now serverId =>
    { db with
      events := Notifier.closeAll now (Detectors.isOpenOf "SSH_FAULT" serverId) db.events }
  | .pointEventsExpired now =>
    { db with events := Notifier.closeAll now (Notifier.isExpired now) db.events }
  | .createRule rule => (createRule db rule).toOption.getD db
  | .updateRule ruleId body => (updateRule db ruleId body).toOption.getD db
  | .deleteRule ruleId => (deleteRule db ruleId).toOption.getD db
  | .createServer server =>
    { db with servers := db.servers.insert (fun id => { server with id }) server.key_with_id }
  | .updateServer server =>
    { db with
      servers := db.servers.modify server.id (editServer server) (key_editServer server) }
  | .deleteServer serverId => (deleteServer db serverId).toOption.getD db
  | .ack eventId username now =>
    { db with events := (ackEvent db.events eventId username now).toOption.getD db.events }
  | .resolve eventId now =>
    { db with events := (resolveEvent db.events eventId now).toOption.getD db.events }
  | .pass env => (evalAlerts env db).state

/-- The tables, and the ids of the events that user rules have raised. -/
structure Tracked where
  db : Store
  raised : List Nat
  deriving DecidableEq

/-- The ids of the rows that are new. -/
def newIds (before after : Table AlertEvent) : List Nat :=
  (after.rows.map AlertEvent.id).filter fun id => id ∉ before.rows.map AlertEvent.id

/-- The state after a pass that left `db`. -/
def Tracked.passed (s : Tracked) (db : Store) : Tracked :=
  ⟨db, s.raised ++ newIds s.db.events db.events⟩

def adminStep (s : Tracked) (a : AdminAction) : Option Tracked :=
  let db := storeAfter s.db a
  some (match a with
    | .pass _ => s.passed db
    | _ => { s with db })

/-- A run begins without events. -/
def AdminStart (s : Tracked) : Prop := s.db.events.rows = [] ∧ s.raised = []

/-- The rule of the event exists, is enabled and targets the server of the event, which exists and
is enabled. -/
structure OwnedBy (db : Store) (ev : AlertEvent) (rule : AlertRule) (server : Server) : Prop where
  ruleMem : rule ∈ db.rules.rows
  ruleId : ev.ruleId = some rule.id
  ruleEnabled : rule.enabled = true
  target : targets rule ev.serverId
  serverMem : server ∈ db.servers.rows
  serverId : server.id = ev.serverId
  serverEnabled : server.enabled = true

def Owned (db : Store) (ev : AlertEvent) : Prop := ∃ rule server, OwnedBy db ev rule server

/-- Every open event that a user rule raised still has its rule and server. -/
def AllOwned (s : Tracked) : Prop :=
  ∀ ev ∈ s.db.events.rows, ev.id ∈ s.raised → ev.isOpen = true → Owned s.db ev

/-- The step takes the rule or the server of the event away. -/
def takesAway (db : Store) (ev : AlertEvent) : AdminAction → Prop
  | .updateRule ruleId body => ev.ruleId = some ruleId ∧ serverFound db body.serverId.join = true ∧
    (body.enabled = some false ∨
      ∃ sid ∈ body.serverId.join, sid ≠ 0 ∧ sid ≠ ev.serverId)
  | .deleteRule ruleId => ev.ruleId = some ruleId
  | .updateServer server => ev.serverId = server.id ∧ server.enabled = false
  | .deleteServer serverId => (db.servers.get? serverId).isSome = true ∧
    (ev.serverId = serverId ∨ ∃ rule ∈ rulesOfServer db serverId, ev.ruleId = some rule.id)
  | _ => False

instance (db : Store) (ev : AlertEvent) (a : AdminAction) : Decidable (takesAway db ev a) := by
  cases a <;> unfold takesAway <;> infer_instance

/-- The step leaves alone the rule and the server of every open event that a rule raised. -/
def Keeps (s : Tracked) (a : AdminAction) : Prop :=
  ∀ ev ∈ s.db.events.rows, ev.id ∈ s.raised → ev.isOpen = true → ¬ takesAway s.db ev a

instance (s : Tracked) (a : AdminAction) : Decidable (Keeps s a) :=
  inferInstanceAs (Decidable (∀ ev ∈ s.db.events.rows, _))

/-! ## Owners -/

section Owned

variable {db db' : Store} {ev ev' : AlertEvent}

/-- An event with the same rule and server has the same owner, in any tables with more rows. -/
theorem Owned.mono (h : Owned db ev) (hRules : ∀ rule ∈ db.rules.rows, rule ∈ db'.rules.rows)
    (hServers : ∀ server ∈ db.servers.rows, server ∈ db'.servers.rows)
    (hRule : ev'.ruleId = ev.ruleId) (hServer : ev'.serverId = ev.serverId) : Owned db' ev' := by
  obtain ⟨rule, server, h⟩ := h
  refine ⟨rule, server, hRules rule h.ruleMem, hRule.trans h.ruleId, h.ruleEnabled, ?_,
    hServers server h.serverMem, h.serverId.trans hServer.symm, h.serverEnabled⟩
  rw [hServer]
  exact h.target

theorem apply_enabled_iff {body : AlertRuleUpdate} {rule : AlertRule}
    (hEnabled : rule.enabled = true) :
    (body.apply rule).enabled = true ↔ ¬ body.enabled = some false := by
  cases hSent : body.enabled with
  | none => simpa [AlertRuleUpdate.apply, hSent] using hEnabled
  | some enabled => simp [AlertRuleUpdate.apply, hSent]

theorem apply_targets_iff {body : AlertRuleUpdate} {rule : AlertRule} {sid : Nat}
    (hTarget : targets rule sid) :
    targets (body.apply rule) sid ↔ ¬ ∃ x ∈ body.serverId.join, x ≠ 0 ∧ x ≠ sid := by
  rcases hSent : body.serverId with _ | _ | x
  · refine iff_of_true ?_ ?_
    · simpa [AlertRuleUpdate.apply, targets, hSent] using hTarget
    · rintro ⟨x, hx, -⟩
      cases hx
  · refine iff_of_true ?_ ?_
    · exact .inl (by simp [AlertRuleUpdate.apply, hSent])
    · rintro ⟨x, hx, -⟩
      cases hx
  · simp [AlertRuleUpdate.apply, targets, hSent, imp_iff_not_or]

/-- An update of a rule takes an event's owner away exactly when it disables or retargets it. -/
theorem owned_updateRule_iff {ruleId : Nat} {body : AlertRuleUpdate} (h : Owned db ev)
    (hOk : updateRule db ruleId body = .ok db') :
    Owned db' ev ↔ ¬ takesAway db ev (.updateRule ruleId body) := by
  obtain ⟨rule, server, h⟩ := h
  unfold updateRule at hOk
  split at hOk
  · cases hOk
  split at hOk
  · rename_i hFound
    cases hOk
    by_cases hSame : rule.id = ruleId
    · have hEv : ev.ruleId = some ruleId := hSame ▸ h.ruleId
      have hAway : takesAway db ev (.updateRule ruleId body) ↔
          ¬ ((body.apply rule).enabled = true ∧ targets (body.apply rule) ev.serverId) := by
        rw [apply_enabled_iff h.ruleEnabled, apply_targets_iff h.target, not_and_or, not_not,
          not_not]
        exact ⟨fun hAway => hAway.2.2, fun hAway => ⟨hEv, hFound, hAway⟩⟩
      rw [hAway, not_not]
      constructor
      · rintro ⟨other, server', h'⟩
        have hMem : other ∈ (db.rules.modify ruleId body.apply body.key_apply).rows := h'.ruleMem
        rcases Table.mem_modify.mp hMem with ⟨-, hKey⟩ | ⟨old, hOld, hKey, rfl⟩
        · exact absurd (Option.some.inj (h'.ruleId.symm.trans hEv)) hKey
        · have hRule : old = rule := Table.eq_of_key_eq hOld h.ruleMem (hKey.trans hSame.symm)
          rw [← hRule]
          exact ⟨h'.ruleEnabled, h'.target⟩
      · rintro ⟨hEnabled, hTarget⟩
        have hMem : body.apply rule ∈ (db.rules.modify ruleId body.apply body.key_apply).rows :=
          Table.mem_modify.mpr (.inr ⟨rule, h.ruleMem, hSame, rfl⟩)
        exact ⟨body.apply rule, server, hMem, h.ruleId, hEnabled, hTarget, h.serverMem, h.serverId,
          h.serverEnabled⟩
    · refine iff_of_true ?_ ?_
      · have hMem : rule ∈ (db.rules.modify ruleId body.apply body.key_apply).rows :=
          Table.mem_modify.mpr (.inl ⟨h.ruleMem, hSame⟩)
        exact ⟨rule, server, hMem, h.ruleId, h.ruleEnabled, h.target, h.serverMem, h.serverId,
          h.serverEnabled⟩
      · rintro ⟨hEv, -⟩
        exact hSame (Option.some.inj (h.ruleId.symm.trans hEv))
  · cases hOk

theorem owned_deleteRule_iff {ruleId : Nat} (h : Owned db ev)
    (hOk : deleteRule db ruleId = .ok db') :
    Owned db' (detachRule ruleId ev) ↔ ¬ takesAway db ev (.deleteRule ruleId) := by
  obtain ⟨rule, server, h⟩ := h
  unfold deleteRule at hOk
  split at hOk
  · cases hOk
  cases hOk
  change _ ↔ ¬ ev.ruleId = some ruleId
  unfold detachRule
  split
  · rename_i hGone
    refine iff_of_false ?_ (not_not_intro hGone)
    rintro ⟨other, server', h'⟩
    cases h'.ruleId
  · rename_i hStays
    refine iff_of_true ?_ hStays
    refine ⟨rule, server, Table.mem_filter.mpr ⟨h.ruleMem, decide_eq_true ?_⟩, h.ruleId,
      h.ruleEnabled, h.target, h.serverMem, h.serverId, h.serverEnabled⟩
    intro hSame
    exact hStays (h.ruleId.trans (congrArg some hSame))

theorem owned_updateServer_iff {server : Server} (h : Owned db ev) :
    Owned (storeAfter db (.updateServer server)) ev ↔
      ¬ takesAway db ev (.updateServer server) := by
  obtain ⟨rule, old, h⟩ := h
  change _ ↔ ¬ (ev.serverId = server.id ∧ server.enabled = false)
  by_cases hSame : ev.serverId = server.id
  · rw [not_and, imp_iff_right hSame, Bool.not_eq_false]
    constructor
    · rintro ⟨other, server', h'⟩
      have hMem : server' ∈
          (db.servers.modify server.id (editServer server) (key_editServer server)).rows :=
        h'.serverMem
      rcases Table.mem_modify.mp hMem with ⟨-, hKey⟩ | ⟨a, -, -, rfl⟩
      · exact absurd (h'.serverId.trans hSame) hKey
      · exact h'.serverEnabled
    · intro hEnabled
      have hMem : editServer server old ∈
          (db.servers.modify server.id (editServer server) (key_editServer server)).rows :=
        Table.mem_modify.mpr (.inr ⟨old, h.serverMem, h.serverId.trans hSame, rfl⟩)
      exact ⟨rule, editServer server old, h.ruleMem, h.ruleId, h.ruleEnabled, h.target, hMem,
        h.serverId, hEnabled⟩
  · refine iff_of_true ?_ fun hAway => hSame hAway.1
    have hMem : old ∈
        (db.servers.modify server.id (editServer server) (key_editServer server)).rows :=
      Table.mem_modify.mpr (.inl ⟨h.serverMem, fun hKey => hSame (h.serverId.symm.trans hKey)⟩)
    exact ⟨rule, old, h.ruleMem, h.ruleId, h.ruleEnabled, h.target, hMem, h.serverId,
      h.serverEnabled⟩

theorem owned_deleteServer_iff {serverId : Nat} (h : Owned db ev)
    (hOk : deleteServer db serverId = .ok db') :
    Owned db' (detachRules (rulesOfServer db serverId) ev) ↔
      ¬ takesAway db ev (.deleteServer serverId) := by
  obtain ⟨rule, server, h⟩ := h
  unfold deleteServer at hOk
  split at hOk
  · cases hOk
  rename_i hFound
  cases hOk
  have hFound : (db.servers.get? serverId).isSome = true := by
    rwa [Option.isNone_iff_eq_none, ← ne_eq, ← Option.isSome_iff_ne_none] at hFound
  have hAny : ((rulesOfServer db serverId).any fun rule => ev.ruleId = some rule.id) = true ↔
      ∃ rule ∈ rulesOfServer db serverId, ev.ruleId = some rule.id := by
    simp only [List.any_eq_true, decide_eq_true_eq]
  have hAway : takesAway db ev (.deleteServer serverId) ↔ ev.serverId = serverId ∨
      ∃ rule ∈ rulesOfServer db serverId, ev.ruleId = some rule.id := and_iff_right hFound
  rw [hAway, not_or, ← hAny]
  unfold detachRules
  split
  · rename_i hGone
    refine iff_of_false ?_ fun hStays => hStays.2 hGone
    rintro ⟨other, server', h'⟩
    cases h'.ruleId
  · rename_i hStays
    rw [and_iff_left hStays]
    constructor
    · rintro ⟨other, server', h'⟩ hSame
      have hNe := of_decide_eq_true (Table.mem_filter.mp h'.serverMem).2
      exact hNe (h'.serverId.trans hSame)
    · intro hOther
      refine ⟨rule, server, Table.mem_filter.mpr ⟨h.ruleMem, decide_eq_true ?_⟩, h.ruleId,
        h.ruleEnabled, h.target, Table.mem_filter.mpr ⟨h.serverMem, decide_eq_true ?_⟩, h.serverId,
        h.serverEnabled⟩
      · intro hOwn
        refine hStays (hAny.mpr ⟨rule, ?_, h.ruleId⟩)
        exact List.mem_filter.mpr ⟨h.ruleMem, decide_eq_true hOwn⟩
      · rw [h.serverId]
        exact hOther

end Owned

/-! ## Passes -/

/-- What a pass over `db` does to the open events: those it opens and those it closes are owned. -/
structure PassKept (db : Store) (events events' : Table AlertEvent) : Prop where
  grows : events.nextKey ≤ events'.nextKey
  old : ∀ ev ∈ events'.rows, ev.isOpen = true → ev ∈ events.rows ∨ Owned db ev
  lost : ∀ ev ∈ events.rows, ev.isOpen = true → ev ∈ events'.rows ∨ Owned db ev

section Pass

variable {env : Environment} {db : Store} {rule : AlertRule} {sid ruleId : Nat}
  {events events' events'' : Table AlertEvent}

theorem PassKept.refl : PassKept db events events :=
  ⟨le_rfl, fun _ hev _ => .inl hev, fun _ hev _ => .inl hev⟩

theorem PassKept.trans (h : PassKept db events events') (h' : PassKept db events' events'') :
    PassKept db events events'' := by
  refine ⟨h.grows.trans h'.grows, fun ev hev hOpen => ?_, fun ev hev hOpen => ?_⟩
  · rcases h'.old ev hev hOpen with hMem | hOwned
    · exact h.old ev hMem hOpen
    · exact .inr hOwned
  · rcases h.lost ev hev hOpen with hMem | hOwned
    · exact h'.lost ev hMem hOpen
    · exact .inr hOwned

theorem PairEffect.passKept (h : PairEffect ruleId sid events events')
    (hOwned : ∀ ev, openFor ruleId sid ev = true → Owned db ev) : PassKept db events events' := by
  cases h with
  | same => exact .refl
  | @opened new hKey hNone hNew =>
    refine ⟨Table.nextKey_lt_insert.le, fun ev hev _ => ?_, fun ev hev _ => ?_⟩
    · rcases Table.mem_insert.mp hev with hOld | rfl
      · exact .inl hOld
      · exact .inr (hOwned _ (hNew _))
    · exact .inl (Table.mem_insert.mpr (.inl hev))
  | @closed closed t hMem hOpen =>
    refine ⟨Table.nextKey_modify.ge, fun ev hev hStill => ?_, fun ev hev _ => ?_⟩
    · rcases Table.mem_modify.mp hev with ⟨hOld, -⟩ | ⟨a, -, -, rfl⟩
      · exact .inl hOld
      · cases hStill
    · by_cases hSame : ev.id = closed.id
      · have hEq : ev = closed := Table.eq_of_key_eq hev hMem hSame
        exact .inr (hOwned ev (hEq ▸ hOpen))
      · exact .inl (Table.mem_modify.mpr (.inl ⟨hev, hSame⟩))

/-- A server that a pass looks at is enabled. -/
theorem enabled_of_latest {m : ServerMetric} (h : (latestByServer db).get? sid = some m) :
    ∃ server ∈ db.servers.rows, server.id = sid ∧ server.enabled = true := by
  rw [latestByServer, Dict.get?_ofList_map] at h
  obtain ⟨hRow, hOwn⟩ := List.mem_filter.mp (List.mem_of_getLast? h)
  have hOwn : m.serverId = sid := of_decide_eq_true hOwn
  obtain ⟨-, hListed, -, -⟩ := mem_latestRows.mp hRow
  obtain ⟨server, hServer, hId⟩ := List.mem_map.mp hListed
  obtain ⟨hMem, hEnabled⟩ := List.mem_filter.mp hServer
  exact ⟨server, hMem, hId.trans hOwn, hEnabled⟩

theorem evalPair_of_not_latest (h : (latestByServer db).get? sid = none) :
    (evalPair env db rule sid events).state = events := by
  unfold evalPair
  rw [h]
  split <;> rfl

theorem targets_of_mem_pairs (h : (rule, sid) ∈ pairs db) :
    rule ∈ db.rules.rows ∧ rule.enabled = true ∧ targets rule sid := by
  obtain ⟨rule', hRule, hPair⟩ := List.mem_flatMap.mp h
  obtain ⟨sid', hSid, hEq⟩ := List.mem_map.mp hPair
  obtain ⟨rfl, rfl⟩ := Prod.mk.inj hEq
  obtain ⟨hMem, hEnabled⟩ := List.mem_filter.mp hRule
  refine ⟨hMem, hEnabled, ?_⟩
  unfold targetIds at hSid
  unfold targets
  split at hSid
  · rename_i hSome
    rw [List.mem_singleton] at hSid
    rw [hSid]
    exact .inr (.inr hSome)
  · rename_i hNot
    rcases hServer : rule'.serverId with _ | _ | n
    · exact .inl rfl
    · exact .inr (.inl rfl)
    · exact absurd hServer (hNot n)

theorem evalPair_passKept (h : (rule, sid) ∈ pairs db) :
    PassKept db events (evalPair env db rule sid events).state := by
  obtain ⟨hRule, hEnabled, hTarget⟩ := targets_of_mem_pairs h
  cases hLatest : (latestByServer db).get? sid with
  | none =>
    rw [evalPair_of_not_latest hLatest]
    exact .refl
  | some m =>
    obtain ⟨server, hServer, hId, hServerEnabled⟩ := enabled_of_latest hLatest
    refine evalPair_effect.passKept fun ev hOpen => ?_
    obtain ⟨hOf, hAt, -⟩ := openFor_iff.mp hOpen
    refine ⟨rule, server, hRule, hOf, hEnabled, ?_, hServer, hId.trans hAt.symm, hServerEnabled⟩
    rw [hAt]
    exact hTarget

theorem evalPairs_passKept {ps : List (AlertRule × Nat)} (h : ∀ p ∈ ps, p ∈ pairs db) :
    PassKept db events (evalPairs env db ps events).state := by
  induction ps generalizing events with
  | nil => exact .refl
  | cons p rest ih =>
    obtain ⟨rule, sid⟩ := p
    obtain ⟨hHead, hRest⟩ := List.forall_mem_cons.mp h
    have hPair : PassKept db events (evalPair env db rule sid events).state :=
      evalPair_passKept hHead
    unfold evalPairs
    split
    · rename_i events₁ hResult
      rw [hResult] at hPair
      exact hPair.trans (ih hRest)
    · rename_i events₁ hResult
      rw [hResult] at hPair
      exact hPair

/-- A pass changes the events only. -/
theorem evalAlerts_passKept : (evalAlerts env db).state =
      { db with events := (evalAlerts env db).state.events } ∧
    PassKept db db.events (evalAlerts env db).state.events := by
  have hKept : PassKept db db.events (evalPairs env db (pairs db) db.events).state :=
    evalPairs_passKept fun _ hp => hp
  unfold evalAlerts
  split
  · rename_i events hResult
    rw [hResult] at hKept
    exact ⟨rfl, hKept⟩
  · rename_i events hResult
    rw [hResult] at hKept
    exact ⟨rfl, hKept⟩

end Pass

theorem mem_newIds {before after : Table AlertEvent} {id : Nat} :
    id ∈ newIds before after ↔
      (∃ ev ∈ after.rows, ev.id = id) ∧ ¬ ∃ ev ∈ before.rows, ev.id = id := by
  simp [newIds]

theorem owned_events_iff {db : Store} {events : Table AlertEvent} {ev : AlertEvent} :
    Owned { db with events } ev ↔ Owned db ev :=
  ⟨fun h => h.mono (fun _ hr => hr) (fun _ hs => hs) rfl rfl,
    fun h => h.mono (fun _ hr => hr) (fun _ hs => hs) rfl rfl⟩

/-- After a pass every open event of a rule has its owner exactly when all had theirs before. -/
theorem pass_allOwned_iff {env : Environment} {s : Tracked} :
    AllOwned (s.passed (evalAlerts env s.db).state) ↔ AllOwned s := by
  have hPass : (evalAlerts env s.db).state = _ ∧ PassKept s.db s.db.events _ :=
    evalAlerts_passKept
  obtain ⟨hSame, hKept⟩ := hPass
  generalize (evalAlerts env s.db).state.events = events' at hSame hKept
  rw [hSame]
  constructor
  · intro hAll ev hev hRaised hOpen
    rcases hKept.lost ev hev hOpen with hMem | hOwned
    · exact owned_events_iff.mp (hAll ev hMem (List.mem_append_left _ hRaised) hOpen)
    · exact hOwned
  · intro hAll ev hev hRaised hOpen
    refine owned_events_iff.mpr ?_
    rcases hKept.old ev hev hOpen with hMem | hOwned
    · refine hAll ev hMem ?_ hOpen
      rcases List.mem_append.mp hRaised with hOld | hNew
      · exact hOld
      · exact absurd ⟨ev, hMem, rfl⟩ (mem_newIds.mp hNew).2
    · exact hOwned

/-! ## The other steps -/

/-- What the steps other than a pass, and other than the deletion of a rule, do to the events: what
is open after them is new, or was open before with the same rule and server. -/
structure Touched (events events' : Table AlertEvent) : Prop where
  grows : events.nextKey ≤ events'.nextKey
  rows : ∀ ev' ∈ events'.rows, ev'.isOpen = true → events.nextKey ≤ ev'.id ∨
    ∃ ev ∈ events.rows, ev.id = ev'.id ∧ ev.isOpen = true ∧ ev'.ruleId = ev.ruleId ∧
      ev'.serverId = ev.serverId

section Touched

variable {events : Table AlertEvent}

theorem Touched.refl : Touched events events :=
  ⟨le_rfl, fun ev hev hOpen => .inr ⟨ev, hev, rfl, hOpen, rfl, rfl⟩⟩

theorem touched_map {f : AlertEvent → AlertEvent} {hKey : ∀ ev, Keyed.key (f ev) = Keyed.key ev}
    (hRule : ∀ ev, (f ev).ruleId = ev.ruleId) (hServer : ∀ ev, (f ev).serverId = ev.serverId)
    (hOpen : ∀ ev, (f ev).isOpen = true → ev.isOpen = true) :
    Touched events (events.map f hKey) := by
  refine ⟨Table.nextKey_map.ge, fun ev' hev' hStill => .inr ?_⟩
  obtain ⟨ev, hev, rfl⟩ := Table.mem_map.mp hev'
  exact ⟨ev, hev, (hKey ev).symm, hOpen ev hStill, hRule ev, hServer ev⟩

theorem touched_modify {k : Nat} {f : AlertEvent → AlertEvent}
    (hKey : ∀ ev, Keyed.key (f ev) = Keyed.key ev) (hRule : ∀ ev, (f ev).ruleId = ev.ruleId)
    (hServer : ∀ ev, (f ev).serverId = ev.serverId)
    (hOpen : ∀ ev, (f ev).isOpen = true → ev.isOpen = true) :
    Touched events (events.modify k f hKey) := by
  refine touched_map (fun ev => ?_) (fun ev => ?_) fun ev => ?_ <;> split
  · exact hRule ev
  · rfl
  · exact hServer ev
  · rfl
  · exact hOpen ev
  · exact fun hStill => hStill

theorem touched_close {k : Nat} {now : Int} : Touched events
    (events.modify k (fun ev => { ev with recoveredAt := some now }) fun _ => rfl) :=
  touched_modify _ (fun _ => rfl) (fun _ => rfl) fun _ hStill => absurd hStill Bool.false_ne_true

theorem touched_closeAll {now : Int} {query : AlertEvent → Bool} :
    Touched events (Notifier.closeAll now query events) := by
  refine touched_map (fun ev => ?_) (fun ev => ?_) fun ev => ?_ <;> split
  · rfl
  · rfl
  · rfl
  · rfl
  · exact fun hStill => absurd hStill Bool.false_ne_true
  · exact fun hStill => hStill

theorem touched_fire {env : Detectors.Environment} {detector serverName message key : Text}
    {serverId : Nat} {value threshold : ℚ} : Touched events
    (Detectors.fire env events detector serverId serverName message value threshold key) := by
  unfold Detectors.fire
  split
  · exact .refl
  · refine ⟨Table.nextKey_lt_insert.le, fun ev hev hOpen => ?_⟩
    rcases Table.mem_insert.mp hev with hOld | rfl
    · exact .inr ⟨ev, hOld, rfl, hOpen, rfl, rfl⟩
    · exact .inl le_rfl

theorem touched_recover {env : Detectors.Environment} {detector key : Text} {serverId : Nat} :
    Touched events (Detectors.recover env events detector serverId key) := by
  unfold Detectors.recover
  split
  · exact .refl
  · exact touched_close

theorem touched_ack {eventId : Nat} {username : Text} {now : Int} :
    Touched events ((ackEvent events eventId username now).toOption.getD events) := by
  unfold ackEvent
  split
  · exact .refl
  split
  · exact .refl
  split
  · exact .refl
  · dsimp only [Except.toOption, Option.getD]
    exact touched_modify _ (fun _ => rfl) (fun _ => rfl) fun _ hStill => hStill

theorem touched_resolve {eventId : Nat} {now : Int} :
    Touched events ((resolveEvent events eventId now).toOption.getD events) := by
  unfold resolveEvent
  split
  · exact .refl
  split
  · exact .refl
  · exact touched_close

end Touched

/-- The ids that rules have raised are ids of events. -/
def RaisedKnown (s : Tracked) : Prop := ∀ id ∈ s.raised, id < s.db.events.nextKey

theorem nextKey_storeAfter {db : Store} {a : AdminAction} :
    db.events.nextKey ≤ (storeAfter db a).events.nextKey := by
  cases a with
  | sample _ | purge _ | createServer _ | updateServer _ => exact le_rfl
  | detectorFired _ _ _ _ _ _ _ _ => exact touched_fire.grows
  | detectorRecovered _ _ _ _ => exact touched_recover.grows
  | sshRecovered _ _ => exact touched_closeAll.grows
  | pointEventsExpired _ => exact touched_closeAll.grows
  | createRule _ =>
    dsimp only [storeAfter, createRule]
    split <;> exact le_rfl
  | updateRule _ _ =>
    dsimp only [storeAfter, updateRule]
    split
    · exact le_rfl
    split <;> exact le_rfl
  | deleteRule ruleId =>
    have hMap : (db.events.map (detachRule ruleId) (key_detachRule ruleId)).nextKey =
      db.events.nextKey := Table.nextKey_map
    dsimp only [storeAfter, deleteRule]
    split
    · exact le_rfl
    · exact hMap.ge
  | deleteServer serverId =>
    have hMap : (db.events.map (detachRules (rulesOfServer db serverId))
      (key_detachRules (rulesOfServer db serverId))).nextKey = db.events.nextKey :=
      Table.nextKey_map
    dsimp only [storeAfter, deleteServer]
    split
    · exact le_rfl
    · exact hMap.ge
  | ack _ _ _ => exact touched_ack.grows
  | resolve _ _ => exact touched_resolve.grows
  | pass _ => exact evalAlerts_passKept.2.grows

section Step

variable {s s' : Tracked} {a : AdminAction}

theorem adminStep_eq_some (h : adminStep s a = some s') : s'.db = storeAfter s.db a ∧
    ((∃ env, a = .pass env ∧ s' = s.passed (storeAfter s.db a)) ∨ s'.raised = s.raised) := by
  cases a with
  | pass env =>
    cases h
    exact ⟨rfl, .inl ⟨env, rfl, rfl⟩⟩
  | _ =>
    cases h
    exact ⟨rfl, .inr rfl⟩

theorem raisedKnown_step (hKnown : RaisedKnown s) (h : adminStep s a = some s') :
    RaisedKnown s' := by
  intro id hid
  obtain ⟨hDb, hPass | hSame⟩ := adminStep_eq_some h
  · obtain ⟨env, -, rfl⟩ := hPass
    rcases List.mem_append.mp hid with hOld | hNew
    · exact (hKnown id hOld).trans_le nextKey_storeAfter
    · obtain ⟨⟨ev, hev, rfl⟩, -⟩ := mem_newIds.mp hNew
      exact Table.lt_nextKey hev
  · rw [hSame] at hid
    rw [hDb]
    exact (hKnown id hid).trans_le nextKey_storeAfter

theorem allOwned_of_touched {db' : Store} (hKnown : RaisedKnown s) (hAll : AllOwned s)
    (hEvents : Touched s.db.events db'.events)
    (hRules : ∀ rule ∈ s.db.rules.rows, rule ∈ db'.rules.rows)
    (hServers : ∀ server ∈ s.db.servers.rows, server ∈ db'.servers.rows) :
    AllOwned { s with db := db' } := by
  intro ev' hev' hRaised hOpen'
  rcases hEvents.rows ev' hev' hOpen' with hNew | ⟨ev, hev, hId, hOpen, hRule, hServer⟩
  · exact absurd (hKnown ev'.id hRaised) (by omega)
  · exact (hAll ev hev (hId ▸ hRaised) hOpen).mono hRules hServers hRule hServer

theorem allOwned_iff_keeps {db' : Store} {f : AlertEvent → AlertEvent}
    {hKey : ∀ ev, Keyed.key (f ev) = Keyed.key ev} (hAll : AllOwned s)
    (hEvents : db'.events = s.db.events.map f hKey) (hOpen : ∀ ev, (f ev).isOpen = ev.isOpen)
    (hOwned : ∀ ev, Owned s.db ev → (Owned db' (f ev) ↔ ¬ takesAway s.db ev a)) :
    AllOwned { s with db := db' } ↔ Keeps s a := by
  unfold AllOwned Keeps
  dsimp only
  rw [hEvents]
  constructor
  · intro hAfter ev hev hRaised hIsOpen
    refine (hOwned ev (hAll ev hev hRaised hIsOpen)).mp ?_
    have hId : (f ev).id = ev.id := hKey ev
    exact hAfter (f ev) (Table.mem_map.mpr ⟨ev, hev, rfl⟩) (hId.symm ▸ hRaised)
      ((hOpen ev).trans hIsOpen)
  · intro hKeeps ev' hev' hRaised hIsOpen
    obtain ⟨ev, hev, rfl⟩ := Table.mem_map.mp hev'
    have hId : (f ev).id = ev.id := hKey ev
    have hRaised : ev.id ∈ s.raised := hId ▸ hRaised
    have hIsOpen : ev.isOpen = true := (hOpen ev).symm.trans hIsOpen
    exact (hOwned ev (hAll ev hev hRaised hIsOpen)).mpr (hKeeps ev hev hRaised hIsOpen)

/-- A request that is refused changes nothing, and takes no owner away. -/
theorem allOwned_request_iff {answer : Except HttpError Store} (hAll : AllOwned s)
    (hAfter : storeAfter s.db a = answer.toOption.getD s.db)
    (hOk : ∀ db', answer = .ok db' → (AllOwned { s with db := db' } ↔ Keeps s a))
    (hError : ∀ e, answer = .error e → ∀ ev, Owned s.db ev → ¬ takesAway s.db ev a) :
    AllOwned { s with db := storeAfter s.db a } ↔ Keeps s a := by
  rw [hAfter]
  cases hAnswer : answer with
  | ok db' => exact hOk db' hAnswer
  | error e =>
    exact iff_of_true hAll fun ev hev hRaised hOpen =>
      hError e hAnswer ev (hAll ev hev hRaised hOpen)

theorem OwnedBy.rule_known {db : Store} {ev : AlertEvent} {rule : AlertRule} {server : Server}
    {ruleId : Nat} (h : OwnedBy db ev rule server) (hRule : ev.ruleId = some ruleId) :
    ¬ (db.rules.get? ruleId).isNone = true := by
  have hSame : rule.id = ruleId := Option.some.inj (h.ruleId.symm.trans hRule)
  rw [← hSame, Option.isNone_iff_eq_none, ← ne_eq, ← Option.isSome_iff_ne_none]
  exact Table.isSome_get? h.ruleMem

theorem allOwned_updateRule_iff {ruleId : Nat} {body : AlertRuleUpdate} (hAll : AllOwned s) :
    AllOwned { s with db := storeAfter s.db (.updateRule ruleId body) } ↔
      Keeps s (.updateRule ruleId body) := by
  refine allOwned_request_iff hAll rfl ?_ ?_
  · intro db' hOk
    have hEvents : db'.events = s.db.events.map id fun _ => rfl := by
      unfold updateRule at hOk
      split at hOk
      · cases hOk
      split at hOk <;> cases hOk
      exact Table.ext_rows (List.map_id _).symm
    exact allOwned_iff_keeps hAll hEvents (fun _ => rfl) fun ev hOwned =>
      owned_updateRule_iff hOwned hOk
  · rintro e hError ev ⟨rule, server, h⟩ ⟨hRule, hFound, -⟩
    unfold updateRule at hError
    rw [if_neg (h.rule_known hRule), if_pos hFound] at hError
    cases hError

theorem allOwned_deleteRule_iff {ruleId : Nat} (hAll : AllOwned s) :
    AllOwned { s with db := storeAfter s.db (.deleteRule ruleId) } ↔
      Keeps s (.deleteRule ruleId) := by
  refine allOwned_request_iff hAll rfl ?_ ?_
  · intro db' hOk
    have hEvents : db'.events = s.db.events.map (detachRule ruleId) (key_detachRule ruleId) := by
      unfold deleteRule at hOk
      split at hOk <;> cases hOk
      rfl
    refine allOwned_iff_keeps hAll hEvents (fun ev => ?_) fun ev hOwned =>
      owned_deleteRule_iff hOwned hOk
    unfold detachRule
    split <;> rfl
  · rintro e hError ev ⟨rule, server, h⟩ hRule
    unfold deleteRule at hError
    rw [if_neg (h.rule_known hRule)] at hError
    cases hError

theorem allOwned_updateServer_iff {server : Server} (hAll : AllOwned s) :
    AllOwned { s with db := storeAfter s.db (.updateServer server) } ↔
      Keeps s (.updateServer server) := by
  have hEvents : (storeAfter s.db (.updateServer server)).events =
      s.db.events.map id fun _ => rfl := Table.ext_rows (List.map_id _).symm
  exact allOwned_iff_keeps hAll hEvents (fun _ => rfl) fun ev hOwned =>
    owned_updateServer_iff hOwned

theorem allOwned_deleteServer_iff {serverId : Nat} (hAll : AllOwned s) :
    AllOwned { s with db := storeAfter s.db (.deleteServer serverId) } ↔
      Keeps s (.deleteServer serverId) := by
  refine allOwned_request_iff hAll rfl ?_ ?_
  · intro db' hOk
    have hEvents : db'.events = s.db.events.map (detachRules (rulesOfServer s.db serverId))
        (key_detachRules (rulesOfServer s.db serverId)) := by
      unfold deleteServer at hOk
      split at hOk <;> cases hOk
      rfl
    refine allOwned_iff_keeps hAll hEvents (fun ev => ?_) fun ev hOwned =>
      owned_deleteServer_iff hOwned hOk
    unfold detachRules
    split <;> rfl
  · rintro e hError ev - ⟨hFound, -⟩
    have hKnown : ¬ (s.db.servers.get? serverId).isNone = true := by
      rwa [Option.isNone_iff_eq_none, ← ne_eq, ← Option.isSome_iff_ne_none]
    unfold deleteServer at hError
    rw [if_neg hKnown] at hError
    cases hError

/-- After a step from a state in which every open event has its owner, every open event has its
owner exactly when the step left alone what has an event open. -/
theorem allOwned_step_iff (hKnown : RaisedKnown s) (hAll : AllOwned s)
    (h : adminStep s a = some s') : AllOwned s' ↔ Keeps s a := by
  have hNone : (∀ ev, ¬ takesAway s.db ev a) → Keeps s a := fun hNot ev _ _ _ => hNot ev
  have hTouched : Touched s.db.events (storeAfter s.db a).events →
      (∀ rule ∈ s.db.rules.rows, rule ∈ (storeAfter s.db a).rules.rows) →
      (∀ server ∈ s.db.servers.rows, server ∈ (storeAfter s.db a).servers.rows) →
      (∀ ev, ¬ takesAway s.db ev a) →
      (AllOwned { s with db := storeAfter s.db a } ↔ Keeps s a) :=
    fun hEvents hRules hServers hNot =>
      iff_of_true (allOwned_of_touched hKnown hAll hEvents hRules hServers) (hNone hNot)
  cases a with
  | sample m =>
    cases h
    exact hTouched .refl (fun _ hr => hr) (fun _ hs => hs) fun _ => id
  | purge cutoff =>
    cases h
    exact hTouched .refl (fun _ hr => hr) (fun _ hs => hs) fun _ => id
  | detectorFired env detector serverId serverName message value threshold key =>
    cases h
    exact hTouched touched_fire (fun _ hr => hr) (fun _ hs => hs) fun _ => id
  | detectorRecovered env detector serverId key =>
    cases h
    exact hTouched touched_recover (fun _ hr => hr) (fun _ hs => hs) fun _ => id
  | sshRecovered now serverId =>
    cases h
    exact hTouched touched_closeAll (fun _ hr => hr) (fun _ hs => hs) fun _ => id
  | pointEventsExpired now =>
    cases h
    exact hTouched touched_closeAll (fun _ hr => hr) (fun _ hs => hs) fun _ => id
  | createRule rule =>
    cases h
    refine hTouched ?_ (fun old hOld => ?_) (fun server hServer => ?_) fun _ => id <;>
      dsimp only [storeAfter, createRule] <;> split
    · exact .refl
    · exact .refl
    · exact Table.mem_insert.mpr (.inl hOld)
    · exact hOld
    · exact hServer
    · exact hServer
  | updateRule ruleId body =>
    cases h
    exact allOwned_updateRule_iff hAll
  | deleteRule ruleId =>
    cases h
    exact allOwned_deleteRule_iff hAll
  | createServer server =>
    cases h
    exact hTouched .refl (fun _ hr => hr) (fun _ hs => Table.mem_insert.mpr (.inl hs)) fun _ => id
  | updateServer server =>
    cases h
    exact allOwned_updateServer_iff hAll
  | deleteServer serverId =>
    cases h
    exact allOwned_deleteServer_iff hAll
  | ack eventId username now =>
    cases h
    exact hTouched touched_ack (fun _ hr => hr) (fun _ hs => hs) fun _ => id
  | resolve eventId now =>
    cases h
    exact hTouched touched_resolve (fun _ hr => hr) (fun _ hs => hs) fun _ => id
  | pass env =>
    cases h
    exact iff_of_true (pass_allOwned_iff.mpr hAll) (hNone fun _ => id)

end Step

/-! ## Runs -/

theorem raisedKnown_of_reach {ok : Tracked → AdminAction → Prop} {s : Tracked}
    (h : Runs.Reach adminStep AdminStart ok s) : RaisedKnown s := by
  refine h.invariant (I := RaisedKnown) ?_ fun _ _ _ hI _ hStep => raisedKnown_step hI hStep
  rintro s ⟨-, hNone⟩ id hid
  rw [hNone] at hid
  cases hid

theorem allOwned_of_reach {s : Tracked} (h : Runs.Reach adminStep AdminStart Keeps s) :
    AllOwned s := by
  refine h.invariant_of (I := AllOwned) (J := RaisedKnown) (fun _ => raisedKnown_of_reach) ?_ ?_
  · rintro s ⟨hNone, -⟩ ev hev
    rw [hNone] at hev
    cases hev
  · intro s a s' hKnown _ hAll hKeeps hStep
    exact (allOwned_step_iff hKnown hAll hStep).mpr hKeeps

/-- In a run whose steps all leave alone what has an event open, each open event that a rule raised
has its rule and its server, in every state; and after one more step and a completed pass this is
so if and only if that step left them alone too. -/
theorem open_events_owned_iff {s : Tracked} (hReach : Runs.Reach adminStep AdminStart Keeps s) :
    AllOwned s ∧ ∀ a s' env db', adminStep s a = some s' →
      evalAlerts env s'.db = .completed db' → (AllOwned (s'.passed db') ↔ Keeps s a) := by
  have hAll := allOwned_of_reach hReach
  refine ⟨hAll, fun a s' env db' hStep hPass => ?_⟩
  have hState : (evalAlerts env s'.db).state = db' := by
    rw [hPass]
    rfl
  rw [← hState, pass_allOwned_iff]
  exact allOwned_step_iff (raisedKnown_of_reach hReach) hAll hStep

/-! The server that ran hot has cooled down, and the event is still open. -/

def cooledTracked : Tracked := ⟨cooledStore hotEvent, [1]⟩

theorem cooledTracked_reached : Runs.Reach adminStep AdminStart Keeps cooledTracked := by
  obtain ⟨s, hReach, rfl⟩ :
      ∃ s, Runs.Reach adminStep AdminStart Keeps s ∧ s = cooledTracked :=
    Runs.Reach.exists_of_exec (s := ⟨default, []⟩)
      [.createServer hotServer, .createRule tempRule, .sample (tempSample 0 1700000000 90),
        .pass sampleEnvironment, .sample (tempSample 0 1700000060 60)]
      ⟨rfl, rfl⟩ (by decide +kernel)
  exact hReach

theorem open_events_owned_iff_cooled :
    AllOwned cooledTracked ∧
      (AllOwned (cooledTracked.passed
        (cooledStore { hotEvent with recoveredAt := some (seconds 1700000005) })) ↔
          Keeps cooledTracked (.purge 0)) := by
  obtain ⟨hAll, hNext⟩ := open_events_owned_iff cooledTracked_reached
  have hStep : adminStep cooledTracked (.purge 0) = some cooledTracked := by decide +kernel
  exact ⟨hAll, hNext _ _ sampleEnvironment _ hStep (by decide +kernel)⟩

/-- The rule is disabled or deleted, or the server is. -/
def strandingSteps : List AdminAction :=
  [.updateRule 1 { enabled := some false }, .deleteRule 1,
    .updateServer { hotServer with enabled := false }, .deleteServer 1]

theorem stranded {a : AdminAction} (ha : a ∈ strandingSteps) :
    ∃ s db', Runs.Reach adminStep AdminStart Runs.Always s ∧
      adminStep cooledTracked a = some s ∧ evalAlerts sampleEnvironment s.db = .completed db' ∧
        ¬ AllOwned (s.passed db') := by
  have hLost : ∀ a ∈ strandingSteps, ¬ Keeps cooledTracked a := by decide +kernel
  have hCompleted : ∀ a ∈ strandingSteps,
      evalAlerts sampleEnvironment (storeAfter cooledTracked.db a) =
        .completed (evalAlerts sampleEnvironment (storeAfter cooledTracked.db a)).state := by
    decide +kernel
  have hReach : Runs.Reach adminStep AdminStart Runs.Always cooledTracked :=
    cooledTracked_reached.mono fun _ _ _ => trivial
  have hKnown : RaisedKnown cooledTracked := raisedKnown_of_reach hReach
  obtain ⟨s, hStep⟩ : ∃ s, adminStep cooledTracked a = some s := ⟨_, rfl⟩
  have hPass := hCompleted a ha
  rw [← (adminStep_eq_some hStep).1] at hPass
  refine ⟨s, _, hReach.next trivial hStep, hStep, hPass, ?_⟩
  rw [pass_allOwned_iff, allOwned_step_iff hKnown (allOwned_of_reach cooledTracked_reached) hStep]
  exact hLost a ha

/-- The rule of an open event is disabled, and a completed pass leaves the event open. -/
theorem disabled_rule_strands : ∃ s db', Runs.Reach adminStep AdminStart Runs.Always s ∧
    adminStep cooledTracked (.updateRule 1 { enabled := some false }) = some s ∧
      evalAlerts sampleEnvironment s.db = .completed db' ∧ ¬ AllOwned (s.passed db') :=
  stranded List.mem_cons_self

end GpuMon.Alerts

import GpuMon.Alerts.Rules
import GpuMon.Library.Runs

/-!
# Recovery of alert events

After a pass, no event should be open whose server is back in range. A pass closes such an
event unless it is acknowledged: the loop leaves acknowledged events alone before it asks
whether they are still breached.

* `openUnique_of_reach`: a rule and a server have at most one open event, in every state that
  polls, passes, operators and rule changes lead to.
* `pass_recovers_iff`: after a completed pass every calm pair of a rule and a server is without
  an open event exactly when no calm pair had an acknowledged one before.
* `acked_event_stays_open`: a run in which one did.
-/

namespace GpuMon.Alerts

/-- A rule and a server have at most one open event. -/
def OpenUnique (events : Table AlertEvent) : Prop :=
  ∀ ruleId sid, ∀ ev ∈ events.rows, ∀ ev' ∈ events.rows,
    openFor ruleId sid ev = true → openFor ruleId sid ev' = true → ev = ev'

def Result.state {σ : Type} : Result σ → σ
  | .completed s => s
  | .raised s => s

theorem openFor_iff {ruleId sid : Nat} {ev : AlertEvent} : openFor ruleId sid ev = true ↔
    ev.ruleId = some ruleId ∧ ev.serverId = sid ∧ ev.recoveredAt = none := by
  simp [openFor, AlertEvent.isOpen, and_assoc]

/-- An open event belongs to one rule and one server. -/
theorem openFor_inj {ruleId ruleId' sid sid' : Nat} {ev : AlertEvent}
    (h : openFor ruleId sid ev = true) (h' : openFor ruleId' sid' ev = true) :
    (ruleId', sid') = (ruleId, sid) := by
  obtain ⟨hRule, hServer, -⟩ := openFor_iff.mp h
  obtain ⟨hRule', hServer', -⟩ := openFor_iff.mp h'
  rw [hRule] at hRule'
  rw [← Option.some.inj hRule', ← hServer', hServer]

/-- Updates that open nothing keep open events unique. -/
theorem openUnique_map {events : Table AlertEvent} (h : OpenUnique events)
    {f : AlertEvent → AlertEvent} {hKey : ∀ ev, Keyed.key (f ev) = Keyed.key ev}
    (hOpen : ∀ ruleId sid ev, openFor ruleId sid (f ev) = true → openFor ruleId sid ev = true) :
    OpenUnique (events.map f hKey) := by
  intro ruleId sid ev hEv ev' hEv' hFor hFor'
  obtain ⟨a, ha, rfl⟩ := Table.mem_map.mp hEv
  obtain ⟨a', ha', rfl⟩ := Table.mem_map.mp hEv'
  rw [h ruleId sid a ha a' ha' (hOpen _ _ _ hFor) (hOpen _ _ _ hFor')]

theorem openUnique_modify {events : Table AlertEvent} (h : OpenUnique events) {id : Nat}
    {f : AlertEvent → AlertEvent} {hKey : ∀ ev, Keyed.key (f ev) = Keyed.key ev}
    (hOpen : ∀ ruleId sid ev, openFor ruleId sid (f ev) = true → openFor ruleId sid ev = true) :
    OpenUnique (events.modify id f hKey) := by
  refine openUnique_map h fun ruleId sid ev hFor => ?_
  split at hFor
  · exact hOpen ruleId sid ev hFor
  · exact hFor

theorem not_openFor_closed {ruleId sid : Nat} {ev : AlertEvent} {t : Int} :
    ¬ openFor ruleId sid { ev with recoveredAt := some t } = true := by
  simp [openFor_iff]

/-! ## What one pair can do -/

/-- The effect of evaluating one pair on the events. -/
inductive PairEffect (ruleId sid : Nat) (events : Table AlertEvent) : Table AlertEvent → Prop
  | same : PairEffect ruleId sid events events
  | opened {new : Nat → AlertEvent} (hKey : ∀ k, Keyed.key (new k) = k) :
      (∀ ev ∈ events.rows, ¬ openFor ruleId sid ev = true) →
      (∀ k, openFor ruleId sid (new k) = true) →
      PairEffect ruleId sid events (events.insert new hKey)
  | closed {ev : AlertEvent} {t : Int} :
      ev ∈ events.rows → openFor ruleId sid ev = true →
      PairEffect ruleId sid events
        (events.modify ev.id (fun ev => { ev with recoveredAt := some t }) fun _ => rfl)

variable {env : Environment} {db : Store} {rule : AlertRule} {sid : Nat}
  {events events' : Table AlertEvent}

theorem fire_effect {m : ServerMetric} {value : ℚ}
    (hNone : ∀ ev ∈ events.rows, ¬ openFor rule.id sid ev = true) :
    PairEffect rule.id sid events (fire env events rule m sid value).state := by
  unfold fire
  split
  · exact .same
  · have hNew : ∀ k, openFor rule.id sid (newEvent env rule m sid value k) = true :=
      fun k => openFor_iff.mpr ⟨rfl, rfl, rfl⟩
    dsimp only
    split
    · exact .opened (key_newEvent env rule m sid value) hNone hNew
    · exact .opened (key_newEvent env rule m sid value) hNone hNew
    · rw [Table.modify_insert]
      have hSent : ∀ k, openFor rule.id sid
          { newEvent env rule m sid value k with notified := true } = true := hNew
      refine .opened ?_ hNone hSent
      exact key_newEvent env rule m sid value

theorem recover_effect {ev : AlertEvent} (hEv : ev ∈ events.rows)
    (hOpen : openFor rule.id sid ev = true) :
    PairEffect rule.id sid events (recover env events rule sid ev).state := by
  unfold recover
  split
  · exact .same
  · dsimp only
    split <;> exact .closed hEv hOpen

theorem evalPair_effect : PairEffect rule.id sid events (evalPair env db rule sid events).state := by
  unfold evalPair
  split
  · exact .same
  split
  · exact .same
  split
  · exact .same
  dsimp only
  split
  · rename_i ev hFind
    have hEv := List.mem_of_find?_eq_some hFind
    have hOpen := List.find?_some hFind
    split
    · exact .same
    split
    · exact recover_effect hEv hOpen
    · exact .same
  · rename_i hNone
    have hNoneOpen : ∀ ev ∈ events.rows, ¬ openFor rule.id sid ev = true :=
      List.find?_eq_none.mp hNone
    split
    · split
      · exact .same
      · exact fire_effect hNoneOpen
    · exact .same

section PairEffect

variable {ruleId : Nat} (h : PairEffect ruleId sid events events')

include h

/-- The open events of other pairs stay as they are. -/
theorem PairEffect.frame {ruleId' sid' : Nat} (hOther : (ruleId', sid') ≠ (ruleId, sid))
    {ev : AlertEvent} (hOpen : openFor ruleId' sid' ev = true) :
    ev ∈ events'.rows ↔ ev ∈ events.rows := by
  cases h with
  | same => rfl
  | opened _ _ hNew =>
    rw [Table.mem_insert, or_iff_left]
    rintro rfl
    exact hOther (openFor_inj (hNew _) hOpen)
  | @closed old t hMem hOld =>
    rw [Table.mem_modify]
    constructor
    · rintro (⟨hEv, -⟩ | ⟨a, -, -, rfl⟩)
      · exact hEv
      · exact absurd hOpen not_openFor_closed
    · intro hEv
      refine .inl ⟨hEv, fun hKey => hOther ?_⟩
      have hSame : ev = old := Table.eq_of_key_eq hEv hMem hKey
      exact openFor_inj hOld (hSame ▸ hOpen)

theorem PairEffect.openUnique (hUnique : OpenUnique events) : OpenUnique events' := by
  cases h with
  | same => exact hUnique
  | opened _ hNone hNew =>
    intro r s ev hEv ev' hEv' hFor hFor'
    rcases Table.mem_insert.mp hEv with hEv | rfl <;>
      rcases Table.mem_insert.mp hEv' with hEv' | rfl
    · exact hUnique r s ev hEv ev' hEv' hFor hFor'
    · obtain ⟨rfl, rfl⟩ := Prod.mk.inj (openFor_inj (hNew _) hFor')
      exact absurd hFor (hNone ev hEv)
    · obtain ⟨rfl, rfl⟩ := Prod.mk.inj (openFor_inj (hNew _) hFor)
      exact absurd hFor' (hNone ev' hEv')
    · rfl
  | closed _ _ =>
    exact openUnique_modify hUnique fun r s ev hFor => absurd hFor not_openFor_closed

end PairEffect

/-! ## A whole pass -/

/-- The key of a pair: its open events are those of the rule's id and the server. -/
def pairKey (p : AlertRule × Nat) : Nat × Nat := (p.1.id, p.2)

theorem openUnique_evalPairs {ps : List (AlertRule × Nat)} (hUnique : OpenUnique events) :
    OpenUnique (evalPairs env db ps events).state := by
  induction ps generalizing events with
  | nil => exact hUnique
  | cons p rest ih =>
    obtain ⟨rule, sid⟩ := p
    have hEffect : PairEffect rule.id sid events (evalPair env db rule sid events).state :=
      evalPair_effect
    unfold evalPairs
    split
    · rename_i events₁ hPair
      rw [hPair] at hEffect
      exact ih (hEffect.openUnique hUnique)
    · rename_i events₁ hPair
      rw [hPair] at hEffect
      exact hEffect.openUnique hUnique

theorem evalPairs_frame {ps : List (AlertRule × Nat)} {ruleId : Nat}
    (hOther : (ruleId, sid) ∉ ps.map pairKey) {ev : AlertEvent}
    (hOpen : openFor ruleId sid ev = true) :
    ev ∈ (evalPairs env db ps events).state.rows ↔ ev ∈ events.rows := by
  induction ps generalizing events with
  | nil => rfl
  | cons p rest ih =>
    obtain ⟨rule', sid'⟩ := p
    rw [List.map_cons, List.mem_cons, not_or] at hOther
    have hEffect : PairEffect rule'.id sid' events (evalPair env db rule' sid' events).state :=
      evalPair_effect
    unfold evalPairs
    split
    · rename_i events₁ hPair
      rw [hPair] at hEffect
      exact (ih hOther.2).trans (hEffect.frame hOther.1 hOpen)
    · rename_i events₁ hPair
      rw [hPair] at hEffect
      exact hEffect.frame hOther.1 hOpen

/-- The newest sample of the server is in range for the rule. -/
structure CalmPair (db : Store) (rule : AlertRule) (sid : Nat) : Prop where
  active : sid ∉ maintenanceIds db
  inRange : ∃ m value, (latestByServer db).get? sid = some m ∧
    extractMetric m rule.metric = some value ∧ compare value rule.op rule.threshold = false

/-- A calm pair keeps its open event exactly when that is acknowledged. -/
theorem evalPair_calm (hCalm : CalmPair db rule sid) (hUnique : OpenUnique events)
    (h : evalPair env db rule sid events = .completed events') :
    (∃ ev ∈ events'.rows, openFor rule.id sid ev = true) ↔
      ∃ ev ∈ events.rows, openFor rule.id sid ev = true ∧ ev.ackedAt.isSome = true := by
  obtain ⟨m, value, hLatest, hValue, hRange⟩ := hCalm.inRange
  simp only [evalPair, if_neg hCalm.active, hLatest, hValue, hRange, Bool.not_false,
    Bool.false_eq_true, if_false, if_true] at h
  split at h
  · rename_i ev hFind
    have hEv := List.mem_of_find?_eq_some hFind
    have hOpen := List.find?_some hFind
    split at h
    · rename_i hAcked
      cases h
      exact ⟨fun _ => ⟨ev, hEv, hOpen, hAcked⟩, fun _ => ⟨ev, hEv, hOpen⟩⟩
    · rename_i hAcked
      have hNotAfter : ¬ ∃ ev ∈ events'.rows, openFor rule.id sid ev = true := by
        unfold recover at h
        split at h
        · cases h
        dsimp only at h
        split at h
        · cases h
        cases h
        rintro ⟨other, hOther, hFor⟩
        rcases Table.mem_modify.mp hOther with ⟨hMem, hKey⟩ | ⟨a, -, -, rfl⟩
        · exact hKey (congrArg AlertEvent.id (hUnique _ _ other hMem ev hEv hFor hOpen))
        · exact not_openFor_closed hFor
      refine iff_of_false hNotAfter ?_
      rintro ⟨other, hOther, hFor, hOtherAcked⟩
      rw [hUnique _ _ other hOther ev hEv hFor hOpen] at hOtherAcked
      exact hAcked hOtherAcked
  · rename_i hNone
    cases h
    have hNoneOpen := List.find?_eq_none.mp hNone
    refine iff_of_false ?_ ?_
    · rintro ⟨ev, hEv, hOpen⟩
      exact hNoneOpen ev hEv hOpen
    · rintro ⟨ev, hEv, hOpen, -⟩
      exact hNoneOpen ev hEv hOpen

/-- In a pass that completes, each pair has its turn, and the other pairs leave its open events
alone before and after it. -/
theorem evalPairs_turn {ps : List (AlertRule × Nat)} (hNodup : (ps.map pairKey).Nodup)
    (hMem : (rule, sid) ∈ ps) (h : evalPairs env db ps events = .completed events') :
    ∃ before after, evalPair env db rule sid before = .completed after ∧
      (OpenUnique events → OpenUnique before) ∧
      (∀ ev, openFor rule.id sid ev = true → (ev ∈ before.rows ↔ ev ∈ events.rows)) ∧
      ∀ ev, openFor rule.id sid ev = true → (ev ∈ events'.rows ↔ ev ∈ after.rows) := by
  induction ps generalizing events with
  | nil => cases hMem
  | cons p rest ih =>
    obtain ⟨rule₀, sid₀⟩ := p
    rw [List.map_cons, List.nodup_cons] at hNodup
    unfold evalPairs at h
    split at h
    · rename_i events₁ hPair
      have hState : (evalPairs env db rest events₁).state = events' := by rw [h]; rfl
      have hEffect : PairEffect rule₀.id sid₀ events (evalPair env db rule₀ sid₀ events).state :=
        evalPair_effect
      rw [hPair] at hEffect
      rcases List.mem_cons.mp hMem with hHead | hLater
      · obtain ⟨rfl, rfl⟩ := Prod.mk.inj hHead
        refine ⟨events, events₁, hPair, id, fun _ _ => Iff.rfl, fun ev hOpen => ?_⟩
        rw [← hState]
        exact evalPairs_frame hNodup.1 hOpen
      · obtain ⟨before, after, hTurn, hUnique, hBefore, hAfter⟩ := ih hNodup.2 hLater h
        have hOther : (rule.id, sid) ≠ (rule₀.id, sid₀) := fun hEq =>
          hNodup.1 (List.mem_map.mpr ⟨(rule, sid), hLater, hEq⟩)
        refine ⟨before, after, hTurn, fun hu => hUnique (hEffect.openUnique hu), ?_, hAfter⟩
        intro ev hOpen
        rw [hBefore ev hOpen]
        exact hEffect.frame hOther hOpen
    · cases h

/-- The same over the whole pass: no other pair touches the open event. -/
theorem evalPairs_calm {ps : List (AlertRule × Nat)} (hNodup : (ps.map pairKey).Nodup)
    (hMem : (rule, sid) ∈ ps) (hCalm : CalmPair db rule sid) (hUnique : OpenUnique events)
    (h : evalPairs env db ps events = .completed events') :
    (∃ ev ∈ events'.rows, openFor rule.id sid ev = true) ↔
      ∃ ev ∈ events.rows, openFor rule.id sid ev = true ∧ ev.ackedAt.isSome = true := by
  obtain ⟨before, after, hTurn, hKeeps, hBefore, hAfter⟩ := evalPairs_turn hNodup hMem h
  have hPair := evalPair_calm hCalm (hKeeps hUnique) hTurn
  calc (∃ ev ∈ events'.rows, openFor rule.id sid ev = true)
      ↔ ∃ ev ∈ after.rows, openFor rule.id sid ev = true :=
        exists_congr fun ev => and_congr_left fun hOpen => hAfter ev hOpen
    _ ↔ ∃ ev ∈ before.rows, openFor rule.id sid ev = true ∧ ev.ackedAt.isSome = true := hPair
    _ ↔ ∃ ev ∈ events.rows, openFor rule.id sid ev = true ∧ ev.ackedAt.isSome = true :=
        exists_congr fun ev => and_congr_left fun hOpen => hBefore ev hOpen.1

theorem nodup_targetIds (latest : Dict Nat ServerMetric) (rule : AlertRule) :
    (targetIds latest rule).Nodup := by
  unfold targetIds
  split
  · exact List.nodup_singleton _
  · exact latest.keysNodup

/-- A pass meets each pair once. -/
theorem nodup_pairs (db : Store) : ((pairs db).map pairKey).Nodup := by
  have hRules : ((enabledRules db).map AlertRule.id).Nodup :=
    db.rules.keysNodup.sublist (List.filter_sublist.map _)
  unfold pairs
  rw [List.map_flatMap, List.nodup_flatMap]
  constructor
  · intro rule _
    rw [List.map_map]
    exact (nodup_targetIds _ rule).map fun a b h => (Prod.mk.inj h).2
  · refine (List.pairwise_map.mp hRules).imp ?_
    intro a b hNe
    rw [Function.onFun, List.disjoint_left]
    intro key hA hB
    rw [List.map_map] at hA hB
    obtain ⟨sid, -, rfl⟩ := List.mem_map.mp hA
    obtain ⟨sid', -, hEq⟩ := List.mem_map.mp hB
    exact hNe (Prod.mk.inj hEq).1.symm

/-- The rule is evaluated for the server. -/
def targets (rule : AlertRule) (sid : Nat) : Prop :=
  rule.serverId = none ∨ rule.serverId = some 0 ∨ rule.serverId = some sid

/-- An enabled rule targets an enabled server outside maintenance, and the newest ok sample of
the server yields a value that does not breach the rule. -/
structure Calm (db : Store) (rule : AlertRule) (server : Server) : Prop where
  ruleMem : rule ∈ db.rules.rows
  ruleEnabled : rule.enabled = true
  serverMem : server ∈ db.servers.rows
  serverEnabled : server.enabled = true
  active : server.status ≠ .maintenance
  target : targets rule server.id
  inRange : ∃ m value, IsNewestOk db server.id m ∧ extractMetric m rule.metric = some value ∧
    compare value rule.op rule.threshold = false

theorem notMem_maintenanceIds {server : Server} (hServer : server ∈ db.servers.rows)
    (hActive : server.status ≠ .maintenance) : server.id ∉ maintenanceIds db := by
  intro hMaintenance
  obtain ⟨other, hOther, hId⟩ := List.mem_map.mp hMaintenance
  obtain ⟨hEnabled, hStatus⟩ := List.mem_filter.mp hOther
  have hSame : other = server :=
    Table.eq_of_key_eq (List.mem_of_mem_filter hEnabled) hServer hId
  exact hActive (hSame ▸ of_decide_eq_true hStatus)

/-- A pass looks at an enabled rule and a server it targets that has an ok sample. -/
theorem mem_pairs_of_latest {m : ServerMetric} (hRule : rule ∈ db.rules.rows)
    (hEnabled : rule.enabled = true) (hTarget : targets rule sid)
    (hLatest : (latestByServer db).get? sid = some m) : (rule, sid) ∈ pairs db := by
  have hKey : sid ∈ (latestByServer db).keys := by
    rw [Dict.mem_keys_iff, hLatest]
    rfl
  refine List.mem_flatMap.mpr ⟨rule, List.mem_filter.mpr ⟨hRule, hEnabled⟩, ?_⟩
  refine List.mem_map_of_mem ?_
  unfold targetIds
  rcases hTarget with hAll | hZero | hOne
  · rw [hAll]
    exact hKey
  · rw [hZero]
    exact hKey
  · rw [hOne]
    split
    · rename_i n hSome
      rw [Option.some.inj hSome]
      exact List.mem_singleton_self _
    · exact hKey

theorem Calm.calmPair {server : Server} (h : Calm db rule server) :
    CalmPair db rule server.id := by
  obtain ⟨m, value, hNewest, hValue, hRange⟩ := h.inRange
  exact ⟨notMem_maintenanceIds h.serverMem h.active, m, value,
    latestByServer_of_newest h.serverMem h.serverEnabled hNewest, hValue, hRange⟩

theorem Calm.mem_pairs {server : Server} (h : Calm db rule server) :
    (rule, server.id) ∈ pairs db := by
  obtain ⟨m, value, hNewest, -, -⟩ := h.inRange
  exact mem_pairs_of_latest h.ruleMem h.ruleEnabled h.target
    (latestByServer_of_newest h.serverMem h.serverEnabled hNewest)

/-- No rule and server in range have an event open. -/
def CalmRecovered (db : Store) : Prop :=
  ∀ rule server, Calm db rule server → ∀ ev ∈ db.events.rows, ¬ openFor rule.id server.id ev = true

/-- No rule and server in range have an acknowledged event open. -/
def CalmUnacked (db : Store) : Prop :=
  ∀ rule server, Calm db rule server →
    ∀ ev ∈ db.events.rows, openFor rule.id server.id ev = true → ev.ackedAt = none

theorem evalAlerts_calm {db' : Store} (hUnique : OpenUnique db.events)
    (h : evalAlerts env db = .completed db') : CalmRecovered db' ↔ CalmUnacked db := by
  unfold evalAlerts at h
  split at h
  · rename_i events hPairs
    cases h
    have hPair : ∀ rule server, Calm db rule server →
        ((∃ ev ∈ events.rows, openFor rule.id server.id ev = true) ↔
          ∃ ev ∈ db.events.rows, openFor rule.id server.id ev = true ∧ ev.ackedAt.isSome = true) :=
      fun rule server hCalm =>
        evalPairs_calm (nodup_pairs db) hCalm.mem_pairs hCalm.calmPair hUnique hPairs
    -- the pass changes neither rules nor servers nor samples, so the same pairs are calm after it
    have hSame : ∀ rule server, Calm { db with events } rule server ↔ Calm db rule server := by
      intro rule server
      constructor <;> rintro ⟨h₁, h₂, h₃, h₄, h₅, h₆, m, value, ⟨h₇, h₈, h₉, h₁₀⟩, h₁₁⟩ <;>
        exact ⟨h₁, h₂, h₃, h₄, h₅, h₆, m, value, ⟨h₇, h₈, h₉, h₁₀⟩, h₁₁⟩
    constructor
    · intro hRecovered rule server hCalm ev hEv hOpen
      by_contra hAcked
      obtain ⟨ev', hEv', hOpen'⟩ := (hPair rule server hCalm).mpr
        ⟨ev, hEv, hOpen, Option.isSome_iff_ne_none.mpr hAcked⟩
      exact hRecovered rule server ((hSame rule server).mpr hCalm) ev' hEv' hOpen'
    · intro hUnacked rule server hCalm ev hEv hOpen
      have hCalm := (hSame rule server).mp hCalm
      obtain ⟨ev', hEv', hOpen', hAcked⟩ := (hPair rule server hCalm).mp ⟨ev, hEv, hOpen⟩
      rw [hUnacked rule server hCalm ev' hEv' hOpen'] at hAcked
      cases hAcked
  · cases h

/-! ## Runs -/

/-- What happens to the tables: a poll stores a sample while its detectors touch events without
a rule, old samples are purged, administrators edit rules and servers, operators acknowledge
and resolve, and passes run, to their end or until an exception. -/
inductive Action
  | poll (sample : ServerMetric) (detect : Table AlertEvent → Table AlertEvent)
  | purge (cutoff : Int)
  | createRule (rule : AlertRule)
  | updateRule (rule : AlertRule)
  | deleteRule (ruleId : Nat)
  | createServer (server : Server)
  | updateServer (server : Server)
  | ack (eventId : Nat) (username : Text) (now : Int)
  | resolve (eventId : Nat) (now : Int)
  | pass (env : Environment)

/-- `ON DELETE SET NULL` of `rule_id`. -/
def detachRule (ruleId : Nat) (ev : AlertEvent) : AlertEvent :=
  if ev.ruleId = some ruleId then { ev with ruleId := none } else ev

theorem key_detachRule (ruleId : Nat) (ev : AlertEvent) :
    Keyed.key (detachRule ruleId ev) = Keyed.key ev := by
  unfold detachRule
  split <;> rfl

def step (db : Store) : Action → Option Store
  | .poll sample detect =>
    let events := detect db.events
    if events.rows.filter (·.ruleId.isSome) = db.events.rows.filter (·.ruleId.isSome) then
      some { db with
        metrics := db.metrics.insert (fun id => { sample with id }) sample.key_with_id
        events }
    else none
  | .purge cutoff => some { db with metrics := db.metrics.filter fun m => cutoff ≤ m.collectedAt }
  | .createRule rule =>
    some { db with rules := db.rules.insert (fun id => { rule with id }) rule.key_with_id }
  | .updateRule rule =>
    some { db with
      rules := db.rules.modify rule.id (fun old => { rule with id := old.id }) fun _ => rfl }
  | .deleteRule ruleId =>
    some { db with
      rules := db.rules.filter fun rule => rule.id ≠ ruleId
      events := db.events.map (detachRule ruleId) (key_detachRule ruleId) }
  | .createServer server =>
    some { db with servers := db.servers.insert (fun id => { server with id }) server.key_with_id }
  | .updateServer server =>
    some { db with
      servers := db.servers.modify server.id (fun old => { server with id := old.id })
        fun _ => rfl }
  | .ack eventId username now => match ackEvent db.events eventId username now with
    | .error _ => some db
    | .ok events => some { db with events }
  | .resolve eventId now => match resolveEvent db.events eventId now with
    | .error _ => some db
    | .ok events => some { db with events }
  | .pass env => some (evalAlerts env db).state

/-- A run begins without events. -/
def Start (db : Store) : Prop := db.events.rows = []

theorem openUnique_ack {eventId : Nat} {username : Text} {now : Int}
    (hUnique : OpenUnique events) (h : ackEvent events eventId username now = .ok events') :
    OpenUnique events' := by
  unfold ackEvent at h
  split at h
  · cases h
  split at h
  · cases h
  split at h <;> cases h
  · exact hUnique
  · exact openUnique_modify hUnique fun _ _ _ hFor => hFor

theorem openUnique_resolve {eventId : Nat} {now : Int} (hUnique : OpenUnique events)
    (h : resolveEvent events eventId now = .ok events') : OpenUnique events' := by
  unfold resolveEvent at h
  split at h
  · cases h
  split at h <;> cases h
  · exact hUnique
  · exact openUnique_modify hUnique fun _ _ _ hFor => absurd hFor not_openFor_closed

theorem openFor_detachRule {ruleId ruleId' : Nat} {ev : AlertEvent}
    (h : openFor ruleId' sid (detachRule ruleId ev) = true) : openFor ruleId' sid ev = true := by
  unfold detachRule at h
  split at h
  · cases (openFor_iff.mp h).1
  · exact h

theorem openUnique_poll (hUnique : OpenUnique events)
    (hRules : events'.rows.filter (·.ruleId.isSome) = events.rows.filter (·.ruleId.isSome)) :
    OpenUnique events' := by
  have hOld : ∀ ruleId sid, ∀ ev ∈ events'.rows, openFor ruleId sid ev = true →
      ev ∈ events.rows := by
    intro ruleId sid ev hEv hOpen
    have hSome : ev.ruleId.isSome = true := by
      rw [(openFor_iff.mp hOpen).1]
      rfl
    have hMem : ev ∈ events'.rows.filter (·.ruleId.isSome) := List.mem_filter.mpr ⟨hEv, hSome⟩
    rw [hRules] at hMem
    exact List.mem_of_mem_filter hMem
  intro ruleId sid ev hEv ev' hEv' hFor hFor'
  exact hUnique ruleId sid ev (hOld _ _ ev hEv hFor) ev' (hOld _ _ ev' hEv' hFor') hFor hFor'

theorem openUnique_step {db' : Store} {a : Action} (hUnique : OpenUnique db.events)
    (h : step db a = some db') : OpenUnique db'.events := by
  cases a with
  | poll sample detect =>
    simp only [step] at h
    split at h
    · rename_i hRules
      cases h
      exact openUnique_poll hUnique hRules
    · cases h
  | deleteRule ruleId =>
    cases h
    have hDetached :
        OpenUnique (db.events.map (detachRule ruleId) (key_detachRule ruleId)) :=
      openUnique_map hUnique fun _ _ _ hFor => openFor_detachRule hFor
    exact hDetached
  | ack eventId username now =>
    simp only [step] at h
    split at h <;> cases h
    · exact hUnique
    · rename_i events hAck
      exact openUnique_ack hUnique hAck
  | resolve eventId now =>
    simp only [step] at h
    split at h <;> cases h
    · exact hUnique
    · rename_i events hResolve
      exact openUnique_resolve hUnique hResolve
  | pass env =>
    cases h
    have hPass : OpenUnique (evalPairs env db (pairs db) db.events).state :=
      openUnique_evalPairs hUnique
    unfold evalAlerts
    split
    · rename_i events hPairs
      rw [hPairs] at hPass
      exact hPass
    · rename_i events hPairs
      rw [hPairs] at hPass
      exact hPass
  | purge _ | createRule _ | updateRule _ | createServer _ | updateServer _ =>
    cases h
    exact hUnique

theorem openUnique_of_reach (h : Runs.Reach step Start Runs.Always db) : OpenUnique db.events := by
  refine h.invariant (I := fun db => OpenUnique db.events) ?_ fun _ _ _ hI _ hStep =>
    openUnique_step hI hStep
  intro s hStart r sid ev hEv
  rw [hStart] at hEv
  cases hEv

/-- After a completed pass from any reachable state, every calm pair is without an open event
exactly when no calm pair had an acknowledged event open before. -/
theorem pass_recovers_iff (env : Environment) {db' : Store}
    (hReach : Runs.Reach step Start Runs.Always db) (h : evalAlerts env db = .completed db') :
    CalmRecovered db' ↔ CalmUnacked db :=
  evalAlerts_calm (openUnique_of_reach hReach) h

/-! A server whose GPU runs hot, raises an alert and cools down. -/

def hotServer : Server where
  id := 1
  name := "gpu-01"

def tempRule : AlertRule where
  id := 1
  name := "gpu too hot"
  metric := .gpuTemp
  threshold := 80

def tempSample (id : Nat) (time : Int) (celsius : ℚ) : ServerMetric where
  id
  serverId := 1
  collectedAt := seconds time
  hostname := "gpu-01"
  gpus := [{ temperature := some celsius }]

def sampleEnvironment : Environment where
  interval := 60
  now _ _ := seconds 1700000005
  floatText q := if q = 90 then "90.0" else if q = 80 then "80.0" else "60.0"

def hotEvent : AlertEvent where
  id := 1
  ruleId := some 1
  ruleName := "gpu too hot"
  serverId := 1
  serverName := "gpu-01"
  metric := "gpu_temp"
  value := 90
  threshold := 80
  message := "GPU 温度 90.0 > 80.0"
  triggeredAt := seconds 1700000005
  notified := true

def ackedEvent : AlertEvent :=
  { hotEvent with ackedAt := some (seconds 1700000030), ackedBy := "admin" }

/-- The tables after the server has cooled down, with the event of the hot sample still open. -/
def cooledStore (ev : AlertEvent) : Store where
  rules := ⟨[tempRule], List.nodup_singleton _⟩
  servers := ⟨[hotServer], List.nodup_singleton _⟩
  metrics := ⟨[tempSample 1 1700000000 90, tempSample 2 1700000060 60], by decide⟩
  events := ⟨[ev], List.nodup_singleton _⟩

def hotRun : List Action :=
  [.createServer hotServer, .createRule tempRule, .poll (tempSample 0 1700000000 90) id,
    .pass sampleEnvironment]

theorem pass_recovers_iff_cooled :
    ∃ db', evalAlerts sampleEnvironment (cooledStore hotEvent) = .completed db' ∧
      db'.events.rows = [{ hotEvent with recoveredAt := some (seconds 1700000005) }] ∧
        (CalmRecovered db' ↔ CalmUnacked (cooledStore hotEvent)) := by
  obtain ⟨db, hReach, rfl⟩ :
      ∃ db, Runs.Reach step Start Runs.Always db ∧ db = cooledStore hotEvent :=
    Runs.Reach.exists_of_exec (s := default) (hotRun ++ [.poll (tempSample 0 1700000060 60) id])
      rfl (by decide +kernel)
  have hPass : evalAlerts sampleEnvironment (cooledStore hotEvent) = .completed
      (cooledStore { hotEvent with recoveredAt := some (seconds 1700000005) }) := by
    decide +kernel
  exact ⟨_, hPass, rfl, pass_recovers_iff sampleEnvironment hReach hPass⟩

theorem calm_cooledStore (ev : AlertEvent) : Calm (cooledStore ev) tempRule hotServer where
  ruleMem := List.mem_singleton_self _
  ruleEnabled := rfl
  serverMem := List.mem_singleton_self _
  serverEnabled := rfl
  active := by decide
  target := .inl rfl
  inRange := by
    refine ⟨tempSample 2 1700000060 60, 60, ⟨by simp [cooledStore], rfl, rfl, ?_⟩, ?_, ?_⟩
    · intro m hm _ _
      simp only [cooledStore, List.mem_cons, List.not_mem_nil, or_false] at hm
      rcases hm with rfl | rfl <;> decide
    · decide +kernel
    · decide +kernel

/-- The event was acknowledged while the server was hot. After it has cooled down a pass leaves
the event open. -/
theorem acked_event_stays_open :
    ∃ db, Runs.Reach step Start Runs.Always db ∧ Calm db tempRule hotServer ∧
      ∃ db', evalAlerts sampleEnvironment db = .completed db' ∧ ackedEvent ∈ db'.events.rows ∧
        ¬ CalmRecovered db' := by
  obtain ⟨db, hReach, rfl⟩ :
      ∃ db, Runs.Reach step Start Runs.Always db ∧ db = cooledStore ackedEvent :=
    Runs.Reach.exists_of_exec (s := default)
      (hotRun ++ [.ack 1 "admin" (seconds 1700000030), .poll (tempSample 0 1700000060 60) id])
      rfl (by decide +kernel)
  have hPass : evalAlerts sampleEnvironment (cooledStore ackedEvent) =
      .completed (cooledStore ackedEvent) := by decide +kernel
  have hOpen : ackedEvent ∈ (cooledStore ackedEvent).events.rows := List.mem_singleton_self _
  refine ⟨_, hReach, calm_cooledStore _, _, hPass, hOpen, ?_⟩
  intro hRecovered
  exact hRecovered tempRule hotServer (calm_cooledStore _) ackedEvent hOpen (by decide)

end GpuMon.Alerts

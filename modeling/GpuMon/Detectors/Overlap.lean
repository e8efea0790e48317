import GpuMon.Detectors.OpenTexts
import GpuMon.Library.Runs

/-!
# Overlapping passes of one server (`_poll_one`, `_fire`)

A poll marks its server busy while it collects and no longer: it stores its sample and runs the
detectors after the mark is gone, so the next poll may run its own at the same time. `_fire` is a
query and, when nothing is found, an insert; no constraint of the table ties the two together.

* `fire_of_query`: without another pass in between, the two steps are `fire`.
* `one_open_event_iff`: in every interleaving, an insert keeps the open events of a detector and
  a key at one exactly when no other pass has inserted one since the query.
* `both_passes_insert`: two passes that query before either inserts.
-/

namespace GpuMon.Detectors

/-- The arguments of a call of `_fire`. -/
structure FireCall where
  detector : Text
  serverName : Text := []
  message : Text
  value : ℚ := 0
  threshold : ℚ := 0
  key : Text := []
  deriving DecidableEq

/-- What the detectors of a pass do to the events, one call after another. -/
inductive PassOp
  | fire (call : FireCall)
  | recover (detector key : Text)

/-- Where a poll stands. `since` is the id that an insert would have got at the query. -/
inductive PollPhase
  | begin
  | collecting
  | storing
  | detecting (ops : List PassOp)
  | inserting (call : FireCall) (since : Nat) (ops : List PassOp)
  | closing (id : Nat) (ops : List PassOp)
  | done

/-- A thread of `_poll_one`; `collects` is whether `collect` returns. -/
structure PollThread where
  env : Environment
  collects : Bool := true
  ops : List PassOp
  phase : PollPhase := .begin

/-- The polls of one server. `fired` has the id and the key of every event a pass has fired. -/
structure Overlap where
  serverId : Nat
  busy : Bool := false
  events : Table AlertEvent
  fired : List (Nat × Text) := []
  threads : List PollThread

/-- The insert of `_fire`. -/
def insertEvent (env : Environment) (events : Table AlertEvent) (serverId : Nat)
    (call : FireCall) : Table AlertEvent :=
  events.insert
    (detectorEvent env call.detector serverId call.serverName
      (keyedMessage call.key call.message) call.value call.threshold)
    (key_detectorEvent env call.detector serverId call.serverName
      (keyedMessage call.key call.message) call.value call.threshold)

/-- The commit of `_recover`. -/
def closeEvent (env : Environment) (events : Table AlertEvent) (id : Nat) : Table AlertEvent :=
  events.modify id (fun ev => { ev with recoveredAt := some env.now }) (key_recovered env)

/-- The next step of a poll. -/
def advancePoll (s : Overlap) (t : PollThread) : Option (Overlap × PollPhase) :=
  match t.phase with
  | .begin =>
    if s.busy then some (s, .done)
    else some ({ s with busy := true }, .collecting)
  | .collecting =>
    some ({ s with busy := false }, if t.collects then .storing else .done)
  | .storing => some (s, .detecting t.ops)
  | .detecting [] => some (s, .done)
  | .detecting (.fire call :: ops) =>
    match openEvent s.events call.detector s.serverId call.key with
    | some _ => some (s, .detecting ops)
    | none => some (s, .inserting call s.events.nextKey ops)
  | .detecting (.recover detector key :: ops) =>
    match openEvent s.events detector s.serverId key with
    | some ev => some (s, .closing ev.id ops)
    | none => some (s, .detecting ops)
  | .inserting call _ ops =>
    some ({ s with
      events := insertEvent t.env s.events s.serverId call
      fired := s.fired ++ [(s.events.nextKey, call.key)] }, .detecting ops)
  | .closing id ops =>
    some ({ s with events := closeEvent t.env s.events id }, .detecting ops)
  | .done => none

/-- One step of the `i`-th poll. -/
def overlapStep (s : Overlap) (i : Nat) : Option Overlap :=
  s.threads[i]?.bind fun t => (advancePoll s t).map fun next =>
    { next.1 with threads := s.threads.set i { t with phase := next.2 } }

/-- The query and the insert of one call, with nothing in between. -/
theorem fire_of_query {env : Environment} {events : Table AlertEvent} {serverId : Nat}
    {call : FireCall} :
    fire env events call.detector serverId call.serverName call.message call.value call.threshold
        call.key =
      if (openEvent events call.detector serverId call.key).isSome then events
      else insertEvent env events serverId call := by
  unfold fire insertEvent
  cases openEvent events call.detector serverId call.key <;> rfl

/-- The query and the commit of `_recover`, with nothing in between. -/
theorem recover_of_query {env : Environment} {events : Table AlertEvent} {serverId : Nat}
    {detector key : Text} : recover env events detector serverId key =
      match openEvent events detector serverId key with
      | some ev => closeEvent env events ev.id
      | none => events := by
  unfold recover closeEvent
  cases openEvent events detector serverId key <;> rfl

/-! ## One open event -/

/-- No two open events of the server were fired by one detector with one key. -/
def OneOpen (s : Overlap) : Prop :=
  ∀ ev ∈ s.events.rows, ∀ ev' ∈ s.events.rows, ∀ detector key,
    (ev.id, key) ∈ s.fired → (ev'.id, key) ∈ s.fired →
      isOpenOf detector s.serverId ev = true → isOpenOf detector s.serverId ev' = true → ev = ev'

/-- When the poll inserts, no event that was fired by its detector with its key since the query
is open. -/
def Uncontested (s : Overlap) (i : Nat) : Prop :=
  ∀ t ∈ s.threads[i]?, match t.phase with
    | .inserting call since _ => ∀ ev ∈ s.events.rows, since ≤ ev.id →
        (ev.id, call.key) ∈ s.fired → isOpenOf call.detector s.serverId ev = false
    | _ => True

instance (s : Overlap) (i : Nat) : Decidable (Uncontested s i) := by
  unfold Uncontested
  refine @Option.decidableForallMem _ _ (fun t => ?_) _
  split <;> infer_instance

/-- All polls are about to begin, none marks the server busy, and no two open events have one
detector and one key. -/
structure OverlapStart (s : Overlap) : Prop where
  threads : ∀ t ∈ s.threads, t.phase = .begin
  free : s.busy = false
  recorded : ∀ p ∈ s.fired, ∃ ev ∈ s.events.rows, ev.id = p.1 ∧
    ∃ message, ev.message = keyedMessage p.2 message
  oneOpen : OneOpen s

/-- A query that has found nothing: every event from before it that the key matches is closed. -/
def Queried (s : Overlap) (call : FireCall) (since : Nat) : Prop :=
  since ≤ s.events.nextKey ∧ ∀ ev ∈ s.events.rows, ev.id < since →
    isOpenOf call.detector s.serverId ev = true → matchesKey call.key ev.message = false

structure OverlapInv (s : Overlap) : Prop where
  recorded : ∀ p ∈ s.fired, ∃ ev ∈ s.events.rows, ev.id = p.1 ∧
    ∃ message, ev.message = keyedMessage p.2 message
  queried : ∀ t ∈ s.threads, ∀ call since ops, t.phase = .inserting call since ops →
    Queried s call since

/-! ## What a step does -/

/-- What a step changes besides the phase of its poll. -/
inductive PollEffect (s : Overlap) (t : PollThread) : Overlap → PollPhase → Prop
  | quiet {busy : Bool} {phase : PollPhase} :
      (∀ call since ops, t.phase ≠ .inserting call since ops) →
      (∀ call since ops, phase = .inserting call since ops → Queried s call since) →
      PollEffect s t { s with busy } phase
  | inserted {call : FireCall} {since : Nat} {ops : List PassOp} :
      t.phase = .inserting call since ops →
      PollEffect s t { s with
        events := insertEvent t.env s.events s.serverId call
        fired := s.fired ++ [(s.events.nextKey, call.key)] } (.detecting ops)
  | closed {id : Nat} {ops : List PassOp} : t.phase = .closing id ops →
      PollEffect s t { s with events := closeEvent t.env s.events id } (.detecting ops)

theorem queried_now {s : Overlap} {call : FireCall}
    (hNone : openEvent s.events call.detector s.serverId call.key = none) :
    Queried s call s.events.nextKey := by
  refine ⟨le_rfl, fun ev hev _ hOpen => ?_⟩
  have hNot := List.find?_eq_none.mp (openEvent_eq ▸ hNone) ev hev
  rw [hOpen, Bool.true_and] at hNot
  exact Bool.eq_false_of_not_eq_true hNot

theorem advancePoll_effect {s s' : Overlap} {t : PollThread} {phase : PollPhase}
    (h : advancePoll s t = some (s', phase)) : PollEffect s t s' phase := by
  have hQuiet : ∀ {busy : Bool} {phase : PollPhase},
      (∀ call since ops, t.phase ≠ .inserting call since ops) →
        (∀ call since ops, phase ≠ .inserting call since ops) →
          PollEffect s t { s with busy } phase := by
    intro busy phase hBefore hAfter
    exact .quiet hBefore fun call since ops hPhase => absurd hPhase (hAfter call since ops)
  unfold advancePoll at h
  cases hPhase : t.phase with
  | begin =>
    rw [hPhase] at h
    dsimp only at h
    split at h
    all_goals
      cases h
      exact hQuiet (by simp [hPhase]) (by simp)
  | collecting =>
    rw [hPhase] at h
    cases h
    refine hQuiet (by simp [hPhase]) ?_
    cases t.collects <;> simp
  | storing =>
    rw [hPhase] at h
    cases h
    exact hQuiet (by simp [hPhase]) (by simp)
  | detecting ops =>
    rw [hPhase] at h
    cases ops with
    | nil =>
      cases h
      exact hQuiet (by simp [hPhase]) (by simp)
    | cons op ops =>
      cases op with
      | fire call =>
        dsimp only at h
        cases hFound : openEvent s.events call.detector s.serverId call.key with
        | some ev =>
          rw [hFound] at h
          cases h
          exact hQuiet (by simp [hPhase]) (by simp)
        | none =>
          rw [hFound] at h
          cases h
          refine .quiet (by simp [hPhase]) ?_
          rintro call' since ops' hInsert
          cases hInsert
          exact queried_now hFound
      | recover detector key =>
        dsimp only at h
        split at h
        all_goals
          cases h
          exact hQuiet (by simp [hPhase]) (by simp)
  | inserting call since ops =>
    rw [hPhase] at h
    cases h
    exact .inserted hPhase
  | closing id ops =>
    rw [hPhase] at h
    cases h
    exact .closed hPhase
  | done =>
    rw [hPhase] at h
    cases h

theorem overlapStep_eq_some {s s' : Overlap} {i : Nat} (h : overlapStep s i = some s') :
    ∃ t next phase, s.threads[i]? = some t ∧ PollEffect s t next phase ∧
      s' = { next with threads := s.threads.set i { t with phase } } := by
  obtain ⟨t, ht, hNext⟩ := Option.bind_eq_some_iff.mp h
  obtain ⟨⟨next, phase⟩, hAdvance, rfl⟩ := Option.map_eq_some_iff.mp hNext
  exact ⟨t, next, phase, ht, advancePoll_effect hAdvance, rfl⟩

/-! ## What a step keeps -/

section Effects

variable {s : Overlap} {t : PollThread} {env : Environment} {call : FireCall}

theorem mem_closeEvent {events : Table AlertEvent} {id : Nat} {ev : AlertEvent}
    (h : ev ∈ (closeEvent env events id).rows) : ev ∈ events.rows ∨ ev.isOpen = false := by
  rcases Table.mem_modify.mp h with ⟨hOld, -⟩ | ⟨old, -, -, rfl⟩
  · exact .inl hOld
  · exact .inr rfl

theorem closeEvent_keeps {events : Table AlertEvent} {id : Nat} {ev : AlertEvent}
    (h : ev ∈ events.rows) :
    ∃ ev' ∈ (closeEvent env events id).rows, ev'.id = ev.id ∧ ev'.message = ev.message := by
  by_cases hId : ev.id = id
  · exact ⟨_, Table.mem_modify.mpr (.inr ⟨ev, h, hId, rfl⟩), rfl, rfl⟩
  · exact ⟨ev, Table.mem_modify.mpr (.inl ⟨h, hId⟩), rfl, rfl⟩

theorem isOpen_of_isOpenOf {detector : Text} {serverId : Nat} {ev : AlertEvent}
    (h : isOpenOf detector serverId ev = true) : ev.isOpen = true := (isOpenOf_iff.mp h).2.2.2

theorem nextKey_closeEvent {events : Table AlertEvent} {id : Nat} :
    (closeEvent env events id).nextKey = events.nextKey := Table.nextKey_modify

theorem nextKey_lt_insertEvent {events : Table AlertEvent} {serverId : Nat} :
    events.nextKey < (insertEvent env events serverId call).nextKey := Table.nextKey_lt_insert

/-- The event that an insert adds. -/
theorem mem_insertEvent {events : Table AlertEvent} {serverId : Nat} {ev : AlertEvent} :
    ev ∈ (insertEvent env events serverId call).rows ↔ ev ∈ events.rows ∨
      ev = detectorEvent env call.detector serverId call.serverName
        (keyedMessage call.key call.message) call.value call.threshold events.nextKey :=
  Table.mem_insert

/-- A query stays valid when events are closed or inserted. -/
theorem queried_close {since id : Nat} (h : Queried s call since) :
    Queried { s with events := closeEvent env s.events id } call since := by
  refine ⟨?_, fun ev hev hBefore hOpen => ?_⟩
  · exact h.1.trans_eq nextKey_closeEvent.symm
  · rcases mem_closeEvent hev with hOld | hClosed
    · exact h.2 ev hOld hBefore hOpen
    · rw [isOpen_of_isOpenOf hOpen] at hClosed
      cases hClosed

theorem queried_insert {since : Nat} {other : FireCall} (fired : List (Nat × Text))
    (h : Queried s call since) :
    Queried { s with events := insertEvent env s.events s.serverId other, fired } call since := by
  refine ⟨h.1.trans nextKey_lt_insertEvent.le, fun ev hev hBefore hOpen => ?_⟩
  rcases mem_insertEvent.mp hev with hOld | rfl
  · exact h.2 ev hOld hBefore hOpen
  · exact absurd hBefore h.1.not_gt

theorem oneOpen_close {id : Nat} (h : OneOpen s) :
    OneOpen { s with events := closeEvent env s.events id } := by
  intro ev hev ev' hev' detector key hFired hFired' hOpen hOpen'
  rcases mem_closeEvent hev with hOld | hClosed
  · rcases mem_closeEvent hev' with hOld' | hClosed'
    · exact h ev hOld ev' hOld' detector key hFired hFired' hOpen hOpen'
    · rw [isOpen_of_isOpenOf hOpen'] at hClosed'
      cases hClosed'
  · rw [isOpen_of_isOpenOf hOpen] at hClosed
    cases hClosed

/-- An insert keeps the open events at one exactly when nothing was inserted since the query. -/
theorem oneOpen_insert_iff {since : Nat} (hInv : OverlapInv s) (hOne : OneOpen s)
    (hQueried : Queried s call since) :
    OneOpen { s with
        events := insertEvent env s.events s.serverId call
        fired := s.fired ++ [(s.events.nextKey, call.key)] } ↔
      ∀ ev ∈ s.events.rows, since ≤ ev.id → (ev.id, call.key) ∈ s.fired →
        isOpenOf call.detector s.serverId ev = false := by
  have hOld : ∀ ev ∈ s.events.rows, ∀ key,
      (ev.id, key) ∈ s.fired ++ [(s.events.nextKey, call.key)] → (ev.id, key) ∈ s.fired := by
    intro ev hev key hFired
    rcases List.mem_append.mp hFired with h | h
    · exact h
    · have hLt : ev.id < s.events.nextKey := Table.lt_nextKey hev
      rw [List.mem_singleton, Prod.mk.injEq] at h
      omega
  have hNew : ∀ key, (s.events.nextKey, key) ∈ s.fired ++ [(s.events.nextKey, call.key)] →
      key = call.key := by
    intro key hFired
    rcases List.mem_append.mp hFired with h | h
    · obtain ⟨ev, hev, hId, -⟩ := hInv.recorded _ h
      have hLt : ev.id < s.events.nextKey := Table.lt_nextKey hev
      dsimp only at hId
      omega
    · rw [List.mem_singleton, Prod.mk.injEq] at h
      exact h.2
  constructor
  · intro hAfter ev hev _ hFired
    by_contra hOpen
    have hOpen' : isOpenOf call.detector s.serverId ev = true := by simpa using hOpen
    have hSame := hAfter ev (mem_insertEvent.mpr (.inl hev)) _ (mem_insertEvent.mpr (.inr rfl))
      call.detector call.key (List.mem_append_left _ hFired)
      (List.mem_append_right _ List.mem_cons_self) hOpen' (isOpenOf_iff.mpr ⟨rfl, rfl, rfl, rfl⟩)
    have hLt : ev.id < s.events.nextKey := Table.lt_nextKey hev
    rw [hSame] at hLt
    exact lt_irrefl _ hLt
  · intro hNone
    -- an old event with the detector and the key of the new one is closed
    have hClosed : ∀ ev ∈ s.events.rows, ∀ detector key, (ev.id, key) ∈ s.fired →
        isOpenOf detector s.serverId ev = true → key = call.key → detector ≠ call.detector := by
      rintro ev hev detector key hFired hOpen rfl rfl
      by_cases hBefore : ev.id < since
      · obtain ⟨row, hRow, hId, message, hText⟩ := hInv.recorded _ hFired
        obtain rfl := Table.eq_of_key_eq hRow hev hId
        have hMatch := hQueried.2 row hev hBefore hOpen
        rw [hText, matchesKey_self] at hMatch
        cases hMatch
      · rw [hNone ev hev (not_lt.mp hBefore) hFired] at hOpen
        cases hOpen
    intro ev hev ev' hev' detector key hFired hFired' hOpen hOpen'
    rcases mem_insertEvent.mp hev with hev | rfl
    · rcases mem_insertEvent.mp hev' with hev' | rfl
      · exact hOne ev hev ev' hev' detector key (hOld ev hev key hFired)
          (hOld ev' hev' key hFired') hOpen hOpen'
      · have hDetector := (isOpenOf_iff.mp hOpen').2.1
        exact absurd hDetector.symm
          (hClosed ev hev detector key (hOld ev hev key hFired) hOpen (hNew key hFired'))
    · rcases mem_insertEvent.mp hev' with hev' | rfl
      · have hDetector := (isOpenOf_iff.mp hOpen).2.1
        exact absurd hDetector.symm
          (hClosed ev' hev' detector key (hOld ev' hev' key hFired') hOpen' (hNew key hFired))
      · rfl

end Effects

theorem inv_overlapStep {s s' : Overlap} {i : Nat} (hInv : OverlapInv s)
    (hStep : overlapStep s i = some s') : OverlapInv s' := by
  obtain ⟨t, next, phase, ht, hEffect, rfl⟩ := overlapStep_eq_some hStep
  have hThread : t ∈ s.threads := List.mem_of_getElem? ht
  have hSet : ∀ u ∈ s.threads.set i { t with phase }, u ∈ s.threads ∨ u.phase = phase := by
    intro u hu
    rcases List.mem_or_eq_of_mem_set hu with h | rfl
    · exact .inl h
    · exact .inr rfl
  cases hEffect with
  | quiet hBefore hAfter =>
    refine ⟨hInv.recorded, fun u hu call since ops hPhase => ?_⟩
    rcases hSet u hu with hOld | hMoved
    · exact hInv.queried u hOld call since ops hPhase
    · exact hAfter call since ops (hMoved.symm.trans hPhase)
  | @inserted added _ _ hInsert =>
    refine ⟨?_, fun u hu call since ops hPhase => ?_⟩
    · intro p hp
      rcases List.mem_append.mp hp with hp | hp
      · obtain ⟨ev, hev, hText⟩ := hInv.recorded p hp
        exact ⟨ev, mem_insertEvent.mpr (.inl hev), hText⟩
      · obtain rfl := List.mem_singleton.mp hp
        exact ⟨_, mem_insertEvent.mpr (.inr rfl), rfl, _, rfl⟩
    · rcases hSet u hu with hOld | hMoved
      · exact queried_insert (s.fired ++ [(s.events.nextKey, added.key)])
          (hInv.queried u hOld call since ops hPhase)
      · rw [hMoved] at hPhase
        cases hPhase
  | closed hClose =>
    refine ⟨?_, fun u hu call since ops hPhase => ?_⟩
    · intro p hp
      obtain ⟨ev, hev, hId, message, hText⟩ := hInv.recorded p hp
      obtain ⟨ev', hev', hId', hText'⟩ := closeEvent_keeps hev
      exact ⟨ev', hev', hId'.trans hId, message, hText'.trans hText⟩
    · rcases hSet u hu with hOld | hMoved
      · exact queried_close (hInv.queried u hOld call since ops hPhase)
      · rw [hMoved] at hPhase
        cases hPhase

/-- A step keeps the open events at one exactly when it is uncontested. -/
theorem oneOpen_step_iff {s s' : Overlap} {i : Nat} (hInv : OverlapInv s) (hOne : OneOpen s)
    (hStep : overlapStep s i = some s') : OneOpen s' ↔ Uncontested s i := by
  obtain ⟨t, next, phase, ht, hEffect, rfl⟩ := overlapStep_eq_some hStep
  unfold Uncontested
  rw [ht]
  simp only [Option.mem_def, Option.some.injEq, forall_eq']
  cases hEffect with
  | quiet hBefore hAfter =>
    refine iff_of_true hOne ?_
    split
    · rename_i call since ops hPhase
      exact absurd hPhase (hBefore call since ops)
    · trivial
  | inserted hInsert =>
    rw [hInsert]
    exact oneOpen_insert_iff hInv hOne
      (hInv.queried t (List.mem_of_getElem? ht) _ _ _ hInsert)
  | closed hClose =>
    rw [hClose]
    exact iff_of_true (oneOpen_close hOne) trivial

/-! ## Runs -/

theorem inv_of_overlap {s : Overlap} {ok : Overlap → Nat → Prop}
    (hReach : Runs.Reach overlapStep OverlapStart ok s) : OverlapInv s := by
  refine hReach.invariant ?_ fun s i s' hInv _ hStep => inv_overlapStep hInv hStep
  intro s hStart
  refine ⟨hStart.recorded, fun t ht call since ops hPhase => ?_⟩
  rw [hStart.threads t ht] at hPhase
  cases hPhase

/-- While no insert is contested, no two open events have one detector and one key; and the
first contested insert makes two of them. -/
theorem one_open_event_iff {s : Overlap}
    (hReach : Runs.Reach overlapStep OverlapStart Uncontested s) :
    OneOpen s ∧ ∀ i s', overlapStep s i = some s' → (OneOpen s' ↔ Uncontested s i) := by
  have hOne : OneOpen s := by
    refine hReach.invariant_of (J := OverlapInv) (fun s hs => inv_of_overlap hs)
      (fun s hStart => hStart.oneOpen) ?_
    intro s i s' hInv _ hOne hClear hStep
    exact (oneOpen_step_iff hInv hOne hStep).mpr hClear
  exact ⟨hOne, fun i s' hStep => oneOpen_step_iff (inv_of_overlap hReach) hOne hStep⟩

/-! ## Two passes -/

/-- A poll of a server with a degraded array. -/
def raidPoll : PollThread where
  env := quietClock
  ops := [.fire { detector := "RAID_DEGRADED", message := "md0 degraded", key := "md0" }]

def twoPolls : Overlap where
  serverId := 7
  events := .empty
  threads := [raidPoll, raidPoll]

theorem twoPolls_start : OverlapStart twoPolls := by
  refine ⟨?_, rfl, ?_, ?_⟩
  · intro t ht
    obtain rfl | rfl : t = raidPoll ∨ t = raidPoll := List.mem_pair.mp ht
    all_goals rfl
  · intro p hp
    cases hp
  · intro ev hev
    cases hev

/-- One poll after the other: the second finds the event of the first. -/
theorem one_open_event_iff_serial : ∃ s, s.fired = [(1, "md0".toList)] ∧ OneOpen s := by
  have hRun : (Runs.exec overlapStep Uncontested twoPolls
      [0, 0, 0, 0, 0, 0, 1, 1, 1, 1, 1]).any (fun s => s.fired = [(1, "md0".toList)]) = true := by
    decide +kernel
  obtain ⟨s, hs, hFired⟩ := (Option.any_eq_true _ _).mp hRun
  exact ⟨s, of_decide_eq_true hFired,
    (one_open_event_iff ((Runs.Reach.start twoPolls_start).of_exec hs)).1⟩

/-- The second poll begins when the first has collected, and both query before either inserts. -/
theorem both_passes_insert : ∃ s,
    Runs.Reach overlapStep OverlapStart Runs.Always s ∧ ¬ OneOpen s := by
  have hRun : (Runs.exec overlapStep Runs.Always twoPolls
      [0, 0, 1, 1, 0, 1, 0, 1, 0, 1]).any (fun s =>
        s.events.rows.map (fun ev => (ev.id, isOpenOf "RAID_DEGRADED" s.serverId ev)) =
            [(1, true), (2, true)] ∧
          s.fired = [(1, "md0".toList), (2, "md0".toList)]) = true := by
    decide +kernel
  obtain ⟨s, hs, hEnd⟩ := (Option.any_eq_true _ _).mp hRun
  obtain ⟨hRows, hFired⟩ := of_decide_eq_true hEnd
  refine ⟨s, (Runs.Reach.start twoPolls_start).of_exec hs, fun hOne => ?_⟩
  obtain ⟨ev, hev, hRow⟩ := List.mem_map.mp (hRows ▸ List.mem_cons_self :
    (1, true) ∈ s.events.rows.map fun ev => (ev.id, isOpenOf "RAID_DEGRADED" s.serverId ev))
  obtain ⟨ev', hev', hRow'⟩ := List.mem_map.mp (hRows ▸ by simp :
    (2, true) ∈ s.events.rows.map fun ev => (ev.id, isOpenOf "RAID_DEGRADED" s.serverId ev))
  obtain ⟨hId, hOpen⟩ := Prod.mk.inj hRow
  obtain ⟨hId', hOpen'⟩ := Prod.mk.inj hRow'
  have hSame := hOne ev hev ev' hev' "RAID_DEGRADED" "md0" (by simp [hFired, hId])
    (by simp [hFired, hId']) hOpen hOpen'
  rw [hSame, hId'] at hId
  omega

end GpuMon.Detectors

import GpuMon.Library.Tickets

/-!
# Superseded requests (`requestState.js`)

`createLatestRequest` wraps promises: when one of them settles, its continuation asks whether
another call or an `invalidate` came in between. `createRequestScope` hands out abort signals and
withdraws them. Both keep a counter, `sequence`, and a ticket for every call.

* `latest_superseded`, `latest_current`: what becomes of a call when its continuation runs.
* `scope_current_iff`: which request is current.
* `requests_latest_only`: only the latest request is applied, fails or is current.

Each event is one turn of the event loop. A continuation runs at any time after its promise has
settled; what `apply` does itself comes after it, as events of its own.
-/

namespace GpuMon.RequestState

open Tickets

/-! ## `createLatestRequest` -/

section Latest

variable {α β ε : Type}

inductive Settled (α ε : Type)
  | fulfilled (result : α)
  | rejected (error : ε)

/-- What the promise of a call becomes. -/
inductive Outcome (α β ε : Type)
  | undefined
  | result (result : α)
  | applied (value : β)
  | thrown (error : ε)

/-- A call, with the callback that is applied to its result. -/
structure Call (α β ε : Type) where
  request : Nat
  apply : Option (α → Except ε β)
  settled : Option (Settled α ε) := none
  outcome : Option (Outcome α β ε) := none

/-- `applied` lists the calls whose callback was run. -/
structure LatestRequest (α β ε : Type) where
  sequence : Nat := 0
  calls : List (Call α β ε) := []
  applied : List Nat := []

inductive Event (α β ε : Type)
  | call (apply : Option (α → Except ε β))
  | settle (i : Nat) (settled : Settled α ε)
  | resume (i : Nat)
  | invalidate

/-- The end of `applyLatest` for the latest call. -/
def finish (apply : Option (α → Except ε β)) : Settled α ε → Outcome α β ε
  | .rejected e => .thrown e
  | .fulfilled result =>
    match apply with
    | none => .result result
    | some f =>
      match f result with
      | .ok value => .applied value
      | .error e => .thrown e

/-- Whether the callback of the latest call is run. -/
def runsApply (apply : Option (α → Except ε β)) : Settled α ε → Bool
  | .rejected _ => false
  | .fulfilled _ => apply.isSome

/-- `applyLatest` after its `await`. -/
def resume (s : LatestRequest α β ε) (i : Nat) (c : Call α β ε) (settled : Settled α ε) :
    LatestRequest α β ε :=
  if c.request ≠ s.sequence then
    { s with calls := s.calls.set i { c with outcome := some .undefined } }
  else
    { s with
      calls := s.calls.set i { c with outcome := some (finish c.apply settled) }
      applied := if runsApply c.apply settled then s.applied ++ [i] else s.applied }

def step (s : LatestRequest α β ε) : Event α β ε → Option (LatestRequest α β ε)
  | .call apply => some { s with
      sequence := s.sequence + 1
      calls := s.calls ++ [{ request := s.sequence + 1, apply }] }
  | .settle i settled =>
    match s.calls[i]? with
    | some c =>
      if c.settled.isNone then
        some { s with calls := s.calls.set i { c with settled := some settled } }
      else none
    | none => none
  | .resume i =>
    match s.calls[i]? with
    | some c =>
      match c.settled, c.outcome with
      | some settled, none => some (resume s i c settled)
      | _, _ => none
    | none => none
  | .invalidate => some { s with sequence := s.sequence + 1 }

/-- The state after some events, if they can happen. -/
def run (events : List (Event α β ε)) : Option (LatestRequest α β ε) := events.foldlM step {}

/-- What an event does to the counter. -/
def Event.move : Event α β ε → Option Move
  | .call _ => some .draw
  | .invalidate => some .bump
  | _ => none

/-- The latest call so far, unless an `invalidate` came after it. -/
def latestCall (events : List (Event α β ε)) : Option Nat :=
  latest (events.filterMap Event.move)

def LatestRequest.outcome (s : LatestRequest α β ε) (i : Nat) : Option (Outcome α β ε) :=
  (s.calls[i]?).bind Call.outcome

variable {s s' : LatestRequest α β ε} {events : List (Event α β ε)} {i : Nat}

theorem run_concat (events : List (Event α β ε)) (e : Event α β ε) :
    run (events ++ [e]) = (run events).bind fun s => step s e := by
  simp [run, List.foldlM_append]

theorem map_request_set {calls : List (Call α β ε)} {c c' : Call α β ε} (h : calls[i]? = some c)
    (hSame : c'.request = c.request) :
    (calls.set i c').map Call.request = calls.map Call.request := by
  obtain ⟨hi, rfl⟩ := List.getElem?_eq_some_iff.mp h
  have hLength : i < (calls.map Call.request).length := by rwa [List.length_map]
  rw [List.map_set, hSame, ← List.getElem_map Call.request (h := hLength)]
  exact List.set_getElem_self hLength

/-- The counter and the tickets of the calls. -/
def log (s : LatestRequest α β ε) : Log := ⟨s.sequence, s.calls.map Call.request⟩

theorem resume_log {c : Call α β ε} (settled : Settled α ε) (h : s.calls[i]? = some c) :
    log (resume s i c settled) = log s := by
  unfold resume log
  split
  · rw [map_request_set h]
    rfl
  · rw [map_request_set h]
    rfl

theorem step_log {e : Event α β ε} (h : step s e = some s') :
    log s' = e.move.elim (log s) (log s).move := by
  cases e with
  | call apply =>
    cases h
    simp [log, Event.move, Log.move]
  | settle i settled =>
    simp only [step] at h
    split at h
    · rename_i c hc
      split at h <;> cases h
      simp [log, Event.move, map_request_set hc]
    · cases h
  | resume i =>
    simp only [step] at h
    split at h
    · rename_i c hc
      split at h <;> cases h
      exact resume_log _ hc
    · cases h
  | invalidate =>
    cases h
    rfl

theorem run_log (h : run events = some s) : log s = Tickets.run (events.filterMap Event.move) := by
  induction events using List.reverseRecOn generalizing s with
  | nil =>
    cases h
    rfl
  | append_singleton events e ih =>
    rw [run_concat] at h
    obtain ⟨t, ht, hStep⟩ := Option.bind_eq_some_iff.mp h
    rw [step_log hStep, ih ht, List.filterMap_append]
    cases hMove : e.move with
    | none => simp [hMove]
    | some m => simp [hMove, Tickets.run_concat]

/-- A call has the current number exactly when it is the latest. -/
theorem request_eq_iff (h : run events = some s) {c : Call α β ε} (hc : s.calls[i]? = some c) :
    c.request = s.sequence ↔ latestCall events = some i := by
  have hLog := run_log h
  have hDrawn : (Tickets.run (events.filterMap Event.move)).drawn[i]? = some c.request := by
    rw [← hLog]
    simp [log, hc]
  rw [latestCall, ← current_iff, hDrawn, ← hLog, Option.some.injEq]
  rfl

/-- The continuation of a call that was superseded. -/
theorem latest_superseded (h : run events = some s) (hStep : step s (.resume i) = some s')
    (hOld : latestCall events ≠ some i) :
    s'.outcome i = some .undefined ∧ s'.applied = s.applied := by
  simp only [step] at hStep
  split at hStep
  · rename_i c hc
    split at hStep <;> cases hStep
    have hi : i < s.calls.length := (List.getElem?_eq_some_iff.mp hc).1
    rw [resume, if_pos fun hSame => hOld ((request_eq_iff h hc).mp hSame)]
    exact ⟨by simp [LatestRequest.outcome, List.getElem?_set_self hi], rfl⟩
  · cases hStep

/-- The continuation of the latest call. -/
theorem latest_current (h : run events = some s) (hStep : step s (.resume i) = some s')
    (hLatest : latestCall events = some i) :
    ∃ c settled, s.calls[i]? = some c ∧ c.settled = some settled ∧
      s'.outcome i = some (finish c.apply settled) ∧
      s'.applied = if runsApply c.apply settled then s.applied ++ [i] else s.applied := by
  simp only [step] at hStep
  split at hStep
  · rename_i c hc
    split at hStep
    · rename_i settled hSettled _
      cases hStep
      have hi : i < s.calls.length := (List.getElem?_eq_some_iff.mp hc).1
      refine ⟨c, settled, hc, hSettled, ?_⟩
      rw [resume, if_neg (not_not.mpr ((request_eq_iff h hc).mpr hLatest))]
      exact ⟨by simp [LatestRequest.outcome, List.getElem?_set_self hi], rfl⟩
    · cases hStep
  · cases hStep

-- the first response comes in after the second one and is dropped
example : (run (α := Nat) (β := Nat) (ε := Nat)
    [.call (some .ok), .call (some .ok), .settle 1 (.fulfilled 5), .resume 1, .settle 0 (.fulfilled 4),
      .resume 0]).map (fun s => s.applied) = some [1] := rfl

/-- A call that has settled runs on, once. -/
theorem resume_enabled {c : Call α β ε} (hc : s.calls[i]? = some c) :
    (step s (.resume i)).isSome ↔ c.settled.isSome ∧ c.outcome = none := by
  simp only [step, hc]
  cases c.settled with
  | none => simp
  | some settled => cases c.outcome <;> simp

/-- Nothing but its own continuation gives a call an outcome or runs a callback. -/
theorem step_outcome {e : Event α β ε} (hStep : step s e = some s') (hOther : e ≠ .resume i) :
    s'.outcome i = s.outcome i ∧ ((∀ j, e ≠ .resume j) → s'.applied = s.applied) := by
  have hSet : ∀ {j : Nat} {c : Call α β ε}, s.calls[j]? = some c → ∀ c' : Call α β ε,
      (j = i → c'.outcome = c.outcome) →
        ((s.calls.set j c')[i]?).bind Call.outcome = (s.calls[i]?).bind Call.outcome := by
    intro j c hc c' hOutcome
    rw [List.getElem?_set]
    by_cases hj : j = i
    · subst hj
      rw [if_pos rfl, if_pos (List.getElem?_eq_some_iff.mp hc).1, hc]
      exact hOutcome rfl
    · rw [if_neg hj]
  cases e with
  | call apply =>
    cases hStep
    refine ⟨?_, fun _ => rfl⟩
    simp only [LatestRequest.outcome, List.getElem?_append]
    split
    · rfl
    · rename_i hLength
      rw [List.getElem?_eq_none (not_lt.mp hLength), List.getElem?_singleton]
      split <;> rfl
  | settle j settled =>
    simp only [step] at hStep
    split at hStep
    · rename_i c hc
      split at hStep <;> cases hStep
      exact ⟨hSet hc _ fun _ => rfl, fun _ => rfl⟩
    · cases hStep
  | resume j =>
    refine ⟨?_, fun hNone => absurd rfl (hNone j)⟩
    have hj : j ≠ i := fun h => hOther (by rw [h])
    simp only [step] at hStep
    split at hStep
    · rename_i c hc
      split at hStep <;> cases hStep
      unfold resume
      split <;> exact hSet hc _ fun h => absurd h hj
    · cases hStep
  | invalidate =>
    cases hStep
    exact ⟨rfl, fun _ => rfl⟩

end Latest

/-! ## `createRequestScope` -/

section Scope

/-- What `begin` hands out: its number, and whether its signal was aborted. -/
structure Request where
  request : Nat
  aborted : Bool
  deriving DecidableEq

/-- `controller` is the request whose controller the scope holds. -/
structure RequestScope where
  sequence : Nat := 0
  disposed : Bool := false
  controller : Option Nat := none
  requests : List Request := []
  deriving DecidableEq

inductive ScopeEvent
  | begin
  | dispose
  deriving DecidableEq

def abort (requests : List Request) (i : Nat) : List Request :=
  requests.modify i fun r => { r with aborted := true }

/-- `controller?.abort()`. -/
def abortHeld (s : RequestScope) : List Request := s.controller.elim s.requests (abort s.requests)

/-- A `begin` after `dispose` gets a signal that is aborted at once. -/
def scopeStep (s : RequestScope) : ScopeEvent → RequestScope
  | .begin =>
    { s with
      sequence := s.sequence + 1
      controller := some s.requests.length
      requests := abortHeld s ++ [⟨s.sequence + 1, s.disposed⟩] }
  | .dispose =>
    { s with sequence := s.sequence + 1, disposed := true, requests := abortHeld s }

def scopeRun (events : List ScopeEvent) : RequestScope := events.foldl scopeStep {}

/-- What `current()` of a request says. -/
def RequestScope.current (s : RequestScope) (r : Request) : Prop :=
  s.disposed = false ∧ r.request = s.sequence

instance (s : RequestScope) (r : Request) : Decidable (s.current r) :=
  inferInstanceAs (Decidable (_ ∧ _))

variable {r : Request}

def ScopeEvent.move : ScopeEvent → Move
  | .begin => .draw
  | .dispose => .bump

/-- The latest request so far, unless a `dispose` came after it. -/
def latestRequest (events : List ScopeEvent) : Option Nat := latest (events.map ScopeEvent.move)

theorem scopeRun_concat (events : List ScopeEvent) (e : ScopeEvent) :
    scopeRun (events ++ [e]) = scopeStep (scopeRun events) e := by
  simp [scopeRun]

theorem abort_numbers (requests : List Request) (i : Nat) :
    (abort requests i).map Request.request = requests.map Request.request := by
  apply List.ext_getElem?
  intro j
  rw [List.getElem?_map, List.getElem?_map, abort, List.getElem?_modify]
  cases requests[j]? with
  | none => rfl
  | some r =>
    simp only [Option.map_some]
    split <;> rfl

theorem abortHeld_numbers (s : RequestScope) :
    (abortHeld s).map Request.request = s.requests.map Request.request := by
  unfold abortHeld
  cases s.controller with
  | none => rfl
  | some i => exact abort_numbers _ i

theorem scopeRun_log (events : List ScopeEvent) :
    (⟨(scopeRun events).sequence, (scopeRun events).requests.map Request.request⟩ : Log) =
      Tickets.run (events.map ScopeEvent.move) := by
  induction events using List.reverseRecOn with
  | nil => rfl
  | append_singleton events e ih =>
    rw [scopeRun_concat, List.map_append, List.map_singleton, Tickets.run_concat, ← ih]
    cases e with
    | begin => simp [scopeStep, ScopeEvent.move, Log.move, abortHeld_numbers]
    | dispose => simp [scopeStep, ScopeEvent.move, Log.move, abortHeld_numbers]

theorem scopeRun_disposed (events : List ScopeEvent) :
    (scopeRun events).disposed = true ↔ .dispose ∈ events := by
  induction events using List.reverseRecOn with
  | nil => simp [scopeRun]
  | append_singleton events e ih =>
    rw [scopeRun_concat, List.mem_append, List.mem_singleton, ← ih]
    cases e <;> simp [scopeStep]

/-- Which request is current. -/
theorem scope_current_iff (events : List ScopeEvent) {i : Nat}
    (h : (scopeRun events).requests[i]? = some r) :
    (scopeRun events).current r ↔ .dispose ∉ events ∧ latestRequest events = some i := by
  have hLog := scopeRun_log events
  have hDrawn : (Tickets.run (events.map ScopeEvent.move)).drawn[i]? = some r.request := by
    rw [← hLog]
    simp [h]
  rw [latestRequest, ← current_iff, hDrawn, ← hLog, Option.some.injEq, RequestScope.current,
    ← scopeRun_disposed, Bool.not_eq_true]

/-- The scope holds the controller of its last request, and no other signal is alive. -/
structure Held (s : RequestScope) : Prop where
  controller : ∀ i, s.controller = some i ↔ i + 1 = s.requests.length
  aborted : ∀ i r, s.requests[i]? = some r →
    (r.aborted = true ↔ s.disposed = true ∨ i + 1 ≠ s.requests.length)

theorem length_abortHeld (s : RequestScope) : (abortHeld s).length = s.requests.length := by
  unfold abortHeld
  cases s.controller with
  | none => rfl
  | some i => exact List.length_modify ..

/-- What was handed out earlier is aborted by the next `begin` or `dispose`. -/
theorem Held.abortHeld_aborted {s : RequestScope} (h : Held s) :
    ∀ r ∈ abortHeld s, r.aborted = true := by
  intro r hr
  obtain ⟨i, hi⟩ := List.mem_iff_getElem?.mp hr
  cases hController : s.controller with
  | none =>
    rw [abortHeld, hController, Option.elim_none] at hi
    refine (h.aborted i r hi).mpr (.inr fun hLast => ?_)
    rw [(h.controller i).mpr hLast] at hController
    cases hController
  | some j =>
    rw [abortHeld, hController, Option.elim_some, abort, List.getElem?_modify] at hi
    by_cases hj : j = i
    · simp only [if_pos hj] at hi
      obtain ⟨q, -, rfl⟩ := Option.map_eq_some_iff.mp hi
      rfl
    · simp only [if_neg hj, id_map'] at hi
      refine (h.aborted i r hi).mpr (.inr fun hLast => hj ?_)
      have hHeld := (h.controller j).mp hController
      omega

theorem Held.step {s : RequestScope} (h : Held s) (e : ScopeEvent) : Held (scopeStep s e) := by
  cases e with
  | begin =>
    refine ⟨fun i => ?_, fun i r hr => ?_⟩
    · simp only [scopeStep, Option.some.injEq, List.length_append, length_abortHeld,
        List.length_singleton]
      omega
    · simp only [scopeStep, List.getElem?_append, length_abortHeld] at hr ⊢
      simp only [List.length_append, length_abortHeld, List.length_singleton]
      split at hr
      · rename_i hi
        exact iff_of_true (h.abortHeld_aborted r (List.mem_of_getElem? hr)) (.inr (by omega))
      · rename_i hi
        obtain ⟨hZero, rfl⟩ := List.getElem?_eq_some_iff.mp hr
        have hLast : i = s.requests.length := by
          simp only [List.length_singleton] at hZero
          omega
        simp [hLast]
  | dispose =>
    refine ⟨fun i => ?_, fun i r hr => ?_⟩
    · simpa [scopeStep, length_abortHeld] using h.controller i
    · exact iff_of_true (h.abortHeld_aborted r (List.mem_of_getElem? hr)) (.inl rfl)

theorem Held.run (events : List ScopeEvent) : Held (scopeRun events) := by
  induction events using List.reverseRecOn with
  | nil => exact ⟨by simp [scopeRun], by simp [scopeRun]⟩
  | append_singleton events e ih =>
    rw [scopeRun_concat]
    exact ih.step e

/-- The latest request is the last one, unless a `dispose` followed. -/
theorem latestRequest_of_not_disposed {events : List ScopeEvent} (h : .dispose ∉ events) {i : Nat} :
    latestRequest events = some i ↔ i + 1 = (scopeRun events).requests.length := by
  induction events using List.reverseRecOn with
  | nil => simp [latestRequest, latest, scopeRun]
  | append_singleton events e _ =>
    cases e with
    | begin =>
      have hLog := congrArg (fun l => l.drawn.length) (scopeRun_log events)
      simp only [List.length_map] at hLog
      rw [latestRequest, List.map_append, List.map_singleton, ScopeEvent.move,
        latest_concat_draw, ← hLog, scopeRun_concat]
      simp only [scopeStep, List.length_append, length_abortHeld, List.length_singleton,
        Option.some.injEq]
      omega
    | dispose => simp at h

/-- A signal is alive exactly while its request is current. -/
theorem scope_alive_iff (events : List ScopeEvent) {i : Nat}
    (h : (scopeRun events).requests[i]? = some r) :
    r.aborted = false ↔ (scopeRun events).current r := by
  rw [scope_current_iff events h, ← Bool.not_eq_true, (Held.run events).aborted i r h, not_or,
    not_not, scopeRun_disposed]
  exact and_congr_right fun hDispose => (latestRequest_of_not_disposed hDispose).symm

end Scope

section Main

variable {α β ε : Type}

/-- What one event does after any others: an outcome is that of the latest call, or `undefined`. -/
theorem latest_step {s s' : LatestRequest α β ε} {events : List (Event α β ε)} {e : Event α β ε}
    (h : run events = some s) (hStep : step s e = some s') :
    (s'.applied ≠ s.applied →
      ∃ i, e = .resume i ∧ latestCall events = some i ∧ s'.applied = s.applied ++ [i]) ∧
    ∀ i error, s'.outcome i = some (.thrown error) →
      s.outcome i = some (.thrown error) ∨ e = .resume i ∧ latestCall events = some i := by
  refine ⟨fun hApplied => ?_, fun i error hThrown => ?_⟩
  · by_cases hResume : ∃ i, e = .resume i
    · obtain ⟨i, rfl⟩ := hResume
      have hLatest : latestCall events = some i := by
        by_contra hOld
        exact hApplied (latest_superseded h hStep hOld).2
      obtain ⟨c, settled, -, -, -, hRun⟩ := latest_current h hStep hLatest
      split at hRun
      · exact ⟨i, rfl, hLatest, hRun⟩
      · exact absurd hRun hApplied
    · have hNone : ∀ j, e ≠ .resume j := fun j hj => hResume ⟨j, hj⟩
      exact absurd ((step_outcome hStep (hNone 0)).2 hNone) hApplied
  · by_cases hResume : e = .resume i
    · subst hResume
      refine .inr ⟨rfl, ?_⟩
      by_contra hOld
      rw [(latest_superseded h hStep hOld).1] at hThrown
      cases hThrown
    · exact .inl ((step_outcome hStep hResume).1 ▸ hThrown)

/-- At most one request of a scope is current, and every other one is aborted. -/
theorem scope_only (events : List ScopeEvent) {i : Nat} {r : Request}
    (h : (scopeRun events).requests[i]? = some r) :
    (∀ j q, (scopeRun events).requests[j]? = some q →
      (scopeRun events).current r → (scopeRun events).current q → i = j) ∧
    (i + 1 ≠ (scopeRun events).requests.length ∨ .dispose ∈ events →
      r.aborted = true ∧ ¬(scopeRun events).current r) := by
  refine ⟨fun j q hq hr hCurrent => ?_, fun hOld => ?_⟩
  · have hi := ((scope_current_iff events h).mp hr).2
    have hj := ((scope_current_iff events hq).mp hCurrent).2
    exact Option.some.inj (hi.symm.trans hj)
  · have hAborted : r.aborted = true :=
      ((Held.run events).aborted i r h).mpr (hOld.symm.imp_left (scopeRun_disposed events).mpr)
    refine ⟨hAborted, fun hCurrent => ?_⟩
    rw [(scope_alive_iff events h).mpr hCurrent] at hAborted
    cases hAborted

/-- Only the latest request is applied, fails or is current. -/
theorem requests_latest_only :
    (∀ (events : List (Event α β ε)) s, run events = some s →
      (∀ i c, s.calls[i]? = some c → c.outcome = none → c.settled.isSome →
        (step s (.resume i)).isSome) ∧
      (∀ i s', step s (.resume i) = some s' → latestCall events ≠ some i →
        s'.outcome i = some .undefined ∧ s'.applied = s.applied) ∧
      ∀ e s', step s e = some s' →
        (s'.applied ≠ s.applied →
          ∃ i, e = .resume i ∧ latestCall events = some i ∧ s'.applied = s.applied ++ [i]) ∧
        ∀ i error, s'.outcome i = some (.thrown error) →
          s.outcome i = some (.thrown error) ∨ e = .resume i ∧ latestCall events = some i) ∧
    ∀ events i r, (scopeRun events).requests[i]? = some r →
      (∀ j q, (scopeRun events).requests[j]? = some q →
        (scopeRun events).current r → (scopeRun events).current q → i = j) ∧
      (i + 1 ≠ (scopeRun events).requests.length ∨ .dispose ∈ events →
        r.aborted = true ∧ ¬(scopeRun events).current r) := by
  refine ⟨fun events s h => ⟨fun i c hc hNone hSettled => ?_, fun i s' hStep hOld => ?_,
    fun e s' hStep => ?_⟩, fun events i r h => ?_⟩
  · exact (resume_enabled hc).mpr ⟨hSettled, hNone⟩
  · exact latest_superseded h hStep hOld
  · exact latest_step h hStep
  · exact scope_only events h

end Main

end GpuMon.RequestState

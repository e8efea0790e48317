import GpuMon.Cache.InMemory

/-!
# Concurrent callers of one cached value (`cache.cached`)

Callers of `cached(key, ttl, fn)` for one key. A caller looks into the backend; if it finds
nothing it registers under the lock of the in-flight table, as the leader if the key is not in
flight. The leader runs `fn`, stores the value, leaves the table and sets its event; the others
wait for the event, look again, and run `fn` themselves if they still find nothing. Between any
two of these steps other callers, and operations on other keys, may come.

* `step_effect`: what a step can do, said once.
* `executed_once`: in every run in which entries stay, waits do not time out, `fn` succeeds, and
  no caller registers after the value was stored and its leader has left, `fn` runs once, every
  caller that returns returns its value, and no caller is stuck.
* `executed_twice`: a caller that looked before the value was stored and registers after the
  leader has left runs `fn` again.

The operations of this backend do not raise, so the branches for a failing backend are not here.
-/

namespace GpuMon.SingleFlight

open Cache Runs

variable {β : Type}

/-- How far a caller has come. A result `none` of `fn` is an exception. -/
inductive Phase (β : Type)
  | idle
  | missed
  | leading
  | computed (value : Option β)
  | stored (value : Option β)
  | raised
  | unregistered (result : Option (Option β))
  | waiting (leader : Nat)
  | woken
  | fallback
  | returned (value : Option β)
  | failed
  deriving DecidableEq

/-- The backend, the leader whose event is registered under the key, the events that are set, the
callers, and the results of `fn` so far. -/
structure State (β : Type) where
  clock : ℚ
  backend : InMemoryBackend β
  inflight : Option Nat := none
  signaled : Nat → Bool := fun _ => false
  phase : Nat → Phase β := fun _ => .idle
  executions : List (Option (Option β)) := []

inductive Action (β : Type)
  | lookup (i : Nat) (now : ℚ)
  | register (i : Nat)
  | run (i : Nat) (result : Option (Option β))
  | store (i : Nat) (now : ℚ)
  | unregister (i : Nat)
  | signal (i : Nat)
  | wake (i : Nat)
  | timeout (i : Nat)
  | recheck (i : Nat) (now : ℚ)
  | other (now : ℚ) (op : Op β)

def State.move (s : State β) (i : Nat) (p : Phase β) : State β :=
  { s with phase := Function.update s.phase i p }

/-- A lookup: a caller that finds a value returns it, another one goes on. -/
def State.look (s : State β) (key : Text) (i : Nat) (now : ℚ) (onMiss : Phase β) : State β :=
  let (hit, backend) := s.backend.get now key
  { s.move i (if hit.isSome then .returned hit else onMiss) with clock := now, backend }

/-- Where a call of `fn` leads: on in `cached`, or out of it by the exception. -/
def leaderPhase : Option (Option β) → Phase β
  | some value => .computed value
  | none => .raised

/-- The end of a call. -/
def callerPhase : Option (Option β) → Phase β
  | some value => .returned value
  | none => .failed

/-- An operation that does not write the key. -/
def spares (key : Text) : Op β → Bool
  | .set key' _ _ => key' ≠ key
  | _ => true

section Step

variable (key : Text) (ttl : ℚ)

/-- One step of a caller, or an operation on another key. -/
def step (s : State β) : Action β → Option (State β)
  | .lookup i now =>
    match s.phase i with
    | .idle => if s.clock ≤ now then some (s.look key i now .missed) else none
    | _ => none
  | .register i =>
    match s.phase i, s.inflight with
    | .missed, none => some { s.move i .leading with inflight := some i }
    | .missed, some j => some (s.move i (.waiting j))
    | _, _ => none
  | .run i result =>
    match s.phase i with
    | .leading => some { s.move i (leaderPhase result) with executions := s.executions ++ [result] }
    | .fallback => some { s.move i (callerPhase result) with executions := s.executions ++ [result] }
    | _ => none
  | .store i now =>
    match s.phase i with
    | .computed value =>
      if s.clock ≤ now then
        some { s.move i (.stored value) with clock := now, backend := s.backend.set now key value ttl }
      else none
    | _ => none
  | .unregister i =>
    match s.phase i with
    | .stored value => some { s.move i (.unregistered (some value)) with inflight := none }
    | .raised => some { s.move i (.unregistered none) with inflight := none }
    | _ => none
  | .signal i =>
    match s.phase i with
    | .unregistered result =>
      some { s.move i (callerPhase result) with signaled := Function.update s.signaled i true }
    | _ => none
  | .wake i =>
    match s.phase i with
    | .waiting j => if s.signaled j then some (s.move i .woken) else none
    | _ => none
  | .timeout i =>
    match s.phase i with
    | .waiting _ => some (s.move i .woken)
    | _ => none
  | .recheck i now =>
    match s.phase i with
    | .woken => if s.clock ≤ now then some (s.look key i now .fallback) else none
    | _ => none
  | .other now op =>
    if s.clock ≤ now ∧ spares key op = true then
      some { s with clock := now, backend := s.backend.run now op }
    else none

/-! ## What one step can do -/

/-- The effect of a step. -/
inductive Effect (s : State β) : Action β → State β → Prop
  | looked {i : Nat} {now : ℚ} : s.phase i = .idle →
      Effect s (.lookup i now) (s.look key i now .missed)
  | lookedAgain {i : Nat} {now : ℚ} : s.phase i = .woken →
      Effect s (.recheck i now) (s.look key i now .fallback)
  | led {i : Nat} : s.phase i = .missed → s.inflight = none →
      Effect s (.register i) { s.move i .leading with inflight := some i }
  | followed {i j : Nat} : s.phase i = .missed → s.inflight = some j →
      Effect s (.register i) (s.move i (.waiting j))
  | ran {i : Nat} {result : Option (Option β)} : s.phase i = .leading →
      Effect s (.run i result)
        { s.move i (leaderPhase result) with executions := s.executions ++ [result] }
  | ranAlone {i : Nat} {result : Option (Option β)} : s.phase i = .fallback →
      Effect s (.run i result)
        { s.move i (callerPhase result) with executions := s.executions ++ [result] }
  | stored {i : Nat} {now : ℚ} {value : Option β} : s.phase i = .computed value →
      Effect s (.store i now)
        { s.move i (.stored value) with clock := now, backend := s.backend.set now key value ttl }
  | left {i : Nat} {value : Option β} : s.phase i = .stored value →
      Effect s (.unregister i) { s.move i (.unregistered (some value)) with inflight := none }
  | leftRaising {i : Nat} : s.phase i = .raised →
      Effect s (.unregister i) { s.move i (.unregistered none) with inflight := none }
  | signaled {i : Nat} {result : Option (Option β)} : s.phase i = .unregistered result →
      Effect s (.signal i)
        { s.move i (callerPhase result) with signaled := Function.update s.signaled i true }
  | woke {i j : Nat} : s.phase i = .waiting j → s.signaled j = true →
      Effect s (.wake i) (s.move i .woken)
  | gaveUp {i j : Nat} : s.phase i = .waiting j → Effect s (.timeout i) (s.move i .woken)
  | others {now : ℚ} {op : Op β} : spares key op = true →
      Effect s (.other now op) { s with clock := now, backend := s.backend.run now op }

end Step

variable {key : Text} {ttl : ℚ} {s s' : State β}

theorem step_effect {a : Action β} (h : step key ttl s a = some s') : Effect key ttl s a s' := by
  cases a with
  | lookup i now =>
    dsimp only [step] at h
    split at h
    · rename_i hPhase
      obtain ⟨-, hNext⟩ := Option.ite_none_right_eq_some.mp h
      cases hNext
      exact .looked hPhase
    · cases h
  | register i =>
    dsimp only [step] at h
    split at h <;> cases h
    · rename_i hPhase hNone
      exact .led hPhase hNone
    · rename_i hPhase hSome
      exact .followed hPhase hSome
  | run i result =>
    dsimp only [step] at h
    split at h <;> cases h
    · rename_i hPhase
      exact .ran hPhase
    · rename_i hPhase
      exact .ranAlone hPhase
  | store i now =>
    dsimp only [step] at h
    split at h
    · rename_i hPhase
      obtain ⟨-, hNext⟩ := Option.ite_none_right_eq_some.mp h
      cases hNext
      exact .stored hPhase
    · cases h
  | unregister i =>
    dsimp only [step] at h
    split at h <;> cases h
    · rename_i hPhase
      exact .left hPhase
    · rename_i hPhase
      exact .leftRaising hPhase
  | signal i =>
    dsimp only [step] at h
    split at h <;> cases h
    rename_i hPhase
    exact .signaled hPhase
  | wake i =>
    dsimp only [step] at h
    split at h
    · rename_i hPhase
      obtain ⟨hSignaled, hNext⟩ := Option.ite_none_right_eq_some.mp h
      cases hNext
      exact .woke hPhase hSignaled
    · cases h
  | timeout i =>
    dsimp only [step] at h
    split at h <;> cases h
    rename_i hPhase
    exact .gaveUp hPhase
  | recheck i now =>
    dsimp only [step] at h
    split at h
    · rename_i hPhase
      obtain ⟨-, hNext⟩ := Option.ite_none_right_eq_some.mp h
      cases hNext
      exact .lookedAgain hPhase
    · cases h
  | other now op =>
    obtain ⟨⟨-, hSpares⟩, hNext⟩ := Option.ite_none_right_eq_some.mp h
    cases hNext
    exact .others hSpares

/-- What others do to the entry of the key can only remove it. -/
theorem entry_of_run {c : InMemoryBackend β} {now : ℚ} {op : Op β} {e : ℚ × Option β}
    (hSpares : spares key op = true) (h : (c.run now op).entry key = some e) :
    c.entry key = some e := by
  cases op with
  | get key' => exact get_sub h
  | set key' value ttl' =>
    have hSub := set_sub h
    rw [Dict.get?_set, if_neg fun hSame => of_decide_eq_true hSpares hSame.symm] at hSub
    exact hSub
  | clear => cases h
  | invalidatePrefix head =>
    have hKept := (Dict.get?_filterKeys c.data (fun k => !PyText.startsWith k head) key).symm.trans h
    split at hKept
    · exact hKept
    · cases hKept

/-! ## Where values come from -/

/-- The values on the way of caller `i`: what it computed is its own, what it returns it got. -/
def MarkedPhase (own got : Nat → β → Prop) (i : Nat) : Phase β → Prop
  | .computed value => ∀ v, value = some v → own i v
  | .stored value => ∀ v, value = some v → own i v
  | .unregistered result => ∀ v, result = some (some v) → own i v
  | .returned value => ∀ v, value = some v → got i v
  | _ => True

structure Marked (key : Text) (own got : Nat → β → Prop) (kept : β → Prop) (s : State β) :
    Prop where
  phases : ∀ i, MarkedPhase own got i (s.phase i)
  entry : ∀ expires v, s.backend.entry key = some (expires, some v) → kept v

section Marked

variable {own got : Nat → β → Prop} {kept : β → Prop}

theorem Marked.mono {own' got' : Nat → β → Prop} {kept' : β → Prop}
    (h : Marked key own got kept s)
    (hOwn : ∀ i, s.phase i ≠ .idle → ∀ v, own i v → own' i v)
    (hGot : ∀ i, s.phase i ≠ .idle → ∀ v, got i v → got' i v)
    (hKept : ∀ v, kept v → kept' v) : Marked key own' got' kept' s := by
  refine ⟨fun i => ?_, fun expires v hEntry => hKept v (h.entry expires v hEntry)⟩
  have hMark := h.phases i
  have hHere := hOwn i
  have hThere := hGot i
  cases hPhase : s.phase i with
  | computed value =>
    rw [hPhase] at hMark hHere
    exact fun v hv => hHere (by simp) v (hMark v hv)
  | stored value =>
    rw [hPhase] at hMark hHere
    exact fun v hv => hHere (by simp) v (hMark v hv)
  | unregistered result =>
    rw [hPhase] at hMark hHere
    exact fun v hv => hHere (by simp) v (hMark v hv)
  | returned value =>
    rw [hPhase] at hMark hThere
    exact fun v hv => hThere (by simp) v (hMark v hv)
  | _ => trivial

/-- A caller goes on, and the entry is at most removed. -/
theorem Marked.move (h : Marked key own got kept s) {i : Nat} {p : Phase β}
    (hPhase : s'.phase = Function.update s.phase i p) (hMark : MarkedPhase own got i p)
    (hEntry : ∀ e, s'.backend.entry key = some e → s.backend.entry key = some e) :
    Marked key own got kept s' := by
  refine ⟨fun j => ?_, fun expires v hStored => h.entry expires v (hEntry _ hStored)⟩
  rw [hPhase]
  by_cases hSame : j = i
  · subst hSame
    rw [Function.update_self]
    exact hMark
  · rw [Function.update_of_ne hSame]
    exact h.phases j

theorem Marked.look (h : Marked key own got kept s) {i : Nat} {now : ℚ} {p : Phase β}
    (hGot : ∀ v, kept v → got i v) (hMiss : MarkedPhase own got i p) :
    Marked key own got kept (s.look key i now p) := by
  have hHit : MarkedPhase own got i
      (if (s.backend.get now key).1.isSome then .returned (s.backend.get now key).1 else p) := by
    by_cases hSome : (s.backend.get now key).1.isSome
    · rw [if_pos hSome]
      intro v hv
      obtain ⟨expires, hStored⟩ := entry_of_get hv
      exact hGot v (h.entry expires v hStored)
    · rw [if_neg hSome]
      exact hMiss
  exact h.move rfl hHit fun e he => get_sub he

theorem markedPhase_leaderPhase {i : Nat} {result : Option (Option β)}
    (h : ∀ v, result = some (some v) → own i v) : MarkedPhase own got i (leaderPhase result) := by
  cases result with
  | none => trivial
  | some value => exact fun v hv => h v (congrArg some hv)

theorem markedPhase_callerPhase {i : Nat} {result : Option (Option β)}
    (h : ∀ v, result = some (some v) → got i v) : MarkedPhase own got i (callerPhase result) := by
  cases result with
  | none => trivial
  | some value => exact fun v hv => h v (congrArg some hv)

/-- The marks are kept when `fn` computes marked values, and what is stored may be kept. -/
theorem marked_step {a : Action β} (h : Marked key own got kept s)
    (hOwn : ∀ i v, own i v → got i v)
    (hLook : ∀ i now v, a = .lookup i now ∨ a = .recheck i now → kept v → got i v)
    (hRun : ∀ i v, a = .run i (some (some v)) → own i v)
    (hStore : ∀ i now v, a = .store i now → own i v → kept v)
    (hStep : step key ttl s a = some s') : Marked key own got kept s' := by
  have hAt : ∀ {i p}, s.phase i = p → MarkedPhase own got i p := by
    rintro i p rfl
    exact h.phases i
  cases step_effect hStep with
  | looked hPhase => exact h.look (fun v => hLook _ _ v (.inl rfl)) trivial
  | lookedAgain hPhase => exact h.look (fun v => hLook _ _ v (.inr rfl)) trivial
  | led hPhase hNone => exact h.move rfl trivial fun _ he => he
  | followed hPhase hTable => exact h.move rfl trivial fun _ he => he
  | ran hPhase =>
    refine h.move rfl (markedPhase_leaderPhase fun v hv => ?_) fun _ he => he
    exact hRun _ v (congrArg _ hv)
  | ranAlone hPhase =>
    refine h.move rfl (markedPhase_callerPhase fun v hv => ?_) fun _ he => he
    exact hOwn _ v (hRun _ v (congrArg _ hv))
  | @stored i now value hPhase =>
    have hMark := hAt hPhase
    refine ⟨fun j => ?_, fun expires v hEntry => ?_⟩
    · change MarkedPhase own got j (Function.update s.phase i (.stored value) j)
      by_cases hSame : j = i
      · subst hSame
        rw [Function.update_self]
        exact hMark
      · rw [Function.update_of_ne hSame]
        exact h.phases j
    · -- what is there after the write is what was written
      have hPut := set_sub hEntry
      rw [Dict.get?_set, if_pos rfl] at hPut
      have hValue : value = some v := (Prod.ext_iff.mp (Option.some.inj hPut)).2
      exact hStore i now v rfl (hMark v hValue)
  | left hPhase =>
    have hMark := hAt hPhase
    exact h.move rfl (fun v hv => hMark v (Option.some.inj hv)) fun _ he => he
  | leftRaising hPhase => exact h.move rfl (fun v hv => by cases hv) fun _ he => he
  | signaled hPhase =>
    have hMark := hAt hPhase
    exact h.move rfl (markedPhase_callerPhase fun v hv => hOwn _ v (hMark v hv)) fun _ he => he
  | woke hPhase hSignaled => exact h.move rfl trivial fun _ he => he
  | gaveUp hPhase => exact h.move rfl trivial fun _ he => he
  | others hSpares =>
    exact ⟨h.phases, fun expires v hEntry => h.entry expires v (entry_of_run hSpares hEntry)⟩

end Marked

theorem phase_look {i j : Nat} {now : ℚ} {p : Phase β} (h : j ≠ i) :
    (s.look key i now p).phase j = s.phase j := Function.update_of_ne h _ _

/-- A caller comes by its first lookup. -/
theorem came_of_step {a : Action β} {i : Nat} (h : s'.phase i ≠ .idle)
    (hStep : step key ttl s a = some s') : s.phase i ≠ .idle ∨ ∃ now, a = .lookup i now := by
  have hMove : ∀ {j p q}, s.phase j = q → q ≠ .idle → s'.phase = Function.update s.phase j p →
      s.phase i ≠ .idle := by
    intro j p q hPhase hCame hNext
    by_cases hSame : i = j
    · rw [hSame, hPhase]
      exact hCame
    · rw [hNext, Function.update_of_ne hSame] at h
      exact h
  cases step_effect hStep with
  | @looked j now hPhase =>
    by_cases hSame : i = j
    · subst hSame
      exact .inr ⟨now, rfl⟩
    · rw [phase_look hSame] at h
      exact .inl h
  | lookedAgain hPhase => exact .inl (hMove hPhase (by simp) rfl)
  | led hPhase hNone => exact .inl (hMove hPhase (by simp) rfl)
  | followed hPhase hTable => exact .inl (hMove hPhase (by simp) rfl)
  | ran hPhase => exact .inl (hMove hPhase (by simp) rfl)
  | ranAlone hPhase => exact .inl (hMove hPhase (by simp) rfl)
  | stored hPhase => exact .inl (hMove hPhase (by simp) rfl)
  | left hPhase => exact .inl (hMove hPhase (by simp) rfl)
  | leftRaising hPhase => exact .inl (hMove hPhase (by simp) rfl)
  | signaled hPhase => exact .inl (hMove hPhase (by simp) rfl)
  | woke hPhase hSignaled => exact .inl (hMove hPhase (by simp) rfl)
  | gaveUp hPhase => exact .inl (hMove hPhase (by simp) rfl)
  | others hSpares => exact .inl h

/-- A caller looks again after it has waited. -/
theorem woken_of_recheck {i : Nat} {now : ℚ} (hStep : step key ttl s (.recheck i now) = some s') :
    s.phase i = .woken := by
  cases step_effect hStep with
  | lookedAgain hPhase => exact hPhase

/-! ## Runs of a single flight -/

section Conditions

variable (key : Text) (ttl : ℚ)

/-- `fn` succeeds with a value, no wait times out, and no entry of the key expires, is evicted or
is invalidated. -/
def quiet (s : State β) : Action β → Bool
  | .lookup _ now => (s.backend.entry key).all fun e => now ≤ e.1
  | .recheck _ now => (s.backend.entry key).all fun e => now ≤ e.1
  | .run _ result => result.join.isSome
  | .store i now =>
    match s.phase i with
    | .computed value => ((s.backend.set now key value ttl).entry key).isSome
    | _ => true
  | .timeout _ => false
  | .other now op => !(s.backend.entry key).isSome || ((s.backend.run now op).entry key).isSome
  | _ => true

/-- A caller registers while the key is in flight, or while nothing is stored under it. -/
def inTime (s : State β) : Action β → Bool
  | .register _ => s.inflight.isSome || (s.backend.entry key).isNone
  | _ => true

def Undisturbed (s : State β) (a : Action β) : Prop := quiet key ttl s a = true

def OnTime (s : State β) (a : Action β) : Prop :=
  Undisturbed key ttl s a ∧ inTime key s a = true

instance (s : State β) (a : Action β) : Decidable (Undisturbed key ttl s a) := by
  unfold Undisturbed
  infer_instance

instance (s : State β) (a : Action β) : Decidable (OnTime key ttl s a) := by
  unfold OnTime
  infer_instance

/-- Nothing is stored under the key, and no caller has come yet. -/
def Start (s : State β) : Prop :=
  s.backend.entry key = none ∧ s.inflight = none ∧ (∀ i, s.signaled i = false) ∧
    (∀ i, s.phase i = .idle) ∧ s.executions = []

end Conditions

/-! ## The invariant -/

/-- The phases in which a caller holds the in-flight table. -/
def Leads : Phase β → Prop
  | .leading => True
  | .computed _ => True
  | .stored _ => True
  | .raised => True
  | _ => False

/-- The phases in which others may wait for a caller. -/
def Busy (p : Phase β) : Prop := Leads p ∨ ∃ result, p = .unregistered result

/-- The one value is computed and stored. -/
def Settled (key : Text) (s : State β) (v : β) : Prop :=
  s.executions = [some (some v)] ∧ ∃ expires, s.backend.entry key = some (expires, some v)

/-- What a phase says about the flight. -/
def PhaseOk (key : Text) (s : State β) : Phase β → Prop
  | .idle => True
  | .missed => True
  | .leading => s.executions = []
  | .computed value => ∃ v, value = some v ∧ s.executions = [some (some v)]
  | .stored value => ∃ v, value = some v ∧ Settled key s v
  | .raised => False
  | .unregistered result => ∃ v, result = some (some v) ∧ Settled key s v
  | .waiting j => s.signaled j = false → Busy (s.phase j)
  | .woken => ∃ v, Settled key s v
  | .fallback => False
  | .returned value => ∃ v, value = some v ∧ Settled key s v
  | .failed => False

structure Inv (key : Text) (s : State β) : Prop where
  leader : ∀ j, s.inflight = some j ↔ Leads (s.phase j)
  phases : ∀ j, PhaseOk key s (s.phase j)
  entry : ∀ e, s.backend.entry key = some e → ∃ v, Settled key s v
  signals : ∀ j, s.signaled j = true → ∃ v, Settled key s v
  executed : s.executions = [] ∨ (∃ v, Settled key s v) ∨ ∃ j value, s.phase j = .computed value

/-- What the other callers rely on when a step is made. -/
structure Frame (key : Text) (s s' : State β) : Prop where
  executed : ∀ v, s.executions = [some (some v)] → s'.executions = [some (some v)]
  settled : ∀ v, Settled key s v → Settled key s' v
  unsignaled : ∀ j, s'.signaled j = false → s.signaled j = false ∧
    (Busy (s.phase j) → Busy (s'.phase j))

theorem PhaseOk.frame {p : Phase β} (h : PhaseOk key s p) (hFrame : Frame key s s')
    (hLeading : p = .leading → s'.executions = []) : PhaseOk key s' p := by
  cases p with
  | idle => trivial
  | missed => trivial
  | leading => exact hLeading rfl
  | computed value =>
    obtain ⟨v, hValue, hExecuted⟩ := h
    exact ⟨v, hValue, hFrame.executed v hExecuted⟩
  | stored value =>
    obtain ⟨v, hValue, hSettled⟩ := h
    exact ⟨v, hValue, hFrame.settled v hSettled⟩
  | raised => exact h
  | unregistered result =>
    obtain ⟨v, hValue, hSettled⟩ := h
    exact ⟨v, hValue, hFrame.settled v hSettled⟩
  | waiting j =>
    intro hUnsignaled
    obtain ⟨hBefore, hBusy⟩ := hFrame.unsignaled j hUnsignaled
    exact hBusy (h hBefore)
  | woken =>
    obtain ⟨v, hSettled⟩ := h
    exact ⟨v, hFrame.settled v hSettled⟩
  | fallback => exact h
  | returned value =>
    obtain ⟨v, hValue, hSettled⟩ := h
    exact ⟨v, hValue, hFrame.settled v hSettled⟩
  | failed => exact h

theorem Settled.ne_nil {v : β} (h : Settled key s v) : s.executions ≠ [] := by
  rw [h.1]
  exact List.cons_ne_nil _ _

/-- There is one leader. -/
theorem Inv.leader_unique (hInv : Inv key s) {i j : Nat} (hi : Leads (s.phase i))
    (hj : Leads (s.phase j)) : j = i :=
  Option.some.inj (((hInv.leader j).mpr hj).symm.trans ((hInv.leader i).mpr hi))

/-- A step of one caller that runs nothing and stores nothing. -/
theorem Inv.move (hInv : Inv key s) {i : Nat} {p : Phase β}
    (hPhase : s'.phase = Function.update s.phase i p) (hExecutions : s'.executions = s.executions)
    (hEntry : s'.backend.entry key = s.backend.entry key)
    (hLeader : ∀ j, s'.inflight = some j ↔ Leads (s'.phase j))
    (hOk : PhaseOk key s p) (hKeeps : ∀ j, s.signaled j = true → s'.signaled j = true)
    (hSignals : ∀ j, s'.signaled j = true → s.signaled j = true ∨ ∃ v, Settled key s v)
    (hBusy : s'.signaled i = false → Busy (s.phase i) → Busy p)
    (hComputed : ∀ value, s.phase i ≠ .computed value) : Inv key s' := by
  have hSettled : ∀ v, Settled key s' v ↔ Settled key s v := by
    intro v
    rw [Settled, hExecutions, hEntry, Settled]
  have hFrame : Frame key s s' := by
    refine ⟨fun v h => hExecutions.trans h, fun v h => (hSettled v).mpr h, fun j hj => ⟨?_, ?_⟩⟩
    · exact Bool.eq_false_iff.mpr fun h => Bool.false_ne_true (hj.symm.trans (hKeeps j h))
    · intro hBefore
      rw [hPhase]
      by_cases hSame : j = i
      · subst hSame
        rw [Function.update_self]
        exact hBusy hj hBefore
      · rw [Function.update_of_ne hSame]
        exact hBefore
  have hNil : s.executions = [] → s'.executions = [] := hExecutions.trans
  constructor
  · exact hLeader
  · intro j
    rw [hPhase]
    by_cases hSame : j = i
    · rw [hSame, Function.update_self]
      exact hOk.frame hFrame fun hLeading => hNil (by rw [hLeading] at hOk; exact hOk)
    · rw [Function.update_of_ne hSame]
      refine (hInv.phases j).frame hFrame fun hLeading => hNil ?_
      have hOther := hInv.phases j
      rw [hLeading] at hOther
      exact hOther
  · intro e he
    rw [hEntry] at he
    obtain ⟨v, hv⟩ := hInv.entry e he
    exact ⟨v, (hSettled v).mpr hv⟩
  · intro j hj
    rcases hSignals j hj with hBefore | ⟨v, hv⟩
    · obtain ⟨v, hv⟩ := hInv.signals j hBefore
      exact ⟨v, (hSettled v).mpr hv⟩
    · exact ⟨v, (hSettled v).mpr hv⟩
  · rcases hInv.executed with hNone | ⟨v, hv⟩ | ⟨j, value, hj⟩
    · exact .inl (hNil hNone)
    · exact .inr (.inl ⟨v, (hSettled v).mpr hv⟩)
    · refine .inr (.inr ⟨j, value, ?_⟩)
      have hOther : j ≠ i := fun hSame => hComputed value (hSame ▸ hj)
      rw [hPhase, Function.update_of_ne hOther]
      exact hj

theorem Inv.leader_of_iff (hInv : Inv key s) {i : Nat} {p : Phase β}
    (hIff : Leads (s.phase i) ↔ Leads p) (j : Nat) :
    s.inflight = some j ↔ Leads (Function.update s.phase i p j) := by
  rw [hInv.leader j]
  by_cases hSame : j = i
  · rw [hSame, Function.update_self]
    exact hIff
  · rw [Function.update_of_ne hSame]

theorem look_of_none {i : Nat} {now : ℚ} {p : Phase β} (h : s.backend.entry key = none) :
    s.look key i now p = { s.move i p with clock := now } := by
  have hGet : s.backend.get now key = (none, s.backend) := by
    rw [InMemoryBackend.get, show s.backend.data.get? key = none from h]
  rw [State.look, hGet]
  rfl

theorem look_of_some {i : Nat} {now expires : ℚ} {v : β} {p : Phase β}
    (h : s.backend.entry key = some (expires, some v)) (hLive : now ≤ expires) :
    s.look key i now p = { s.move i (.returned (some v)) with clock := now } := by
  have hGet : s.backend.get now key = (some v, s.backend) := by
    rw [InMemoryBackend.get, show s.backend.data.get? key = some (expires, some v) from h]
    exact if_neg (not_lt.mpr hLive)
  rw [State.look, hGet]
  rfl

section Steps

variable {i : Nat}

theorem inv_look (hInv : Inv key s) {now : ℚ} {p : Phase β}
    (hLive : (s.backend.entry key).all (fun e => decide (now ≤ e.1)) = true)
    (hFrom : ¬Busy (s.phase i)) (hMiss : s.backend.entry key = none → PhaseOk key s p)
    (hTo : ¬Leads p) : Inv key (s.look key i now p) := by
  have hComputed : ∀ value, s.phase i ≠ .computed value := by
    intro value h
    rw [h] at hFrom
    exact hFrom (.inl trivial)
  have hLeads : ¬Leads (s.phase i) := fun h => hFrom (.inl h)
  cases hEntry : s.backend.entry key with
  | none =>
    rw [look_of_none hEntry]
    exact hInv.move rfl rfl rfl (hInv.leader_of_iff (iff_of_false hLeads hTo)) (hMiss hEntry)
      (fun _ h => h) (fun _ h => .inl h) (fun _ h => absurd h hFrom) hComputed
  | some e =>
    obtain ⟨v, hSettled⟩ := hInv.entry e hEntry
    obtain ⟨expires, hStored⟩ := hSettled.2
    rw [hStored, Option.all_some, decide_eq_true_eq] at hLive
    rw [look_of_some hStored hLive]
    exact hInv.move rfl rfl rfl (hInv.leader_of_iff (iff_of_false hLeads id))
      ⟨v, rfl, hSettled⟩ (fun _ h => h) (fun _ h => .inl h) (fun _ h => absurd h hFrom) hComputed

theorem inv_register (hInv : Inv key s) (hPhase : s.phase i = .missed)
    (hNone : s.inflight = none) (hFree : s.backend.entry key = none) :
    Inv key { s.move i .leading with inflight := some i } := by
  have hNobody : ∀ j, ¬Leads (s.phase j) := by
    intro j hj
    have hTable := (hInv.leader j).mpr hj
    rw [hNone] at hTable
    cases hTable
  have hNil : s.executions = [] := by
    rcases hInv.executed with hNil | ⟨v, -, expires, hStored⟩ | ⟨j, value, hj⟩
    · exact hNil
    · rw [hFree] at hStored
      cases hStored
    · exact absurd (hj ▸ trivial : Leads (s.phase j)) (hNobody j)
  refine hInv.move rfl rfl rfl (fun j => ?_) hNil (fun _ h => h) (fun _ h => .inl h)
    (fun _ _ => .inl trivial) (fun value h => ?_)
  · change some i = some j ↔ Leads (Function.update s.phase i .leading j)
    by_cases hSame : j = i
    · rw [hSame, Function.update_self]
      exact iff_of_true rfl trivial
    · rw [Function.update_of_ne hSame]
      exact iff_of_false (fun h => hSame (Option.some.inj h).symm) (hNobody j)
  · rw [hPhase] at h
    cases h

theorem inv_run (hInv : Inv key s) (hPhase : s.phase i = .leading) (v : β) :
    Inv key { s.move i (.computed (some v)) with executions := s.executions ++ [some (some v)] } := by
  have hLeads : Leads (s.phase i) := by
    rw [hPhase]
    trivial
  have hNil : s.executions = [] := by
    have hOk := hInv.phases i
    rw [hPhase] at hOk
    exact hOk
  have hExecuted : s.executions ++ [some (some v)] = [some (some v)] := by
    rw [hNil]
    rfl
  have hUnsettled : ∀ w, ¬Settled key s w := fun w hw => hw.ne_nil hNil
  have hFrame : Frame key s
      { s.move i (.computed (some v)) with executions := s.executions ++ [some (some v)] } := by
    refine ⟨fun w hw => ?_, fun w hw => absurd hw (hUnsettled w), fun j hj => ⟨hj, fun hBusy => ?_⟩⟩
    · rw [hNil] at hw
      cases hw
    · change Busy (Function.update s.phase i (.computed (some v)) j)
      by_cases hSame : j = i
      · rw [hSame, Function.update_self]
        exact .inl trivial
      · rw [Function.update_of_ne hSame]
        exact hBusy
  constructor
  · exact hInv.leader_of_iff (iff_of_true hLeads trivial)
  · intro j
    change PhaseOk key _ (Function.update s.phase i (.computed (some v)) j)
    by_cases hSame : j = i
    · rw [hSame, Function.update_self]
      exact ⟨v, rfl, hExecuted⟩
    · rw [Function.update_of_ne hSame]
      refine (hInv.phases j).frame hFrame fun hLeading => absurd ?_ hSame
      exact hInv.leader_unique hLeads (by rw [hLeading]; trivial)
  · intro e he
    obtain ⟨w, hw⟩ := hInv.entry e he
    exact absurd hw (hUnsettled w)
  · intro j hj
    obtain ⟨w, hw⟩ := hInv.signals j hj
    exact absurd hw (hUnsettled w)
  · refine .inr (.inr ⟨i, some v, ?_⟩)
    exact Function.update_self _ _ _

theorem inv_store (hInv : Inv key s) {now : ℚ} {value : Option β}
    (hPhase : s.phase i = .computed value)
    (hKept : ((s.backend.set now key value ttl).entry key).isSome = true) :
    Inv key { s.move i (.stored value) with
      clock := now, backend := s.backend.set now key value ttl } := by
  have hLeads : Leads (s.phase i) := by
    rw [hPhase]
    trivial
  obtain ⟨v, rfl, hExecuted⟩ : PhaseOk key s (.computed value) := hPhase ▸ hInv.phases i
  obtain ⟨e, hEntry⟩ := Option.isSome_iff_exists.mp hKept
  have hSub := set_sub hEntry
  rw [Dict.get?_set, if_pos rfl] at hSub
  have hSettled : Settled key { s.move i (.stored (some v)) with
      clock := now, backend := s.backend.set now key (some v) ttl } v :=
    ⟨hExecuted, now + ttl, hEntry.trans hSub.symm⟩
  have hFrame : Frame key s { s.move i (.stored (some v)) with
      clock := now, backend := s.backend.set now key (some v) ttl } := by
    refine ⟨fun w hw => hw, fun w hw => ?_, fun j hj => ⟨hj, fun hBusy => ?_⟩⟩
    · have hSame := hExecuted.symm.trans hw.1
      cases hSame
      exact hSettled
    · change Busy (Function.update s.phase i (.stored (some v)) j)
      by_cases hSame : j = i
      · rw [hSame, Function.update_self]
        exact .inl trivial
      · rw [Function.update_of_ne hSame]
        exact hBusy
  constructor
  · exact hInv.leader_of_iff (iff_of_true hLeads trivial)
  · intro j
    change PhaseOk key _ (Function.update s.phase i (.stored (some v)) j)
    by_cases hSame : j = i
    · rw [hSame, Function.update_self]
      exact ⟨v, rfl, hSettled⟩
    · rw [Function.update_of_ne hSame]
      refine (hInv.phases j).frame hFrame fun hLeading => absurd ?_ hSame
      exact hInv.leader_unique hLeads (by rw [hLeading]; trivial)
  · exact fun _ _ => ⟨v, hSettled⟩
  · exact fun _ _ => ⟨v, hSettled⟩
  · exact .inr (.inl ⟨v, hSettled⟩)

theorem inv_unregister (hInv : Inv key s) {value : Option β} (hPhase : s.phase i = .stored value) :
    Inv key { s.move i (.unregistered (some value)) with inflight := none } := by
  have hLeads : Leads (s.phase i) := by
    rw [hPhase]
    trivial
  obtain ⟨v, rfl, hSettled⟩ : PhaseOk key s (.stored value) := hPhase ▸ hInv.phases i
  refine hInv.move rfl rfl rfl (fun j => ?_) ⟨v, rfl, hSettled⟩ (fun _ h => h) (fun _ h => .inl h)
    (fun _ _ => .inr ⟨_, rfl⟩) (fun w h => ?_)
  · change none = some j ↔ Leads (Function.update s.phase i _ j)
    by_cases hSame : j = i
    · rw [hSame, Function.update_self]
      exact iff_of_false (fun h => by cases h) id
    · rw [Function.update_of_ne hSame]
      exact iff_of_false (fun h => by cases h) fun h => hSame (hInv.leader_unique hLeads h)
  · rw [hPhase] at h
    cases h

theorem inv_signal (hInv : Inv key s) {result : Option (Option β)}
    (hPhase : s.phase i = .unregistered result) :
    Inv key { s.move i (callerPhase result) with
      signaled := Function.update s.signaled i true } := by
  obtain ⟨v, rfl, hSettled⟩ : PhaseOk key s (.unregistered result) := hPhase ▸ hInv.phases i
  have hIff : Leads (s.phase i) ↔ Leads (.returned (some v) : Phase β) := by
    rw [hPhase]
    exact iff_of_false id id
  refine hInv.move rfl rfl rfl (hInv.leader_of_iff hIff) ⟨v, rfl, hSettled⟩ (fun j h => ?_)
    (fun _ _ => .inr ⟨v, hSettled⟩) (fun h _ => ?_) (fun w h => ?_)
  · change Function.update s.signaled i true j = true
    by_cases hSame : j = i
    · rw [hSame, Function.update_self]
    · rw [Function.update_of_ne hSame]
      exact h
  · change Function.update s.signaled i true i = false at h
    rw [Function.update_self] at h
    cases h
  · rw [hPhase] at h
    cases h

/-- A step of a caller that does not hold the table and does not come to hold it. -/
theorem inv_plain (hInv : Inv key s) {p : Phase β} (hFrom : ¬Busy (s.phase i)) (hTo : ¬Leads p)
    (hOk : PhaseOk key s p) : Inv key (s.move i p) := by
  refine hInv.move rfl rfl rfl (hInv.leader_of_iff (iff_of_false (fun h => hFrom (.inl h)) hTo))
    hOk (fun _ h => h) (fun _ h => .inl h) (fun _ h => absurd h hFrom) (fun value h => ?_)
  rw [h] at hFrom
  exact hFrom (.inl trivial)

theorem not_busy {p : Phase β} (h : p = .idle ∨ p = .missed ∨ p = .woken ∨ ∃ j, p = .waiting j) :
    ¬Busy p := by
  rintro (hLeads | ⟨result, rfl⟩)
  · rcases h with rfl | rfl | rfl | ⟨j, rfl⟩ <;> exact hLeads
  · rcases h with h | h | h | ⟨j, h⟩ <;> cases h

theorem inv_other (hInv : Inv key s) {c : InMemoryBackend β} (now : ℚ)
    (hEntry : c.entry key = s.backend.entry key) :
    Inv key { s with clock := now, backend := c } := by
  have hSettled : ∀ v, Settled key { s with clock := now, backend := c } v ↔ Settled key s v := by
    intro v
    rw [Settled, hEntry, Settled]
  have hFrame : Frame key s { s with clock := now, backend := c } :=
    ⟨fun _ h => h, fun v h => (hSettled v).mpr h, fun _ h => ⟨h, id⟩⟩
  constructor
  · exact hInv.leader
  · intro j
    refine (hInv.phases j).frame hFrame fun hLeading => ?_
    have hOk := hInv.phases j
    rw [hLeading] at hOk
    exact hOk
  · intro e he
    obtain ⟨v, hv⟩ := hInv.entry e (hEntry.symm.trans he)
    exact ⟨v, (hSettled v).mpr hv⟩
  · intro j hj
    obtain ⟨v, hv⟩ := hInv.signals j hj
    exact ⟨v, (hSettled v).mpr hv⟩
  · rcases hInv.executed with hNone | ⟨v, hv⟩ | hComputed
    · exact .inl hNone
    · exact .inr (.inl ⟨v, (hSettled v).mpr hv⟩)
    · exact .inr (.inr hComputed)

theorem inv_step {a : Action β} (hInv : Inv key s) (hOk : OnTime key ttl s a)
    (hStep : step key ttl s a = some s') : Inv key s' := by
  obtain ⟨hQuiet, hInTime⟩ := hOk
  cases step_effect hStep with
  | looked hPhase =>
    exact inv_look hInv hQuiet (not_busy (.inl hPhase)) (fun _ => trivial) id
  | lookedAgain hPhase =>
    obtain ⟨v, -, expires, hStored⟩ : PhaseOk key s .woken := hPhase ▸ hInv.phases _
    refine inv_look hInv hQuiet (not_busy (.inr (.inr (.inl hPhase)))) (fun hNone => ?_) id
    rw [hStored] at hNone
    cases hNone
  | led hPhase hNone =>
    refine inv_register hInv hPhase hNone ?_
    rw [inTime, hNone] at hInTime
    exact Option.isNone_iff_eq_none.mp hInTime
  | followed hPhase hTable =>
    refine inv_plain hInv (not_busy (.inr (.inl hPhase))) id fun _ => .inl ?_
    exact (hInv.leader _).mp hTable
  | @ran i result hPhase =>
    obtain ⟨v, hValue⟩ := Option.isSome_iff_exists.mp hQuiet
    obtain rfl := Option.join_eq_some_iff.mp hValue
    exact inv_run hInv hPhase v
  | @ranAlone i result hPhase =>
    exact absurd (hPhase ▸ hInv.phases i : PhaseOk key s .fallback) id
  | stored hPhase =>
    refine inv_store hInv hPhase ?_
    rw [Undisturbed, quiet, hPhase] at hQuiet
    exact hQuiet
  | left hPhase => exact inv_unregister hInv hPhase
  | @leftRaising i hPhase =>
    exact absurd (hPhase ▸ hInv.phases i : PhaseOk key s .raised) id
  | signaled hPhase => exact inv_signal hInv hPhase
  | @woke i j hPhase hSignaled =>
    exact inv_plain hInv (not_busy (.inr (.inr (.inr ⟨j, hPhase⟩)))) id
      (hInv.signals j hSignaled)
  | gaveUp hPhase => cases hQuiet
  | @others now op hSpares =>
    refine inv_other hInv now ?_
    cases hAfter : (s.backend.run now op).entry key with
    | none =>
      rw [Undisturbed, quiet, hAfter, Option.isSome_none, Bool.or_false, Bool.not_eq_true',
        Option.isSome_eq_false_iff, Option.isNone_iff_eq_none] at hQuiet
      exact hQuiet.symm
    | some e => exact (entry_of_run hSpares hAfter).symm

theorem inv_of_reach (h : Reach (step key ttl) (Start key) (OnTime key ttl) s) : Inv key s := by
  refine h.invariant (fun s hStart => ?_) fun _ _ _ hInv hOk hStep => inv_step hInv hOk hStep
  obtain ⟨hEntry, hTable, hSignaled, hPhase, hNil⟩ := hStart
  constructor
  · intro j
    rw [hTable, hPhase]
    exact iff_of_false (fun h => by cases h) id
  · intro j
    rw [hPhase]
    trivial
  · intro e he
    rw [hEntry] at he
    cases he
  · intro j hj
    rw [hSignaled] at hj
    cases hj
  · exact .inl hNil

/-! ## No caller is stuck -/

/-- The caller that makes a step; a timeout is not a step of its own. -/
def Action.actor : Action β → Option Nat
  | .lookup i _ => some i
  | .register i => some i
  | .run i _ => some i
  | .store i _ => some i
  | .unregister i => some i
  | .signal i => some i
  | .wake i => some i
  | .timeout _ => none
  | .recheck i _ => some i
  | .other _ _ => none

/-- How many steps a caller has behind it, at least. -/
def Phase.rank : Phase β → Nat
  | .idle => 0
  | .missed => 1
  | .leading => 2
  | .waiting _ => 2
  | .computed _ => 3
  | .raised => 3
  | .woken => 3
  | .stored _ => 4
  | .fallback => 4
  | .unregistered _ => 5
  | .returned _ => 6
  | .failed => 6

theorem rank_le (p : Phase β) : p.rank ≤ 6 := by
  cases p <;> simp [Phase.rank]

theorem rank_lt_look {now : ℚ} {p : Phase β} (hFrom : (s.phase i).rank < 6)
    (hMiss : (s.phase i).rank < p.rank) :
    (s.phase i).rank < ((s.look key i now p).phase i).rank := by
  unfold State.look
  dsimp only [State.move]
  rw [Function.update_self]
  split
  · exact hFrom
  · exact hMiss

theorem rank_lt_update {f : Nat → Phase β} {p : Phase β} (h : (f i).rank < p.rank) :
    (f i).rank < (Function.update f i p i).rank := by
  rw [Function.update_self]
  exact h

theorem rank_callerPhase (result : Option (Option β)) : (callerPhase result).rank = 6 := by
  cases result <;> rfl

theorem rank_leaderPhase (result : Option (Option β)) : (leaderPhase result).rank = 3 := by
  cases result <;> rfl

/-- Every step of a caller brings it forward. -/
theorem rank_lt_of_step {a : Action β} (hActor : a.actor = some i)
    (hStep : step key ttl s a = some s') : (s.phase i).rank < (s'.phase i).rank := by
  cases step_effect hStep with
  | looked hPhase =>
    cases hActor
    apply rank_lt_look <;> rw [hPhase] <;> simp [Phase.rank]
  | lookedAgain hPhase =>
    cases hActor
    apply rank_lt_look <;> rw [hPhase] <;> simp [Phase.rank]
  | led hPhase hNone =>
    cases hActor
    apply rank_lt_update
    simp [hPhase, Phase.rank]
  | followed hPhase hTable =>
    cases hActor
    apply rank_lt_update
    simp [hPhase, Phase.rank]
  | ran hPhase =>
    cases hActor
    apply rank_lt_update
    rw [hPhase, rank_leaderPhase]
    simp [Phase.rank]
  | ranAlone hPhase =>
    cases hActor
    apply rank_lt_update
    rw [hPhase, rank_callerPhase]
    simp [Phase.rank]
  | stored hPhase =>
    cases hActor
    apply rank_lt_update
    simp [hPhase, Phase.rank]
  | left hPhase =>
    cases hActor
    apply rank_lt_update
    simp [hPhase, Phase.rank]
  | leftRaising hPhase =>
    cases hActor
    apply rank_lt_update
    simp [hPhase, Phase.rank]
  | signaled hPhase =>
    cases hActor
    apply rank_lt_update
    rw [hPhase, rank_callerPhase]
    simp [Phase.rank]
  | woke hPhase hSignaled =>
    cases hActor
    apply rank_lt_update
    simp [hPhase, Phase.rank]
  | gaveUp => cases hActor
  | others => cases hActor

/-- The caller can make a step now. -/
def CanStep (key : Text) (ttl : ℚ) (s : State β) (i : Nat) : Prop :=
  ∃ a : Action β, a.actor = some i ∧ (step key ttl s a).isSome = true

theorem canStep_of_busy (h : Busy (s.phase i)) : CanStep key ttl s i := by
  cases hPhase : s.phase i with
  | leading => exact ⟨.run i none, rfl, by rw [step, hPhase]; rfl⟩
  | computed value => exact ⟨.store i s.clock, rfl, by rw [step, hPhase]; simp⟩
  | stored value => exact ⟨.unregister i, rfl, by rw [step, hPhase]; rfl⟩
  | raised => exact ⟨.unregister i, rfl, by rw [step, hPhase]; rfl⟩
  | unregistered result => exact ⟨.signal i, rfl, by rw [step, hPhase]; rfl⟩
  | _ =>
    rw [hPhase] at h
    rcases h with h | ⟨result, h⟩ <;> cases h

/-- A caller that has come and has not returned can go on, or waits for one that can. -/
theorem canStep_of_inv (hInv : Inv key s) (hCame : s.phase i ≠ .idle)
    (hHere : ∀ value, s.phase i ≠ .returned value) : ∃ j, CanStep key ttl s j := by
  have hOk := hInv.phases i
  cases hPhase : s.phase i with
  | idle => exact absurd hPhase hCame
  | missed =>
    refine ⟨i, .register i, rfl, ?_⟩
    rw [step, hPhase]
    cases s.inflight <;> rfl
  | waiting j =>
    rw [hPhase] at hOk
    cases hSignaled : s.signaled j with
    | true =>
      refine ⟨i, .wake i, rfl, ?_⟩
      rw [step, hPhase]
      exact congrArg Option.isSome (if_pos hSignaled)
    | false => exact ⟨j, canStep_of_busy (hOk hSignaled)⟩
  | woken => exact ⟨i, .recheck i s.clock, rfl, by rw [step, hPhase]; simp⟩
  | returned value => exact absurd hPhase (hHere value)
  | fallback =>
    rw [hPhase] at hOk
    exact hOk.elim
  | failed =>
    rw [hPhase] at hOk
    exact hOk.elim
  | leading => exact ⟨i, canStep_of_busy (.inl (hPhase ▸ trivial))⟩
  | computed value => exact ⟨i, canStep_of_busy (.inl (hPhase ▸ trivial))⟩
  | stored value => exact ⟨i, canStep_of_busy (.inl (hPhase ▸ trivial))⟩
  | raised => exact ⟨i, canStep_of_busy (.inl (hPhase ▸ trivial))⟩
  | unregistered result => exact ⟨i, canStep_of_busy (.inr ⟨result, hPhase⟩)⟩

/-- **Single flight.** -/
theorem executed_once (h : Reach (step key ttl) (Start key) (OnTime key ttl) s) :
    s.executions.length ≤ 1 ∧ (∀ i, s.phase i ≠ .failed) ∧
      (∀ i value, s.phase i = .returned value →
        ∃ v, value = some v ∧ s.executions = [some (some v)]) ∧
      (∀ i, s.phase i ≠ .idle → (∀ value, s.phase i ≠ .returned value) →
        ∃ j, CanStep key ttl s j) ∧
      ∀ i a s', a.actor = some i → step key ttl s a = some s' →
        (s.phase i).rank < (s'.phase i).rank ∧ (s'.phase i).rank ≤ 6 := by
  have hInv := inv_of_reach h
  refine ⟨?_, fun i hFailed => ?_, fun i value hReturned => ?_,
    fun i hCame hHere => canStep_of_inv hInv hCame hHere,
    fun i a s' hActor hStep => ⟨rank_lt_of_step hActor hStep, rank_le _⟩⟩
  · rcases hInv.executed with hNil | ⟨v, hSettled⟩ | ⟨j, value, hComputed⟩
    · rw [hNil]
      exact Nat.zero_le _
    · rw [hSettled.1]
      exact le_rfl
    · obtain ⟨v, -, hOne⟩ : PhaseOk key s (.computed value) := hComputed ▸ hInv.phases j
      rw [hOne]
      exact le_rfl
  · exact (hFailed ▸ hInv.phases i : PhaseOk key s .failed)
  · obtain ⟨v, hValue, hSettled⟩ : PhaseOk key s (.returned value) := hReturned ▸ hInv.phases i
    exact ⟨v, hValue, hSettled.1⟩

end Steps

section Example

def nobody : State Nat := { clock := 0, backend := {} }

theorem start_nobody : Start "status:public" nobody :=
  ⟨rfl, rfl, fun _ => rfl, fun _ => rfl, rfl⟩

/-- Two callers miss; the second waits for the first. -/
def joined : List (Action Nat) :=
  [.lookup 0 1, .lookup 1 2, .register 0, .register 1, .run 0 (some (some 7)), .store 0 3,
    .other 4 (.set "metrics:latest" (some 5) 10), .unregister 0, .signal 0, .wake 1, .recheck 1 5]

theorem executed_once_joined : ∃ s, Reach (step "status:public" 30) (Start "status:public")
    (OnTime "status:public" 30) s ∧ s.phase 1 = .returned (some 7) ∧
      s.executions = [some (some (7 : Nat))] := by
  have hRun : ∃ s, Reach (step "status:public" 30) (Start "status:public")
      (OnTime "status:public" 30) s ∧ s.phase 1 = .returned (some (7 : Nat)) :=
    Reach.exists_of_exec joined start_nobody (by decide +kernel)
  obtain ⟨s, hReach, hReturned⟩ := hRun
  obtain ⟨-, -, hValues, -⟩ := executed_once hReach
  obtain ⟨v, hValue, hOne⟩ := hValues 1 _ hReturned
  cases hValue
  exact ⟨s, hReach, hReturned, hOne⟩

/-- The second caller has missed as well, and registers after the first has left. -/
def late : List (Action Nat) :=
  [.lookup 0 1, .lookup 1 2, .register 0, .run 0 (some (some 7)), .store 0 3, .unregister 0,
    .signal 0, .register 1, .run 1 (some (some 8)), .store 1 4, .unregister 1, .signal 1]

theorem executed_twice : ∃ s, Reach (step "status:public" 30) (Start "status:public")
    (Undisturbed "status:public" 30) s ∧
      s.executions = [some (some (7 : Nat)), some (some 8)] ∧
      s.phase 0 = .returned (some 7) ∧ s.phase 1 = .returned (some 8) :=
  Reach.exists_of_exec late start_nobody (by decide +kernel)

end Example

end GpuMon.SingleFlight

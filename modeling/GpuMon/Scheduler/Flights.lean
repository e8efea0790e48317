import GpuMon.Library.Runs
import GpuMon.Library.Slots
import GpuMon.Scheduler.Cycle

/-!
# Overlapping cycles (`_run_cycle_guarded`, `trigger_poll`, `_server_begin`, `_server_end`)

The scheduler's loop and the threads of `POST /refresh` call `_run_cycle_guarded`: who finds
`_cycle_lock` free runs a cycle, the others leave. A cycle reads the servers and the newest
collections, starts a thread for each collection, joins the threads one after another, each join
with a timeout, and evaluates the alert rules. Threads that outlive their cycle go on beside the
next one; `_server_busy` holds the collections that are in flight. Between any two of these steps
come steps of the others and edits of the database.

* `flights_of_run`: `_server_busy` is exactly the set of the collections in flight, no two of them
  are of one server and one kind, and a server never has more than three.
* `evaluation_of_run`: at most one cycle is in flight; when it evaluates the rules, every thread
  that it joined without a timeout is over.
* `refresh_served`: an accepted refresh is never lost. A cycle that began after it is run, by the
  refresh's thread or in its place, and every thread of that cycle that has come so far finds a
  collection of its server that ends after the refresh.
-/

namespace GpuMon.Flights

open Scheduler Runs

/-- How far a thread (`_poll_one`, `_slow_one`, `_inventory_one`) has come. -/
inductive Phase
  | created
  | skipped
  | collecting
  | storing
  | failed
  | ended
  deriving DecidableEq

/-- A thread, with the moments of its `_server_begin` and its `_server_end`. -/
structure Thread where
  task : Task
  phase : Phase := .created
  begun : Option Nat := none
  left : Option Nat := none
  deriving DecidableEq

/-- The thread is no longer alive. -/
def Thread.over (th : Thread) : Bool :=
  match th.phase with
  | .skipped | .failed | .ended => true
  | _ => false

inductive Stage
  | loading
  | reading
  | deciding
  | working
  | evaluating
  | returning
  | over
  deriving DecidableEq

/-- A cycle: what `_run_cycle` has read so far, its threads in the order of their start, how many
of them it has joined, whether a join timed out, and whether it was left by an exception. -/
structure Cycle where
  begun : Nat
  stage : Stage := .loading
  now : Int := 0
  seen : Store := ⟨Table.empty, [], []⟩
  started : List Nat := []
  joined : Nat := 0
  late : Bool := false
  raised : Bool := false

/-- The threads that the cycle has to start. -/
def Cycle.tasks (c : Cycle) : List Task := cycleThreads c.now c.seen

/-- A call of `_run_cycle_guarded`. A refresh keeps the moment at which it was accepted, and who
finds the lock taken keeps which cycle held it. -/
inductive Caller
  | idle
  | refused
  | accepted (moment : Nat)
  | ran (moment : Option Nat) (cycle : Nat)
  | skipped (moment : Option Nat) (cycle : Nat)
  deriving DecidableEq

/-- A caller that has not tried the lock yet: the loop, or the thread of an accepted refresh. -/
def Caller.pending : Caller → Option (Option Nat)
  | .idle => some none
  | .accepted moment => some (some moment)
  | _ => none

/-- `lock` is `_cycle_lock`: the cycle that holds it. -/
structure State where
  db : Store
  busy : List Task := []
  lock : Option Nat := none
  cycles : List Cycle := []
  threads : List Thread := []
  callers : Nat → Caller := fun _ => .idle
  clock : Nat := 0

/-- The steps of `_run_cycle` that only concern the cycle itself. -/
inductive Body
  | load
  | readSlow (now : Int)
  | readInventory
  | join (timedOut : Bool)
  | evaluate
  | finish
  | raise

inductive Action
  | edit (db : Store)
  | trigger (r : Nat)
  | attempt (r : Nat)
  | body (k : Nat) (b : Body)
  | start (k : Nat)
  | release (k : Nat)
  | enter (i : Nat)
  | leave (i : Nat) (stores : Bool)
  | store (i : Nat)

/-- `_server_end`. -/
def serverEnd (busy : List Task) (t : Task) : List Task := busy.filter (· ≠ t)

def State.call (s : State) (r : Nat) (c : Caller) : State :=
  { s with callers := Function.update s.callers r c }

def State.isOver (s : State) (i : Nat) : Bool := (s.threads[i]?).any Thread.over

/-- All threads are started. -/
def Cycle.launched (c : Cycle) : Bool := c.started.length = c.tasks.length

/-- `_run_cycle`. Without an enabled server it returns at once. A join returns when its thread is
over, or by its timeout. -/
def Cycle.advance (s : State) (c : Cycle) : Body → Option Cycle
  | .load =>
    if c.stage = .loading then
      some { c with
        seen := { c.seen with servers := s.db.servers }
        stage := if (loadServers s.db).isEmpty then .returning else .reading }
    else none
  | .readSlow now =>
    if c.stage = .reading then
      some { c with now, stage := .deciding, seen := { c.seen with slowHealth := s.db.slowHealth } }
    else none
  | .readInventory =>
    if c.stage = .deciding then
      some { c with
        stage := .working, seen := { c.seen with hostInventory := s.db.hostInventory } }
    else none
  | .join timedOut =>
    if c.stage = .working ∧ c.launched then
      match c.started[c.joined]? with
      | some i =>
        if timedOut || s.isOver i then
          some { c with joined := c.joined + 1, late := c.late || timedOut }
        else none
      | none => none
    else none
  | .evaluate =>
    if c.stage = .working ∧ c.launched ∧ c.joined = c.started.length then
      some { c with stage := .evaluating }
    else none
  | .finish => if c.stage = .evaluating then some { c with stage := .returning } else none
  | .raise =>
    if c.stage ≠ .returning ∧ c.stage ≠ .over then
      some { c with stage := .returning, raised := true }
    else none

/-- One step, but for the clock. -/
def State.move (s : State) : Action → Option State
  | .edit db => some { s with db }
  | .trigger r =>
    if s.callers r = .idle then
      some (s.call r (if s.lock.isSome then .refused else .accepted s.clock))
    else none
  | .attempt r =>
    match (s.callers r).pending with
    | none => none
    | some moment =>
      match s.lock with
      | some k => some (s.call r (.skipped moment k))
      | none =>
        some { s.call r (.ran moment s.cycles.length) with
          lock := some s.cycles.length
          cycles := s.cycles ++ [{ begun := s.clock }] }
  | .body k b =>
    match s.cycles[k]? with
    | some c => (c.advance s b).map fun c' => { s with cycles := s.cycles.set k c' }
    | none => none
  | .start k =>
    match s.cycles[k]? with
    | some c =>
      match c.tasks[c.started.length]? with
      | some task =>
        if c.stage = .working then
          some { s with
            threads := s.threads ++ [{ task }]
            cycles := s.cycles.set k { c with started := c.started ++ [s.threads.length] } }
        else none
      | none => none
    | none => none
  | .release k =>
    match s.cycles[k]? with
    | some c =>
      if c.stage = .returning then
        some { s with lock := none, cycles := s.cycles.set k { c with stage := .over } }
      else none
    | none => none
  | .enter i =>
    match s.threads[i]? with
    | some th =>
      if th.phase = .created then
        let (begins, busy) := serverBegin s.busy th.task
        some { s with
          busy
          threads := s.threads.set i
            (if begins then { th with phase := .collecting, begun := some s.clock }
            else { th with phase := .skipped }) }
      else none
    | none => none
  | .leave i stores =>
    match s.threads[i]? with
    | some th =>
      if th.phase = .collecting then
        some { s with
          busy := serverEnd s.busy th.task
          threads := s.threads.set i
            { th with phase := if stores then .storing else .failed, left := some s.clock } }
      else none
    | none => none
  | .store i =>
    match s.threads[i]? with
    | some th =>
      if th.phase = .storing then
        some { s with threads := s.threads.set i { th with phase := .ended } }
      else none
    | none => none

def State.tick (s : State) : State := { s with clock := s.clock + 1 }

def step (s : State) (a : Action) : Option State := (s.move a).map State.tick

/-- No call was made yet. -/
def Init (s : State) : Prop := s = { db := s.db }

/-! ## What a step can do -/

theorem advance_kept {s : State} {c c' : Cycle} {b : Body} (h : c.advance s b = some c') :
    c'.begun = c.begun ∧ c'.started = c.started ∧ c.stage ≠ .over ∧ c'.stage ≠ .over := by
  cases b with
  | load =>
    simp only [Cycle.advance, Option.ite_none_right_eq_some, Option.some.injEq] at h
    obtain ⟨hStage, rfl⟩ := h
    refine ⟨rfl, rfl, by simp [hStage], ?_⟩
    show (if (loadServers s.db).isEmpty then Stage.returning else .reading) ≠ .over
    split <;> simp
  | readSlow now =>
    simp only [Cycle.advance, Option.ite_none_right_eq_some, Option.some.injEq] at h
    obtain ⟨hStage, rfl⟩ := h
    exact ⟨rfl, rfl, by simp [hStage], by simp⟩
  | readInventory =>
    simp only [Cycle.advance, Option.ite_none_right_eq_some, Option.some.injEq] at h
    obtain ⟨hStage, rfl⟩ := h
    exact ⟨rfl, rfl, by simp [hStage], by simp⟩
  | join timedOut =>
    simp only [Cycle.advance, Option.ite_none_right_eq_some] at h
    obtain ⟨⟨hStage, -⟩, h⟩ := h
    split at h
    · simp only [Option.ite_none_right_eq_some, Option.some.injEq] at h
      obtain ⟨-, rfl⟩ := h
      exact ⟨rfl, rfl, by simp [hStage], by simp [hStage]⟩
    · cases h
  | evaluate =>
    simp only [Cycle.advance, Option.ite_none_right_eq_some, Option.some.injEq] at h
    obtain ⟨⟨hStage, -⟩, rfl⟩ := h
    exact ⟨rfl, rfl, by simp [hStage], by simp⟩
  | finish =>
    simp only [Cycle.advance, Option.ite_none_right_eq_some, Option.some.injEq] at h
    obtain ⟨hStage, rfl⟩ := h
    exact ⟨rfl, rfl, by simp [hStage], by simp⟩
  | raise =>
    simp only [Cycle.advance, Option.ite_none_right_eq_some, Option.some.injEq] at h
    obtain ⟨⟨-, hStage⟩, rfl⟩ := h
    exact ⟨rfl, rfl, hStage, by simp⟩

/-- What `move` does, with what it found. -/
inductive Effect (s : State) : State → Prop
  | edited (db : Store) : Effect s { s with db }
  | refused (r : Nat) : Effect s (s.call r .refused)
  | accepted (r : Nat) : s.lock = none → Effect s (s.call r (.accepted s.clock))
  | skipped (r : Nat) (moment : Option Nat) (k : Nat) :
      (s.callers r).pending = some moment → s.lock = some k →
      Effect s (s.call r (.skipped moment k))
  | began (r : Nat) (moment : Option Nat) :
      (s.callers r).pending = some moment → s.lock = none →
      Effect s { s.call r (.ran moment s.cycles.length) with
        lock := some s.cycles.length
        cycles := s.cycles ++ [{ begun := s.clock }] }
  | advanced (k : Nat) (c c' : Cycle) (b : Body) :
      s.cycles[k]? = some c → c.advance s b = some c' →
      Effect s { s with cycles := s.cycles.set k c' }
  | started (k : Nat) (c : Cycle) (task : Task) :
      s.cycles[k]? = some c → c.stage = .working → c.tasks[c.started.length]? = some task →
      Effect s { s with
        threads := s.threads ++ [{ task }]
        cycles := s.cycles.set k { c with started := c.started ++ [s.threads.length] } }
  | released (k : Nat) (c : Cycle) :
      s.cycles[k]? = some c → c.stage = .returning →
      Effect s { s with lock := none, cycles := s.cycles.set k { c with stage := .over } }
  | passed (i : Nat) (th : Thread) :
      s.threads[i]? = some th → th.phase = .created → th.task ∈ s.busy →
      Effect s { s with threads := s.threads.set i { th with phase := .skipped } }
  | entered (i : Nat) (th : Thread) :
      s.threads[i]? = some th → th.phase = .created → th.task ∉ s.busy →
      Effect s { s with
        busy := th.task :: s.busy
        threads := s.threads.set i { th with phase := .collecting, begun := some s.clock } }
  | left (i : Nat) (th : Thread) (stores : Bool) :
      s.threads[i]? = some th → th.phase = .collecting →
      Effect s { s with
        busy := serverEnd s.busy th.task
        threads := s.threads.set i
          { th with phase := if stores then .storing else .failed, left := some s.clock } }
  | stored (i : Nat) (th : Thread) :
      s.threads[i]? = some th → th.phase = .storing →
      Effect s { s with threads := s.threads.set i { th with phase := .ended } }

theorem effect_of_move {s t : State} {a : Action} (h : s.move a = some t) : Effect s t := by
  cases a with
  | edit db =>
    cases h
    exact .edited db
  | trigger r =>
    simp only [State.move, Option.ite_none_right_eq_some, Option.some.injEq] at h
    obtain ⟨-, rfl⟩ := h
    cases hLock : s.lock with
    | none => exact .accepted r hLock
    | some k => exact .refused r
  | attempt r =>
    unfold State.move at h
    cases hPending : (s.callers r).pending with
    | none => simp [hPending] at h
    | some moment =>
      cases hLock : s.lock with
      | none =>
        simp only [hPending, hLock, Option.some.injEq] at h
        exact h ▸ .began r moment hPending hLock
      | some k =>
        simp only [hPending, hLock, Option.some.injEq] at h
        exact h ▸ .skipped r moment k hPending hLock
  | body k b =>
    unfold State.move at h
    cases hc : s.cycles[k]? with
    | none => simp [hc] at h
    | some c =>
      simp only [hc, Option.map_eq_some_iff] at h
      obtain ⟨c', hAdvance, rfl⟩ := h
      exact .advanced k c c' b hc hAdvance
  | start k =>
    unfold State.move at h
    cases hc : s.cycles[k]? with
    | none => simp [hc] at h
    | some c =>
      cases hTask : c.tasks[c.started.length]? with
      | none => simp [hc, hTask] at h
      | some task =>
        simp only [hc, hTask, Option.ite_none_right_eq_some, Option.some.injEq] at h
        obtain ⟨hStage, rfl⟩ := h
        exact .started k c task hc hStage hTask
  | release k =>
    unfold State.move at h
    cases hc : s.cycles[k]? with
    | none => simp [hc] at h
    | some c =>
      simp only [hc, Option.ite_none_right_eq_some, Option.some.injEq] at h
      obtain ⟨hStage, rfl⟩ := h
      exact .released k c hc hStage
  | enter i =>
    unfold State.move at h
    cases hi : s.threads[i]? with
    | none => simp [hi] at h
    | some th =>
      simp only [hi, Option.ite_none_right_eq_some] at h
      obtain ⟨hPhase, h⟩ := h
      by_cases hBusy : th.task ∈ s.busy
      · simp only [serverBegin, if_pos hBusy, Option.some.injEq] at h
        exact h ▸ .passed i th hi hPhase hBusy
      · simp only [serverBegin, if_neg hBusy, Option.some.injEq] at h
        exact h ▸ .entered i th hi hPhase hBusy
  | leave i stores =>
    unfold State.move at h
    cases hi : s.threads[i]? with
    | none => simp [hi] at h
    | some th =>
      simp only [hi, Option.ite_none_right_eq_some, Option.some.injEq] at h
      obtain ⟨hPhase, rfl⟩ := h
      exact .left i th stores hi hPhase
  | store i =>
    unfold State.move at h
    cases hi : s.threads[i]? with
    | none => simp [hi] at h
    | some th =>
      simp only [hi, Option.ite_none_right_eq_some, Option.some.injEq] at h
      obtain ⟨hPhase, rfl⟩ := h
      exact .stored i th hi hPhase

theorem effect_of_step {s s' : State} {a : Action} (h : step s a = some s') :
    ∃ t, Effect s t ∧ s' = t.tick := by
  obtain ⟨t, ht, rfl⟩ := Option.map_eq_some_iff.mp h
  exact ⟨t, effect_of_move ht, rfl⟩

/-- What an effect keeps is kept by every run. -/
theorem invariant_of_effect {I : State → Prop} (hInit : ∀ s, Init s → I s)
    (hEffect : ∀ s t, Effect s t → I s → I t.tick) {s : State}
    (h : Reach step Init Always s) : I s := by
  refine h.invariant hInit fun s a s' hs _ hStep => ?_
  obtain ⟨t, ht, rfl⟩ := effect_of_step hStep
  exact hEffect s t ht hs

/-! ## The collections in flight -/

/-- The thread `i` is in its SSH phase. -/
def Collecting (threads : List Thread) (i : Nat) (t : Task) : Prop :=
  ∃ th, threads[i]? = some th ∧ th.phase = .collecting ∧ th.task = t

theorem collecting_set {threads : List Thread} {i j : Nat} {th th' : Thread} {t : Task}
    (hi : threads[i]? = some th) :
    Collecting (threads.set i th') j t ↔
      (j = i ∧ th'.phase = .collecting ∧ th'.task = t) ∨ (j ≠ i ∧ Collecting threads j t) := by
  unfold Collecting
  rw [Slots.getElem?_set_of_some hi]
  by_cases hEq : j = i
  · simp [hEq]
  · simp [hEq]

/-- A step of a thread outside its SSH phase. -/
theorem collecting_set_quiet {threads : List Thread} {i j : Nat} {th th' : Thread} {t : Task}
    (hi : threads[i]? = some th) (hOld : th.phase ≠ .collecting) (hNew : th'.phase ≠ .collecting) :
    Collecting (threads.set i th') j t ↔ Collecting threads j t := by
  rw [collecting_set hi]
  constructor
  · rintro (⟨-, hPhase, -⟩ | ⟨-, h⟩)
    · exact absurd hPhase hNew
    · exact h
  · intro h
    refine .inr ⟨?_, h⟩
    intro hEq
    obtain ⟨u, hu, hPhase, -⟩ := h
    rw [hEq, hi] at hu
    cases hu
    exact hOld hPhase

theorem collecting_concat {threads : List Thread} {j : Nat} {task t : Task} :
    Collecting (threads ++ [({ task } : Thread)]) j t ↔ Collecting threads j t := by
  constructor
  · rintro ⟨th, hj, hPhase, hTask⟩
    rcases Slots.of_concat hj with ⟨-, rfl⟩ | hOld
    · cases hPhase
    · exact ⟨th, hOld, hPhase, hTask⟩
  · rintro ⟨th, hj, h⟩
    exact ⟨th, Slots.concat_of_some hj _, h⟩

/-- `_server_busy` against the threads. -/
structure Guarded (busy : List Task) (threads : List Thread) : Prop where
  busy_iff : ∀ t, t ∈ busy ↔ ∃ i, Collecting threads i t
  alone : ∀ i j t, Collecting threads i t → Collecting threads j t → i = j

namespace Guarded

variable {busy : List Task} {threads threads' : List Thread} {i : Nat} {th : Thread}

theorem congr (h : Guarded busy threads)
    (hSame : ∀ j t, Collecting threads' j t ↔ Collecting threads j t) : Guarded busy threads' where
  busy_iff t := by simp only [h.busy_iff, hSame]
  alone j k t hj hk := h.alone j k t ((hSame j t).mp hj) ((hSame k t).mp hk)

theorem enter (h : Guarded busy threads) (hi : threads[i]? = some th)
    (hPhase : th.phase ≠ .collecting) (hFree : th.task ∉ busy) (moment : Nat) :
    Guarded (th.task :: busy)
      (threads.set i { th with phase := .collecting, begun := some moment }) := by
  have hOther : ∀ j, ¬Collecting threads j th.task := fun j hj =>
    hFree ((h.busy_iff _).mpr ⟨j, hj⟩)
  constructor
  · intro t
    rw [List.mem_cons, h.busy_iff]
    constructor
    · rintro (rfl | ⟨j, hj⟩)
      · exact ⟨i, (collecting_set hi).mpr (.inl ⟨rfl, rfl, rfl⟩)⟩
      · refine ⟨j, (collecting_set hi).mpr (.inr ⟨?_, hj⟩)⟩
        intro hEq
        obtain ⟨u, hu, hCollecting, -⟩ := hj
        rw [hEq, hi] at hu
        cases hu
        exact hPhase hCollecting
    · rintro ⟨j, hj⟩
      rcases (collecting_set hi).mp hj with ⟨-, -, rfl⟩ | ⟨-, hj⟩
      · exact .inl rfl
      · exact .inr ⟨j, hj⟩
  · intro j k t hj hk
    rcases (collecting_set hi).mp hj with ⟨rfl, -, rfl⟩ | ⟨-, hj⟩
    · rcases (collecting_set hi).mp hk with ⟨rfl, -, -⟩ | ⟨-, hk⟩
      · rfl
      · exact absurd hk (hOther k)
    · rcases (collecting_set hi).mp hk with ⟨-, -, rfl⟩ | ⟨-, hk⟩
      · exact absurd hj (hOther j)
      · exact h.alone j k t hj hk

theorem leave (h : Guarded busy threads) (hi : threads[i]? = some th)
    (hPhase : th.phase = .collecting) {th' : Thread} (hNew : th'.phase ≠ .collecting) :
    Guarded (serverEnd busy th.task) (threads.set i th') := by
  have hMine : Collecting threads i th.task := ⟨th, hi, hPhase, rfl⟩
  have hSet : ∀ j t, Collecting (threads.set i th') j t ↔ j ≠ i ∧ Collecting threads j t := by
    intro j t
    rw [collecting_set hi]
    simp [hNew]
  constructor
  · intro t
    simp only [serverEnd, List.mem_filter, decide_eq_true_eq, h.busy_iff, hSet]
    constructor
    · rintro ⟨⟨j, hj⟩, hNe⟩
      refine ⟨j, ?_, hj⟩
      intro hEq
      obtain ⟨u, hu, -, rfl⟩ := hj
      rw [hEq, hi] at hu
      cases hu
      exact hNe rfl
    · rintro ⟨j, hNe, hj⟩
      refine ⟨⟨j, hj⟩, ?_⟩
      rintro rfl
      exact hNe (h.alone j i _ hj hMine)
  · intro j k t hj hk
    exact h.alone j k t ((hSet j t).mp hj).2 ((hSet k t).mp hk).2

end Guarded

theorem guarded_of_effect {s t : State} (h : Effect s t) (hs : Guarded s.busy s.threads) :
    Guarded t.busy t.threads := by
  cases h with
  | edited | refused | accepted | skipped | began | advanced | released => exact hs
  | started k c task => exact hs.congr fun _ _ => collecting_concat
  | passed i th hi hPhase _ =>
    exact hs.congr fun _ _ => collecting_set_quiet hi (by simp [hPhase]) (by simp)
  | entered i th hi hPhase hFree => exact hs.enter hi (by simp [hPhase]) hFree _
  | left i th stores hi hPhase =>
    refine hs.leave hi hPhase ?_
    cases stores <;> simp
  | stored i th hi hPhase =>
    exact hs.congr fun _ _ => collecting_set_quiet hi (by simp [hPhase]) (by simp)

theorem guarded_of_reach {s : State} (h : Reach step Init Always s) :
    Guarded s.busy s.threads := by
  refine invariant_of_effect (I := fun s => Guarded s.busy s.threads) ?_ ?_ h
  · intro s hInit
    rw [hInit]
    exact ⟨fun t => by simp [Collecting], fun _ _ _ hi => by simp [Collecting] at hi⟩
  · exact fun s t hEffect hs => guarded_of_effect (t := t) hEffect hs

/-- The SSH phases of a server that are running. -/
def ofServer (threads : List Thread) (server : Nat) : List Thread :=
  threads.filter fun th => th.phase = .collecting ∧ th.task.1 = server

theorem ofServer_tasks_nodup {busy : List Task} {threads : List Thread}
    (h : Guarded busy threads) (server : Nat) : ((ofServer threads server).map Thread.task).Nodup := by
  rw [List.Nodup, List.pairwise_map, ofServer, List.pairwise_filter, List.pairwise_iff_getElem]
  intro i j hi hj hLt hFirst hSecond hEq
  simp only [decide_eq_true_eq] at hFirst hSecond
  have := h.alone i j threads[i].task ⟨_, List.getElem?_eq_getElem hi, hFirst.1, rfl⟩
    ⟨_, List.getElem?_eq_getElem hj, hSecond.1, hEq.symm⟩
  omega

theorem ofServer_length_le {busy : List Task} {threads : List Thread}
    (h : Guarded busy threads) (server : Nat) : (ofServer threads server).length ≤ 3 := by
  have hKinds : (ofServer threads server).map Thread.task ⊆
      [(server, .poll), (server, .slow), (server, .inventory)] := by
    intro t ht
    obtain ⟨th, hth, rfl⟩ := List.mem_map.mp ht
    obtain ⟨-, hServer⟩ := of_decide_eq_true (List.mem_filter.mp hth).2
    rw [← Prod.eta th.task, hServer]
    cases th.task.2 <;> simp
  have hLe := (List.subperm_of_subset (ofServer_tasks_nodup h server) hKinds).length_le
  rw [List.length_map] at hLe
  exact hLe

/-- Whatever cycles overlap, the collections in flight are those of `_server_busy`, each is alone,
and a server has three at most. -/
theorem flights_of_run {s : State} (h : Reach step Init Always s) :
    (∀ t, t ∈ s.busy ↔ ∃ i, Collecting s.threads i t) ∧
      (∀ i j t, Collecting s.threads i t → Collecting s.threads j t → i = j) ∧
      ∀ server, (ofServer s.threads server).length ≤ 3 := by
  have hGuarded := guarded_of_reach h
  exact ⟨hGuarded.busy_iff, hGuarded.alone, ofServer_length_le hGuarded⟩

/-! ## One cycle at a time -/

/-- The cycle has begun and still holds the lock. -/
def Open (cycles : List Cycle) (k : Nat) : Prop := ∃ c, cycles[k]? = some c ∧ c.stage ≠ .over

theorem open_set {cycles : List Cycle} {j k : Nat} {c c' : Cycle} (hc : cycles[k]? = some c) :
    Open (cycles.set k c') j ↔ (j = k ∧ c'.stage ≠ .over) ∨ (j ≠ k ∧ Open cycles j) := by
  unfold Open
  rw [Slots.getElem?_set_of_some hc]
  by_cases hEq : j = k
  · simp [hEq]
  · simp [hEq]

/-- A step of a cycle that stays open. -/
theorem open_set_of_open {cycles : List Cycle} {j k : Nat} {c c' : Cycle}
    (hc : cycles[k]? = some c) (hOld : c.stage ≠ .over) (hNew : c'.stage ≠ .over) :
    Open (cycles.set k c') j ↔ Open cycles j := by
  rw [open_set hc]
  constructor
  · rintro (⟨rfl, -⟩ | ⟨-, h⟩)
    · exact ⟨c, hc, hOld⟩
    · exact h
  · intro h
    by_cases hEq : j = k
    · exact .inl ⟨hEq, hNew⟩
    · exact .inr ⟨hEq, h⟩

theorem open_concat {cycles : List Cycle} {j : Nat} {c : Cycle} (hc : c.stage ≠ .over) :
    Open (cycles ++ [c]) j ↔ j = cycles.length ∨ Open cycles j := by
  constructor
  · rintro ⟨d, hj, hd⟩
    rcases Slots.of_concat hj with ⟨hEq, -⟩ | hOld
    · exact .inl hEq
    · exact .inr ⟨d, hOld, hd⟩
  · rintro (rfl | ⟨d, hj, hd⟩)
    · exact ⟨c, by simp, hc⟩
    · exact ⟨d, Slots.concat_of_some hj c, hd⟩

/-- The lock is held by the open cycle. -/
def Locked (s : State) : Prop := ∀ k, s.lock = some k ↔ Open s.cycles k

theorem locked_of_effect {s t : State} (h : Effect s t) (hs : Locked s) : Locked t := by
  intro j
  cases h with
  | edited | refused | accepted | skipped | passed | entered | left | stored => exact hs j
  | began r moment _ hFree =>
    have hNone : ¬Open s.cycles j := fun hOpen => by
      rw [← hs j, hFree] at hOpen
      cases hOpen
    show some s.cycles.length = some j ↔ Open (s.cycles ++ [_]) j
    rw [open_concat (by simp), Option.some.injEq, or_iff_left hNone, eq_comm]
  | advanced k c c' b hc hAdvance =>
    obtain ⟨-, -, hOld, hNew⟩ := advance_kept hAdvance
    show s.lock = some j ↔ Open (s.cycles.set k c') j
    rw [open_set_of_open hc hOld hNew, hs j]
  | started k c task hc hStage _ =>
    have hOpen : c.stage ≠ .over := by simp [hStage]
    show s.lock = some j ↔ Open (s.cycles.set k _) j
    rw [open_set_of_open hc hOpen (by exact hOpen), hs j]
  | released k c hc hStage =>
    have hLock : s.lock = some k := (hs k).mpr ⟨c, hc, by simp [hStage]⟩
    show none = some j ↔ Open (s.cycles.set k _) j
    rw [open_set hc, ← hs j, hLock]
    simp [eq_comm]

theorem locked_of_reach {s : State} (h : Reach step Init Always s) : Locked s := by
  refine invariant_of_effect ?_ ?_ h
  · intro s hInit
    rw [hInit]
    intro k
    simp [Open]
  · exact fun s t hEffect hs => locked_of_effect (t := t) hEffect hs

/-! ## What stays of cycles, calls and threads -/

theorem clock_of_effect {s t : State} (h : Effect s t) : t.clock = s.clock := by
  cases h <;> rfl

theorem cycles_grow {s t : State} (h : Effect s t) :
    Slots.Grows (fun c c' : Cycle => c'.begun = c.begun) s.cycles t.cycles := by
  have hRefl : ∀ c : Cycle, c.begun = c.begun := fun _ => rfl
  cases h with
  | edited | refused | accepted | skipped | passed | entered | left | stored => exact .refl hRefl _
  | began => exact .concat hRefl _ _
  | advanced k c c' b hc hAdvance => exact .set hRefl hc (advance_kept hAdvance).1
  | started k c _ hc => exact .set hRefl hc rfl
  | released k c hc => exact .set hRefl hc rfl

/-- A cycle that is open now was open before, or begins now. -/
theorem open_of_effect {s t : State} (h : Effect s t) {k : Nat} {c' : Cycle}
    (hc' : t.cycles[k]? = some c') (hOpen : c'.stage ≠ .over) :
    (∃ c, s.cycles[k]? = some c ∧ c.stage ≠ .over ∧ c'.begun = c.begun) ∨
      c'.begun = s.clock := by
  have hSet : ∀ j c d, s.cycles[j]? = some c → c.stage ≠ .over → d.begun = c.begun →
      (s.cycles.set j d)[k]? = some c' →
      (∃ c, s.cycles[k]? = some c ∧ c.stage ≠ .over ∧ c'.begun = c.begun) ∨
        c'.begun = s.clock := by
    intro j c d hj hcOpen hBegun hk
    rcases Slots.of_set hj hk with ⟨rfl, rfl⟩ | ⟨-, hOld⟩
    · exact .inl ⟨c, hj, hcOpen, hBegun⟩
    · exact .inl ⟨c', hOld, hOpen, rfl⟩
  cases h with
  | edited | refused | accepted | skipped | passed | entered | left | stored =>
    exact .inl ⟨c', hc', hOpen, rfl⟩
  | began =>
    rcases Slots.of_concat hc' with ⟨-, rfl⟩ | hOld
    · exact .inr rfl
    · exact .inl ⟨c', hOld, hOpen, rfl⟩
  | advanced j c d b hc hAdvance =>
    obtain ⟨hBegun, -, hcOpen, -⟩ := advance_kept hAdvance
    exact hSet j c d hc hcOpen hBegun hc'
  | started j c _ hc hStage =>
    exact hSet j c { c with started := c.started ++ [s.threads.length] } hc (by simp [hStage]) rfl hc'
  | released j c hc hStage =>
    exact hSet j c { c with stage := .over } hc (by simp [hStage]) rfl hc'

/-- What a step may make of a call. -/
theorem caller_of_effect {s t : State} (h : Effect s t) (r : Nat) :
    t.callers r = s.callers r ∨ t.callers r = .refused ∨
      (t.callers r = .accepted s.clock ∧ s.lock = none ∧ t.cycles = s.cycles) ∨
      (∃ moment k, (s.callers r).pending = some moment ∧ s.lock = some k ∧
        t.callers r = .skipped moment k) ∨
      ∃ moment, (s.callers r).pending = some moment ∧ t.callers r = .ran moment s.cycles.length ∧
        t.cycles = s.cycles ++ [{ begun := s.clock }] := by
  cases h with
  | edited | advanced | started | released | passed | entered | left | stored => exact .inl rfl
  | refused q =>
    by_cases hEq : r = q
    · subst hEq
      exact .inr (.inl (by simp [State.call]))
    · exact .inl (by simp [State.call, hEq])
  | accepted q hFree =>
    by_cases hEq : r = q
    · subst hEq
      exact .inr (.inr (.inl ⟨by simp [State.call], hFree, rfl⟩))
    · exact .inl (by simp [State.call, hEq])
  | skipped q moment k hPending hLock =>
    by_cases hEq : r = q
    · subst hEq
      exact .inr (.inr (.inr (.inl ⟨moment, k, hPending, hLock, by simp [State.call]⟩)))
    · exact .inl (by simp [State.call, hEq])
  | began q moment hPending =>
    by_cases hEq : r = q
    · subst hEq
      exact .inr (.inr (.inr (.inr ⟨moment, hPending, by simp [State.call], rfl⟩)))
    · exact .inl (by simp [State.call, hEq])

/-! ## An accepted refresh -/

/-- A call that was accepted at `a` and has tried the lock: the cycle that it ran, or for which it
left. -/
def Settled (s : State) (r a k : Nat) : Prop :=
  s.callers r = .ran (some a) k ∨ s.callers r = .skipped (some a) k

/-- Cycles that are open begin after the refreshes that wait for the lock. -/
structure Served (s : State) : Prop where
  moments : ∀ r a, s.callers r = .accepted a → a < s.clock
  ahead : ∀ r a, s.callers r = .accepted a →
    ∀ (k : Nat) (c : Cycle), s.cycles[k]? = some c → c.stage ≠ .over → a < c.begun
  settled : ∀ r a k, Settled s r a k → ∃ c, s.cycles[k]? = some c ∧ a < c.begun

theorem pending_eq_some {c : Caller} {a : Nat} (h : c.pending = some (some a)) :
    c = .accepted a := by
  cases c <;> simp_all [Caller.pending]

theorem accepted_of_effect {s t : State} (h : Effect s t) {r a : Nat}
    (hr : t.callers r = .accepted a) :
    s.callers r = .accepted a ∨ (a = s.clock ∧ s.lock = none ∧ t.cycles = s.cycles) := by
  rcases caller_of_effect h r with hSame | hNew | ⟨hNew, hRest⟩ | ⟨_, _, _, _, hNew⟩ | ⟨_, _, hNew, _⟩
  · exact .inl (hSame ▸ hr)
  · cases hNew.symm.trans hr
  · cases hNew.symm.trans hr
    exact .inr ⟨rfl, hRest⟩
  · cases hNew.symm.trans hr
  · cases hNew.symm.trans hr

theorem served_of_effect {s t : State} (h : Effect s t) (hLocked : Locked s) (hs : Served s) :
    Served t.tick := by
  -- a call of which nothing new is known
  have hKept : ∀ r a k, Settled s r a k → ∃ c, t.cycles[k]? = some c ∧ a < c.begun := by
    intro r a k hr
    obtain ⟨c, hc, hLt⟩ := hs.settled r a k hr
    obtain ⟨c', hc', hBegun⟩ := cycles_grow h k c hc
    exact ⟨c', hc', hBegun ▸ hLt⟩
  constructor
  · intro r a hr
    show a < t.clock + 1
    rw [clock_of_effect h]
    rcases accepted_of_effect h hr with hOld | ⟨rfl, -⟩
    · have := hs.moments r a hOld
      omega
    · omega
  · intro r a hr k c' hc' hOpen
    rcases accepted_of_effect h hr with hOld | ⟨rfl, hFree, hSame⟩
    · rcases open_of_effect h hc' hOpen with ⟨c, hc, hcOpen, hBegun⟩ | hBegun
      · rw [hBegun]
        exact hs.ahead r a hOld k c hc hcOpen
      · rw [hBegun]
        exact hs.moments r a hOld
    · -- the lock was free, so no cycle is open
      have hLock := (hLocked k).mpr ⟨c', hSame ▸ hc', hOpen⟩
      rw [hFree] at hLock
      cases hLock
  · intro r a k hr
    rcases caller_of_effect h r with hSame | hRefused | ⟨hNew, -⟩ | ⟨moment, j, hPending, hLock, hNew⟩ |
      ⟨moment, hPending, hNew, hCycles⟩
    · refine hKept r a k ?_
      unfold Settled at hr ⊢
      rwa [← hSame]
    · rcases hr with hr | hr <;> cases hRefused.symm.trans hr
    · rcases hr with hr | hr <;> cases hNew.symm.trans hr
    · -- it leaves for the cycle that is open
      rcases hr with hr | hr
      · cases hNew.symm.trans hr
      · cases hNew.symm.trans hr
        obtain ⟨c, hc, hOpen⟩ := (hLocked k).mp hLock
        obtain ⟨c', hc', hBegun⟩ := cycles_grow h k c hc
        refine ⟨c', hc', ?_⟩
        rw [hBegun]
        exact hs.ahead r a (pending_eq_some hPending) k c hc hOpen
    · -- it begins a cycle of its own
      rcases hr with hr | hr
      · cases hNew.symm.trans hr
        refine ⟨{ begun := s.clock }, ?_, hs.moments r a (pending_eq_some hPending)⟩
        show t.cycles[s.cycles.length]? = _
        rw [hCycles]
        simp
      · cases hNew.symm.trans hr

theorem served_of_reach {s : State} (h : Reach step Init Always s) : Served s := by
  have hBoth : Locked s ∧ Served s := by
    refine invariant_of_effect (I := fun s => Locked s ∧ Served s) ?_ ?_ h
    · intro s hInit
      refine ⟨locked_of_reach (.start hInit), ?_⟩
      rw [hInit]
      exact ⟨nofun, nofun, fun _ _ _ hr => by rcases hr with hr | hr <;> cases hr⟩
    · intro s t hEffect hs
      exact ⟨locked_of_effect (t := t) hEffect hs.1, served_of_effect hEffect hs.1 hs.2⟩
  exact hBoth.2

/-! ## Threads and their cycle -/

/-- The SSH phase of the thread began, and it has not ended until `moment`. -/
def Thread.FlewAfter (th : Thread) (moment : Nat) : Prop :=
  th.begun.isSome ∧ ∀ u, th.left = some u → moment < u

/-- What steps keep of a thread; an SSH phase that ends now ends at `clock`. -/
structure Follows (clock : Nat) (th th' : Thread) : Prop where
  task : th'.task = th.task
  done : th.over → th'.over
  woken : th.phase ≠ .created → th'.phase ≠ .created
  begun : th.begun.isSome → th'.begun.isSome
  left : th'.left = th.left ∨ th'.left = some clock

theorem Follows.refl (clock : Nat) (th : Thread) : Follows clock th th :=
  ⟨rfl, id, id, id, .inl rfl⟩

theorem Follows.flewAfter {clock moment : Nat} {th th' : Thread} (h : Follows clock th th')
    (hMoment : moment < clock) (hFlew : th.FlewAfter moment) : th'.FlewAfter moment := by
  refine ⟨h.begun hFlew.1, fun u hu => ?_⟩
  rcases h.left with hLeft | hLeft
  · exact hFlew.2 u (hLeft ▸ hu)
  · cases hLeft.symm.trans hu
    exact hMoment

theorem threads_grow {s t : State} (h : Effect s t) :
    Slots.Grows (Follows s.clock) s.threads t.threads := by
  have hRefl := Follows.refl s.clock
  cases h with
  | edited | refused | accepted | skipped | began | advanced | released => exact .refl hRefl _
  | started => exact .concat hRefl _ _
  | passed i th hi hPhase =>
    exact .set hRefl hi ⟨rfl, by simp [Thread.over, hPhase], by simp [hPhase], id, .inl rfl⟩
  | entered i th hi hPhase =>
    exact .set hRefl hi
      ⟨rfl, by simp [Thread.over, hPhase], by simp [hPhase], fun _ => rfl, .inl rfl⟩
  | left i th stores hi hPhase =>
    refine .set hRefl hi ⟨rfl, by simp [Thread.over, hPhase], fun _ => ?_, id, .inr rfl⟩
    cases stores <;> simp
  | stored i th hi hPhase =>
    exact .set hRefl hi ⟨rfl, fun _ => rfl, by simp, id, .inl rfl⟩

/-- The moments of a thread that is not yet past its SSH phase. -/
def Stamped (threads : List Thread) : Prop :=
  ∀ (i : Nat) (th : Thread), threads[i]? = some th →
    (th.phase = .created → th.left = none) ∧
      (th.phase = .collecting → th.begun.isSome ∧ th.left = none)

theorem stamped_of_effect {s t : State} (h : Effect s t) (hs : Stamped s.threads) :
    Stamped t.threads := by
  have hSet : ∀ (i : Nat) (th th' : Thread), s.threads[i]? = some th →
      (th'.phase = .created → th'.left = none) ∧
        (th'.phase = .collecting → th'.begun.isSome ∧ th'.left = none) →
      Stamped (s.threads.set i th') := by
    intro i th th' hi hNew j u hj
    rcases Slots.of_set hi hj with ⟨-, rfl⟩ | ⟨-, hOld⟩
    · exact hNew
    · exact hs j u hOld
  cases h with
  | edited | refused | accepted | skipped | began | advanced | released => exact hs
  | started =>
    intro j u hj
    rcases Slots.of_concat hj with ⟨-, rfl⟩ | hOld
    · exact ⟨fun _ => rfl, nofun⟩
    · exact hs j u hOld
  | passed i th hi => exact hSet i th _ hi ⟨nofun, nofun⟩
  | entered i th hi hPhase => exact hSet i th _ hi ⟨nofun, fun _ => ⟨rfl, (hs i th hi).1 hPhase⟩⟩
  | left i th stores hi =>
    refine hSet i th _ hi ?_
    cases stores
    · exact ⟨nofun, nofun⟩
    · exact ⟨nofun, nofun⟩
  | stored i th hi => exact hSet i th _ hi ⟨nofun, nofun⟩

theorem flewAfter_of_collecting {threads : List Thread} (h : Stamped threads) {i : Nat} {t : Task}
    (hi : Collecting threads i t) (moment : Nat) :
    ∃ v, threads[i]? = some v ∧ v.task = t ∧ v.FlewAfter moment := by
  obtain ⟨v, hv, hPhase, hTask⟩ := hi
  obtain ⟨hBegun, hLeft⟩ := (h i v hv).2 hPhase
  refine ⟨v, hv, hTask, hBegun, fun u hu => ?_⟩
  rw [hLeft] at hu
  cases hu

/-- A thread that comes to its `_server_begin` collects, or another one is collecting. -/
theorem flight_of_woken {s t : State} (h : Effect s t) (hGuarded : Guarded s.busy s.threads)
    (hStamped : Stamped s.threads) {i : Nat} {th th' : Thread} (hi : s.threads[i]? = some th)
    (hi' : t.threads[i]? = some th') (hOld : th.phase = .created) (hNew : th'.phase ≠ .created)
    (moment : Nat) :
    ∃ (j : Nat) (v : Thread), t.threads[j]? = some v ∧ v.task = th.task ∧ v.FlewAfter moment := by
  have hSame : t.threads[i]? = some th → False := fun hEq => by
    cases hEq.symm.trans hi'
    exact hNew hOld
  -- a step of a thread that is past its `_server_begin`
  have hPast : ∀ k u, s.threads[k]? = some u → u.phase ≠ .created →
      ∀ v, (s.threads.set k v)[i]? = some th' → False := by
    intro k u hk hPhase v hSet
    rcases Slots.of_set hk hSet with ⟨rfl, -⟩ | ⟨-, hEq⟩
    · cases hi.symm.trans hk
      exact hPhase hOld
    · cases hi.symm.trans hEq
      exact hNew hOld
  cases h with
  | edited | refused | accepted | skipped | began | advanced | released => exact (hSame hi).elim
  | started => exact (hSame (Slots.concat_of_some hi _)).elim
  | left k u stores hk hPhase => exact (hPast k u hk (by simp [hPhase]) _ hi').elim
  | stored k u hk hPhase => exact (hPast k u hk (by simp [hPhase]) _ hi').elim
  | passed k u hk hPhase hBusy =>
    rcases Slots.of_set hk hi' with ⟨rfl, rfl⟩ | ⟨-, hEq⟩
    · cases hi.symm.trans hk
      obtain ⟨j, hj⟩ := (hGuarded.busy_iff _).mp hBusy
      obtain ⟨v, hv, hTask, hFlew⟩ := flewAfter_of_collecting hStamped hj moment
      refine ⟨j, v, ?_, hTask, hFlew⟩
      have hNe : j ≠ i := by
        rintro rfl
        obtain ⟨w, hw, hCollecting, -⟩ := hj
        cases hw.symm.trans hk
        rw [hPhase] at hCollecting
        cases hCollecting
      show (s.threads.set i _)[j]? = some v
      rw [Slots.getElem?_set_of_some hk, if_neg hNe, hv]
    · cases hi.symm.trans hEq
      exact (hNew hOld).elim
  | entered k u hk hPhase _ =>
    rcases Slots.of_set hk hi' with ⟨rfl, rfl⟩ | ⟨-, hEq⟩
    · cases hi.symm.trans hk
      refine ⟨i, _, hi', rfl, rfl, fun v hv => ?_⟩
      rw [(hStamped i th hi).1 hPhase] at hv
      cases hv
    · cases hi.symm.trans hEq
      exact (hNew hOld).elim

theorem cycleThreads_of_none {now : Int} {db : Store} (h : loadServers db = []) :
    cycleThreads now db = [] := by
  simp [cycleThreads, h]

/-- The threads that a cycle has started and joined. -/
structure Consistent (threads : List Thread) (c : Cycle) : Prop where
  none_yet : c.stage = .loading ∨ c.stage = .reading ∨ c.stage = .deciding → c.started = []
  tasks : ∀ (p i : Nat), c.started[p]? = some i →
    ∃ th, threads[i]? = some th ∧ c.tasks[p]? = some th.task
  launched : c.stage = .evaluating ∨
    ((c.stage = .returning ∨ c.stage = .over) ∧ c.raised = false) → c.launched
  joined_le : c.joined ≤ c.started.length
  joined_done : c.late = false → ∀ (p i : Nat), p < c.joined → c.started[p]? = some i →
    ∃ th, threads[i]? = some th ∧ th.over
  all_joined : c.stage = .evaluating → c.joined = c.started.length
  flew : ∀ i ∈ c.started, ∀ th, threads[i]? = some th → th.phase ≠ .created →
    ∃ (j : Nat) (v : Thread), threads[j]? = some v ∧ v.task = th.task ∧ v.FlewAfter c.begun

namespace Consistent

/-- A cycle that stays as it is, while the threads go on. -/
theorem of_effect {s t : State} (h : Effect s t) (hGuarded : Guarded s.busy s.threads)
    (hStamped : Stamped s.threads) {c : Cycle} (hc : Consistent s.threads c)
    (hBegun : c.begun < s.clock) : Consistent t.threads c where
  none_yet := hc.none_yet
  tasks p i hp := by
    obtain ⟨th, hi, hTask⟩ := hc.tasks p i hp
    obtain ⟨th', hi', hFollows⟩ := threads_grow h i th hi
    exact ⟨th', hi', hFollows.task ▸ hTask⟩
  launched := hc.launched
  joined_le := hc.joined_le
  joined_done hLate p i hp hi := by
    obtain ⟨th, hi, hOver⟩ := hc.joined_done hLate p i hp hi
    obtain ⟨th', hi', hFollows⟩ := threads_grow h i th hi
    exact ⟨th', hi', hFollows.done hOver⟩
  all_joined := hc.all_joined
  flew i hMem th' hi' hWoken := by
    obtain ⟨p, hp⟩ := List.mem_iff_getElem?.mp hMem
    obtain ⟨th, hi, -⟩ := hc.tasks p i hp
    obtain ⟨u, hu, hFollows⟩ := threads_grow h i th hi
    cases hu.symm.trans hi'
    rw [hFollows.task]
    by_cases hOld : th.phase = .created
    · exact flight_of_woken h hGuarded hStamped hi hi' hOld hWoken c.begun
    · obtain ⟨j, v, hj, hTask, hFlew⟩ := hc.flew i hMem th hi hOld
      obtain ⟨v', hj', hFollowsV⟩ := threads_grow h j v hj
      exact ⟨j, v', hj', hFollowsV.task.trans hTask, hFollowsV.flewAfter hBegun hFlew⟩

/-- Before any thread is started there is nothing to say of threads. -/
theorem of_none {threads : List Thread} {c : Cycle} (hStarted : c.started = [])
    (hJoined : c.joined = 0) (hLaunched : c.stage = .evaluating ∨
      ((c.stage = .returning ∨ c.stage = .over) ∧ c.raised = false) → c.launched) :
    Consistent threads c where
  none_yet _ := hStarted
  tasks p i hp := by simp [hStarted] at hp
  launched := hLaunched
  joined_le := by simp [hStarted, hJoined]
  joined_done _ p i hp := by omega
  all_joined _ := by simp [hStarted, hJoined]
  flew i hMem := by simp [hStarted] at hMem

theorem advance {s : State} {c c' : Cycle} {b : Body} (hc : Consistent s.threads c)
    (h : c.advance s b = some c') : Consistent s.threads c' := by
  have hNone : c.stage = .loading ∨ c.stage = .reading ∨ c.stage = .deciding →
      c.started = [] ∧ c.joined = 0 := fun hStage => by
    have hStarted := hc.none_yet hStage
    have hLe := hc.joined_le
    rw [hStarted] at hLe
    exact ⟨hStarted, Nat.le_zero.mp hLe⟩
  cases b with
  | load =>
    simp only [Cycle.advance, Option.ite_none_right_eq_some, Option.some.injEq] at h
    obtain ⟨hStage, rfl⟩ := h
    obtain ⟨hStarted, hJoined⟩ := hNone (.inl hStage)
    refine of_none hStarted hJoined ?_
    intro hLeft
    by_cases hEmpty : (loadServers s.db).isEmpty
    · -- no enabled server, so no thread to start
      have hNone : cycleThreads c.now { c.seen with servers := s.db.servers } = [] :=
        cycleThreads_of_none (List.isEmpty_iff.mp hEmpty)
      simp [Cycle.launched, Cycle.tasks, hNone, hStarted]
    · simp [hEmpty] at hLeft
  | readSlow now =>
    simp only [Cycle.advance, Option.ite_none_right_eq_some, Option.some.injEq] at h
    obtain ⟨hStage, rfl⟩ := h
    obtain ⟨hStarted, hJoined⟩ := hNone (.inr (.inl hStage))
    exact of_none hStarted hJoined (by simp)
  | readInventory =>
    simp only [Cycle.advance, Option.ite_none_right_eq_some, Option.some.injEq] at h
    obtain ⟨hStage, rfl⟩ := h
    obtain ⟨hStarted, hJoined⟩ := hNone (.inr (.inr hStage))
    exact of_none hStarted hJoined (by simp)
  | join timedOut =>
    simp only [Cycle.advance, Option.ite_none_right_eq_some] at h
    obtain ⟨⟨hStage, -⟩, h⟩ := h
    split at h
    · rename_i i hi
      simp only [Option.ite_none_right_eq_some, Option.some.injEq] at h
      obtain ⟨hOver, rfl⟩ := h
      refine { hc with
        launched := by simp [hStage]
        joined_le := Slots.lt_of_some hi
        joined_done := ?_
        all_joined := by simp [hStage] }
      intro hLate p j hp hj
      obtain ⟨hOld, rfl⟩ : c.late = false ∧ timedOut = false := by simpa using hLate
      rcases Nat.lt_succ_iff_lt_or_eq.mp hp with hLt | rfl
      · exact hc.joined_done hOld p j hLt hj
      · cases hi.symm.trans hj
        exact (Option.any_eq_true _ _).mp (by simpa [State.isOver] using hOver)
    · cases h
  | evaluate =>
    simp only [Cycle.advance, Option.ite_none_right_eq_some, Option.some.injEq] at h
    obtain ⟨⟨hStage, hLaunched, hAll⟩, rfl⟩ := h
    exact { hc with none_yet := by simp, launched := fun _ => hLaunched, all_joined := fun _ => hAll }
  | finish =>
    simp only [Cycle.advance, Option.ite_none_right_eq_some, Option.some.injEq] at h
    obtain ⟨hStage, rfl⟩ := h
    have hLaunched := hc.launched (.inl hStage)
    exact { hc with none_yet := by simp, launched := fun _ => hLaunched, all_joined := by simp }
  | raise =>
    simp only [Cycle.advance, Option.ite_none_right_eq_some, Option.some.injEq] at h
    obtain ⟨-, rfl⟩ := h
    exact { hc with none_yet := by simp, launched := by simp, all_joined := by simp }

theorem release {threads : List Thread} {c : Cycle} (hc : Consistent threads c)
    (hStage : c.stage = .returning) : Consistent threads { c with stage := .over } :=
  { hc with
    none_yet := by simp
    launched := fun hLeft => hc.launched (.inr ⟨.inl hStage, by simpa using hLeft⟩)
    all_joined := by simp }

theorem start {threads : List Thread} {c : Cycle} {task : Task} (hc : Consistent threads c)
    (hStage : c.stage = .working) (hTask : c.tasks[c.started.length]? = some task)
    (hBelow : ∀ i ∈ c.started, i < threads.length) :
    Consistent (threads ++ [({ task } : Thread)])
      { c with started := c.started ++ [threads.length] } where
  none_yet := by simp [hStage]
  tasks p i hp := by
    rcases Slots.of_concat hp with ⟨rfl, rfl⟩ | hOld
    · exact ⟨{ task }, by simp, hTask⟩
    · obtain ⟨th, hi, hTh⟩ := hc.tasks p i hOld
      exact ⟨th, Slots.concat_of_some hi _, hTh⟩
  launched := by simp [hStage]
  joined_le := by
    have := hc.joined_le
    simp
    omega
  joined_done hLate p i hp hi := by
    have hLe := hc.joined_le
    rcases Slots.of_concat hi with ⟨rfl, -⟩ | hOld
    · exact absurd hp (by simpa using hLe)
    · obtain ⟨th, hi, hOver⟩ := hc.joined_done hLate p i hp hOld
      exact ⟨th, Slots.concat_of_some hi _, hOver⟩
  all_joined := by simp [hStage]
  flew i hMem th hi hWoken := by
    rcases List.mem_append.mp hMem with hOld | hNew
    · rcases Slots.of_concat hi with ⟨rfl, -⟩ | hi
      · exact absurd (hBelow _ hOld) (Nat.lt_irrefl _)
      · obtain ⟨j, v, hj, hv⟩ := hc.flew i hOld th hi hWoken
        exact ⟨j, v, Slots.concat_of_some hj _, hv⟩
    · rw [List.mem_singleton.mp hNew] at hi
      simp only [List.getElem?_concat_length, Option.some.injEq] at hi
      exact absurd rfl (hi ▸ hWoken)

end Consistent

/-- What holds of all threads and cycles. -/
structure Orderly (s : State) : Prop where
  guarded : Guarded s.busy s.threads
  stamped : Stamped s.threads
  before : ∀ (k : Nat) (c : Cycle), s.cycles[k]? = some c → c.begun < s.clock
  consistent : ∀ (k : Nat) (c : Cycle), s.cycles[k]? = some c → Consistent s.threads c

theorem before_of_effect {s t : State} (h : Effect s t)
    (hs : ∀ (k : Nat) (c : Cycle), s.cycles[k]? = some c → c.begun < s.clock) :
    ∀ (k : Nat) (c : Cycle), t.cycles[k]? = some c → c.begun < t.clock + 1 := by
  intro k c hk
  rw [clock_of_effect h]
  have hSet : ∀ (j : Nat) (d d' : Cycle), s.cycles[j]? = some d → d'.begun = d.begun →
      (s.cycles.set j d')[k]? = some c → c.begun < s.clock + 1 := by
    intro j d d' hj hBegun hSet
    rcases Slots.of_set hj hSet with ⟨-, rfl⟩ | ⟨-, hOld⟩
    · have := hs j d hj
      omega
    · have := hs k c hOld
      omega
  cases h with
  | edited | refused | accepted | skipped | passed | entered | left | stored =>
    have := hs k c hk
    omega
  | began =>
    rcases Slots.of_concat hk with ⟨-, rfl⟩ | hOld
    · exact Nat.lt_succ_self _
    · have := hs k c hOld
      omega
  | advanced j d d' b hd hAdvance => exact hSet j d d' hd (advance_kept hAdvance).1 hk
  | started j d _ hd =>
    exact hSet j d { d with started := d.started ++ [s.threads.length] } hd rfl hk
  | released j d hd => exact hSet j d { d with stage := .over } hd rfl hk

theorem Consistent.started_lt {threads : List Thread} {c : Cycle} (h : Consistent threads c) :
    ∀ i ∈ c.started, i < threads.length := by
  intro i hMem
  obtain ⟨p, hp⟩ := List.mem_iff_getElem?.mp hMem
  obtain ⟨th, hi, -⟩ := h.tasks p i hp
  exact Slots.lt_of_some hi

theorem consistent_of_effect {s t : State} (h : Effect s t) (hs : Orderly s) (k : Nat) (c : Cycle)
    (hk : t.cycles[k]? = some c) : Consistent t.threads c := by
  have hKept : ∀ (j : Nat) (d : Cycle), s.cycles[j]? = some d → Consistent t.threads d :=
    fun j d hd => (hs.consistent j d hd).of_effect h hs.guarded hs.stamped (hs.before j d hd)
  cases h with
  | edited | refused | accepted | skipped | passed | entered | left | stored => exact hKept k c hk
  | began =>
    rcases Slots.of_concat hk with ⟨-, rfl⟩ | hOld
    · exact .of_none rfl rfl (by simp)
    · exact hKept k c hOld
  | advanced j d d' b hd hAdvance =>
    rcases Slots.of_set hd hk with ⟨-, rfl⟩ | ⟨-, hOld⟩
    · exact (hs.consistent j d hd).advance hAdvance
    · exact hKept k c hOld
  | started j d task hd hStage hTask =>
    rcases Slots.of_set hd hk with ⟨-, rfl⟩ | ⟨-, hOld⟩
    · exact (hs.consistent j d hd).start hStage hTask (hs.consistent j d hd).started_lt
    · exact hKept k c hOld
  | released j d hd hStage =>
    rcases Slots.of_set hd hk with ⟨-, rfl⟩ | ⟨-, hOld⟩
    · exact (hs.consistent j d hd).release hStage
    · exact hKept k c hOld

theorem orderly_of_reach {s : State} (h : Reach step Init Always s) : Orderly s := by
  refine invariant_of_effect ?_ ?_ h
  · intro s hInit
    refine ⟨guarded_of_reach (.start hInit), ?_, ?_, ?_⟩
    · rw [hInit]
      exact fun i th hi => by simp at hi
    · rw [hInit]
      exact fun k c hc => by simp at hc
    · rw [hInit]
      exact fun k c hc => by simp at hc
  · intro s t hEffect hs
    exact ⟨guarded_of_effect (t := t) hEffect hs.guarded, stamped_of_effect (t := t) hEffect hs.stamped,
      before_of_effect hEffect hs.before, consistent_of_effect (t := t) hEffect hs⟩

/-- One server, with a slow and an inventory collection from a moment ago. -/
def freshServer : Store where
  servers := .singleton { id := 1 }
  slowHealth := [⟨1, 0⟩]
  hostInventory := [⟨1, 0⟩]

/-- The loop's cycle leaves a poll behind that outlives its join. A refresh comes, and the poll of
its cycle finds the other one in flight. -/
def overlap : List Action :=
  [.attempt 0, .body 0 .load, .body 0 (.readSlow 0), .body 0 .readInventory, .start 0, .enter 0,
    .body 0 (.join true), .body 0 .evaluate, .body 0 .finish, .release 0, .trigger 1, .attempt 1,
    .body 1 .load, .body 1 (.readSlow 0), .body 1 .readInventory, .start 1, .enter 1,
    .body 1 (.join false), .body 1 .evaluate]

theorem reach_overlap {q : State → Prop} [DecidablePred q]
    (h : (exec step Always { db := freshServer } overlap).any (fun s => q s) = true) :
    ∃ s, Reach step Init Always s ∧ q s :=
  Reach.exists_of_exec overlap (show Init { db := freshServer } from rfl) h

theorem flights_of_run_overlap :
    ∃ s : State, s.busy = [(1, .poll)] ∧ s.threads.length = 2 ∧
      (∀ t, t ∈ s.busy ↔ ∃ i, Collecting s.threads i t) ∧
      (∀ i j t, Collecting s.threads i t → Collecting s.threads j t → i = j) ∧
      ∀ server, (ofServer s.threads server).length ≤ 3 := by
  obtain ⟨s, hs, hBusy, hThreads⟩ :=
    reach_overlap (q := fun s => s.busy = [(1, .poll)] ∧ s.threads.length = 2) (by decide +kernel)
  exact ⟨s, hBusy, hThreads, flights_of_run hs⟩

/-- At most one cycle is in flight. When it evaluates the rules and no join timed out, all threads
that it had to start were started and are over. -/
theorem evaluation_of_run {s : State} (h : Reach step Init Always s) :
    (∀ j k, Open s.cycles j → Open s.cycles k → j = k) ∧
      ∀ (k : Nat) (c : Cycle), s.cycles[k]? = some c → c.stage = .evaluating → c.late = false →
        ∀ (p : Nat) (task : Task), c.tasks[p]? = some task →
          ∃ i th, c.started[p]? = some i ∧ s.threads[i]? = some th ∧ th.task = task ∧ th.over := by
  refine ⟨fun j k hj hk => ?_, fun k c hk hStage hLate p task hp => ?_⟩
  · have hLocked := locked_of_reach h
    exact Option.some.inj (((hLocked j).mpr hj).symm.trans ((hLocked k).mpr hk))
  · have hc := (orderly_of_reach h).consistent k c hk
    have hLength : c.started.length = c.tasks.length := by
      simpa [Cycle.launched] using hc.launched (.inl hStage)
    have hLt : p < c.started.length := hLength ▸ Slots.lt_of_some hp
    have hi : c.started[p]? = some c.started[p] := List.getElem?_eq_getElem hLt
    obtain ⟨th, hth, hTask⟩ := hc.tasks p _ hi
    obtain ⟨u, hu, hOver⟩ := hc.joined_done hLate p _ (hc.all_joined hStage ▸ hLt) hi
    cases hth.symm.trans hu
    exact ⟨_, th, hi, hth, Option.some.inj (hTask.symm.trans hp), hOver⟩

theorem evaluation_of_run_overlap :
    ∃ s : State, (s.cycles[1]?.any fun c => c.stage = .evaluating ∧ c.late = false) = true ∧
      (∀ j k, Open s.cycles j → Open s.cycles k → j = k) ∧
      ∀ (k : Nat) (c : Cycle), s.cycles[k]? = some c → c.stage = .evaluating → c.late = false →
        ∀ (p : Nat) (task : Task), c.tasks[p]? = some task →
          ∃ i th, c.started[p]? = some i ∧ s.threads[i]? = some th ∧ th.task = task ∧ th.over := by
  obtain ⟨s, hs, hStage⟩ := reach_overlap
    (q := fun s => (s.cycles[1]?.any fun c => c.stage = .evaluating ∧ c.late = false) = true)
    (by decide +kernel)
  exact ⟨s, hStage, evaluation_of_run hs⟩

/-- A refresh that was accepted at `a` and has tried the lock is served by a cycle that began after
`a`. Every thread of that cycle that has come to its `_server_begin` finds a collection of its
server and kind that does not end before `a`, and unless the cycle failed, it has a thread for the
poll of every enabled server it read. -/
theorem refresh_served {s : State} (h : Reach step Init Always s) {r a k : Nat}
    (hr : Settled s r a k) :
    ∃ c, s.cycles[k]? = some c ∧ a < c.begun ∧
      (∀ i ∈ c.started, ∀ th, s.threads[i]? = some th → th.phase ≠ .created →
        ∃ (j : Nat) (v : Thread), s.threads[j]? = some v ∧ v.task = th.task ∧ v.FlewAfter a) ∧
      (c.stage = .evaluating ∨ ((c.stage = .returning ∨ c.stage = .over) ∧ c.raised = false) →
        ∀ server ∈ loadServers c.seen, ∃ i ∈ c.started, ∃ th,
          s.threads[i]? = some th ∧ th.task = (server.id, .poll)) := by
  obtain ⟨c, hk, hLt⟩ := (served_of_reach h).settled r a k hr
  have hc := (orderly_of_reach h).consistent k c hk
  refine ⟨c, hk, hLt, ?_, ?_⟩
  · intro i hMem th hi hWoken
    obtain ⟨j, v, hj, hTask, hBegun, hLeft⟩ := hc.flew i hMem th hi hWoken
    exact ⟨j, v, hj, hTask, hBegun, fun u hu => hLt.trans (hLeft u hu)⟩
  · intro hDone server hServer
    have hLength : c.started.length = c.tasks.length := by
      simpa [Cycle.launched] using hc.launched hDone
    have hTask : (server.id, Tier.poll) ∈ c.tasks := (mem_cycleThreads hServer).mpr rfl
    obtain ⟨p, hp⟩ := List.mem_iff_getElem?.mp hTask
    have hPlace : p < c.started.length := hLength ▸ Slots.lt_of_some hp
    have hi : c.started[p]? = some c.started[p] := List.getElem?_eq_getElem hPlace
    obtain ⟨th, hth, hTh⟩ := hc.tasks p _ hi
    exact ⟨_, List.getElem_mem hPlace, th, hth, Option.some.inj (hTh.symm.trans hp)⟩

theorem refresh_served_overlap :
    ∃ s : State, Settled s 1 10 1 ∧
      ∃ c, s.cycles[1]? = some c ∧ 10 < c.begun ∧
        (∀ i ∈ c.started, ∀ th, s.threads[i]? = some th → th.phase ≠ .created →
          ∃ (j : Nat) (v : Thread), s.threads[j]? = some v ∧ v.task = th.task ∧
            v.FlewAfter 10) ∧
        (c.stage = .evaluating ∨ ((c.stage = .returning ∨ c.stage = .over) ∧ c.raised = false) →
          ∀ server ∈ loadServers c.seen, ∃ i ∈ c.started, ∃ th,
            s.threads[i]? = some th ∧ th.task = (server.id, .poll)) := by
  obtain ⟨s, hs, hRan⟩ := reach_overlap (q := fun s => s.callers 1 = .ran (some 10) 1)
    (by decide +kernel)
  exact ⟨s, .inl hRan, refresh_served hs (.inl hRan)⟩

end GpuMon.Flights

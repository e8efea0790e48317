import GpuMon.IdleState
import GpuMon.Library.Runs
import GpuMon.Library.SerialHistory
import Mathlib.Data.List.Permutation

/-!
# Parallel edits of the idle state

Every poll thread copies the shared document, edits its own keys and writes the whole document
back. The lock covers single reads and writes of the memory reference, so the steps of several
calls interleave freely.

* `finished_serializable`: if every commit still finds the row that its call read, the calls
  have the effect of running one after another, in the order of their commits; a call without
  changes fits in right after the document it read.
* `insertion_lost`: two servers that load before either saves leave the key of one of them out.
-/

namespace GpuMon.IdleState

open SerialHistory

/-- Where a call stands. A session that has read the settings row keeps the row object, so its
later `db.get` does not read again. -/
inductive Phase
  | begin
  | missed
  | read (row : Option Doc)
  | loaded (base : Doc) (cached : Option Doc)
  | fetched (base : Doc) (row : Option Doc)
  | committed (state : Doc)
  | done
  | failed
  deriving DecidableEq

structure Thread where
  call : Call
  phase : Phase := .begin

structure State where
  shared : Shared
  threads : List Thread

/-- `db.commit()` of a row fetched as `row` and set to `state`: a row found missing is inserted,
which fails when there is one by now; an update is sent when the value differs from the one
fetched. -/
def commitRow (row : Option Doc) (state : Doc) (persisted : Option Doc) : Option (Option Doc) :=
  match row with
  | none => if persisted.isNone then some (some state) else none
  | some fetched => some (if fetched = state then persisted else some state)

/-- The next step of a call. -/
def advance (metrics : List ServerMetric) (shared : Shared) (call : Call) :
    Phase → Option (Shared × Phase)
  | .begin => match shared.mem with
    | some d => some (shared, .loaded d none)
    | none => some (shared, .missed)
  | .missed => some (shared, .read shared.persisted)
  | .read row => some ({ shared with mem := some (rowDoc row) }, .loaded (rowDoc row) row)
  | .loaded base cached =>
    if (edit metrics call base).changed then
      some (shared, .fetched base (cached.or shared.persisted))
    else some (shared, .done)
  | .fetched base row =>
    let state := (edit metrics call base).state
    match commitRow row state shared.persisted with
    | some persisted => some ({ shared with persisted }, .committed state)
    | none => some (shared, .failed)
  | .committed state => some ({ shared with mem := some state }, .done)
  | .done => none
  | .failed => none

/-- One step of the `i`-th thread. -/
def step (metrics : List ServerMetric) (s : State) (i : Nat) : Option State :=
  s.threads[i]?.bind fun t => (advance metrics s.shared t.call t.phase).map fun next =>
    { shared := next.1, threads := s.threads.set i { t with phase := next.2 } }

/-- All calls are about to begin, in a process whose memory is empty or up to date. -/
def Start (shared : Shared) (calls : List Call) (s : State) : Prop :=
  s.shared = shared ∧ shared.Consistent ∧ s.threads = calls.map ({ call := · })

/-- A commit finds the row as its call read it: the row fetched, with the document copied. -/
def Undisturbed (s : State) (i : Nat) : Prop :=
  ∀ t ∈ s.threads[i]?, match t.phase with
    | .fetched base row => s.shared.persisted = row ∧ rowDoc row = base
    | _ => True

instance (s : State) (i : Nat) : Decidable (Undisturbed s i) := by
  unfold Undisturbed
  refine @Option.decidableForallMem _ _ (fun t => ?_) _
  split <;> infer_instance

/-! ## The invariant -/

/-- The document a call holds on to. -/
def Phase.doc : Phase → Option Doc
  | .begin => none
  | .missed => none
  | .read row => some (rowDoc row)
  | .loaded base _ => some base
  | .fetched base _ => some base
  | .committed state => some state
  | .done => none
  | .failed => none

/-- The call has had its effect. -/
def Phase.settled : Phase → Bool
  | .committed _ => true
  | .done => true
  | _ => false

/-- Some party holds the document. -/
def Held (s : State) (d : Doc) : Prop :=
  s.shared.mem = some d ∨ ∃ t ∈ s.threads, t.phase.doc = some d

def settledCalls (s : State) : List Call :=
  (s.threads.filter fun t => t.phase.settled).map Thread.call

def applyCall (metrics : List ServerMetric) (call : Call) (d : Doc) : Doc :=
  (edit metrics call d).state

/-- The settled calls, in some order, explain the persisted document. -/
structure Inv (metrics : List ServerMetric) (shared : Shared) (calls : List Call) (s : State) :
    Prop where
  calls_eq : s.threads.map Thread.call = calls
  sound : ∀ t ∈ s.threads, t.phase ≠ .failed
  history : ∃ order, order.Perm (settledCalls s) ∧
    Explains (applyCall metrics) (rowDoc shared.persisted) order (rowDoc s.shared.persisted)
      (Held s)

variable {metrics : List ServerMetric} {shared : Shared} {calls : List Call}

/-- The threads around the one that moves. -/
theorem exists_split {s : State} {i : Nat} {t : Thread} (h : s.threads[i]? = some t) :
    ∃ before after, s.threads = before ++ t :: after ∧
      ∀ t', s.threads.set i t' = before ++ t' :: after := by
  obtain ⟨hLt, rfl⟩ := List.getElem?_eq_some_iff.mp h
  refine ⟨s.threads.take i, s.threads.drop (i + 1), ?_, fun t' => ?_⟩
  · rw [List.cons_getElem_drop_succ, List.take_append_drop]
  · exact List.set_eq_take_append_cons_drop.trans (if_pos hLt)

/-- A move of one thread changes what is held by at most the memory and its own document. -/
theorem held_move {s : State} {before after : List Thread} {t t' : Thread} {shared' : Shared}
    (hThreads : s.threads = before ++ t :: after) {d : Doc}
    (h : Held { shared := shared', threads := before ++ t' :: after } d) :
    Held s d ∨ shared'.mem = some d ∨ t'.phase.doc = some d := by
  rcases h with hMem | ⟨q, hq, hDoc⟩
  · exact .inr (.inl hMem)
  · rcases List.mem_append.mp hq with hBefore | hq
    · exact .inl (.inr ⟨q, by rw [hThreads]; exact List.mem_append_left _ hBefore, hDoc⟩)
    · rcases List.mem_cons.mp hq with rfl | hAfter
      · exact .inr (.inr hDoc)
      · refine .inl (.inr ⟨q, ?_, hDoc⟩)
        rw [hThreads]
        exact List.mem_append_right _ (List.mem_cons_of_mem _ hAfter)

theorem settledCalls_move {before after : List Thread} {t : Thread} {sh : Shared} :
    settledCalls { shared := sh, threads := before ++ t :: after } =
      settledCalls { shared := sh, threads := before } ++
        ((if t.phase.settled then [t.call] else []) ++
          settledCalls { shared := sh, threads := after }) := by
  unfold settledCalls
  rw [List.filter_append, List.map_append, List.filter_cons]
  split <;> simp

/-- A thread that settles adds its call. -/
theorem settledCalls_settle {before after : List Thread} {t t' : Thread} {sh sh' : Shared}
    (hBefore : t.phase.settled = false) (hAfter : t'.phase.settled = true)
    (hCall : t'.call = t.call) :
    (settledCalls { shared := sh', threads := before ++ t' :: after }).Perm
      (t.call :: settledCalls { shared := sh, threads := before ++ t :: after }) := by
  rw [settledCalls_move, settledCalls_move, hBefore, hAfter, hCall]
  exact List.perm_middle

section Moves

variable {s : State} {before after : List Thread} {t : Thread} {shared' : Shared} {phase' : Phase}

/-- The state after the thread has moved to `phase'`. -/
def moved (before after : List Thread) (t : Thread) (shared' : Shared) (phase' : Phase) : State :=
  { shared := shared', threads := before ++ { t with phase := phase' } :: after }

theorem mem_moved {q : Thread} (hThreads : s.threads = before ++ t :: after)
    (hq : q ∈ (moved before after t shared' phase').threads) :
    q ∈ s.threads ∨ q = { t with phase := phase' } := by
  rw [hThreads]
  simp only [moved, List.mem_append, List.mem_cons] at hq ⊢
  tauto

theorem calls_moved (hThreads : s.threads = before ++ t :: after) :
    (moved before after t shared' phase').threads.map Thread.call =
      s.threads.map Thread.call := by
  simp [moved, hThreads]

theorem sound_moved (hThreads : s.threads = before ++ t :: after)
    (hSound : ∀ q ∈ s.threads, q.phase ≠ .failed) (hPhase : phase' ≠ .failed) :
    ∀ q ∈ (moved before after t shared' phase').threads, q.phase ≠ .failed := by
  intro q hq
  rcases mem_moved hThreads hq with hq | rfl
  · exact hSound q hq
  · exact hPhase

/-- A step that settles nothing and leaves the persisted document alone. -/
theorem inv_quiet (hInv : Inv metrics shared calls s) (hThreads : s.threads = before ++ t :: after)
    (hSettled : phase'.settled = t.phase.settled) (hPhase : phase' ≠ .failed)
    (hRow : rowDoc shared'.persisted = rowDoc s.shared.persisted)
    (hHeld : ∀ d, shared'.mem = some d ∨ phase'.doc = some d →
      Held s d ∨ d = rowDoc s.shared.persisted) :
    Inv metrics shared calls (moved before after t shared' phase') := by
  obtain ⟨order, hPerm, hExplains⟩ := hInv.history
  refine ⟨(calls_moved hThreads).trans hInv.calls_eq, sound_moved hThreads hInv.sound hPhase,
    order, ?_, ?_⟩
  · have hOld : settledCalls s =
        settledCalls { shared := s.shared, threads := before ++ t :: after } := by rw [← hThreads]
    rw [hOld, settledCalls_move] at hPerm
    unfold moved
    rw [settledCalls_move, hSettled]
    exact hPerm
  · rw [show rowDoc (moved before after t shared' phase').shared.persisted =
      rowDoc s.shared.persisted from hRow]
    refine hExplains.mono fun d hd => ?_
    rcases held_move hThreads hd with hOld | hNew
    · exact .inl hOld
    · exact hHeld d hNew

/-- The call of a thread that settles is the one call more in the history. -/
theorem perm_settledCalls (hThreads : s.threads = before ++ t :: after)
    (hBefore : t.phase.settled = false)
    (hAfter : phase'.settled = true) {order order' : List Call}
    (hPerm : order.Perm (settledCalls s)) (hNew : order'.Perm (t.call :: order)) :
    order'.Perm (settledCalls (moved before after t shared' phase')) := by
  have hSettle : (settledCalls (moved before after t shared' phase')).Perm
      (t.call :: settledCalls { shared := s.shared, threads := before ++ t :: after }) :=
    settledCalls_settle hBefore hAfter rfl
  rw [← hThreads] at hSettle
  exact (hNew.trans (hPerm.cons _)).trans hSettle.symm

/-- A call that found nothing to change settles after the document it read. -/
theorem inv_idle (hInv : Inv metrics shared calls s) (hThreads : s.threads = before ++ t :: after)
    {base : Doc} {cached : Option Doc} (ht : t.phase = .loaded base cached)
    (hIdle : (edit metrics t.call base).changed = false) :
    Inv metrics shared calls (moved before after t s.shared .done) := by
  obtain ⟨order, hPerm, hExplains⟩ := hInv.history
  have hBase : Held s base := .inr ⟨t, by simp [hThreads], by rw [ht]; rfl⟩
  obtain ⟨order', hInsert, hExplains'⟩ :=
    hExplains.insertIdle (c := t.call) hBase (state_of_unchanged hIdle)
  refine ⟨(calls_moved hThreads).trans hInv.calls_eq, sound_moved hThreads hInv.sound (by simp),
    order', perm_settledCalls hThreads (by rw [ht]; rfl) rfl hPerm hInsert, ?_⟩
  · refine hExplains'.mono fun d hd => ?_
    rcases held_move hThreads hd with hOld | hMem | hDoc
    · exact .inl hOld
    · exact .inl (.inl hMem)
    · cases hDoc

/-- A commit that finds the row its call read comes last. -/
theorem inv_commit (hInv : Inv metrics shared calls s) (hThreads : s.threads = before ++ t :: after)
    {base : Doc} {row persisted' : Option Doc} (ht : t.phase = .fetched base row)
    (hBase : rowDoc s.shared.persisted = base)
    (hRow : rowDoc persisted' = (edit metrics t.call base).state) :
    Inv metrics shared calls
      (moved before after t { s.shared with persisted := persisted' }
        (.committed (edit metrics t.call base).state)) := by
  obtain ⟨order, hPerm, hExplains⟩ := hInv.history
  have hApply : rowDoc persisted' = applyCall metrics t.call (rowDoc s.shared.persisted) := by
    rw [hRow, hBase]
    rfl
  refine ⟨(calls_moved hThreads).trans hInv.calls_eq, sound_moved hThreads hInv.sound (by simp),
    order ++ [t.call],
    perm_settledCalls hThreads (by rw [ht]; rfl) rfl hPerm (List.perm_append_singleton _ _), ?_⟩
  · change Explains _ _ _ (rowDoc persisted') _
    rw [hApply]
    refine hExplains.append t.call fun d hd => ?_
    rcases held_move hThreads hd with hOld | hMem | hDoc
    · exact .inl hOld
    · exact .inl (.inl hMem)
    · exact .inr ((Option.some.inj hDoc).symm.trans (hRow.symm.trans hApply))

end Moves

/-- A commit that finds its own row succeeds and persists the new document. -/
theorem commitRow_current {row : Option Doc} {state : Doc} :
    ∃ persisted, commitRow row state row = some persisted ∧ rowDoc persisted = state := by
  cases row with
  | none => exact ⟨some state, rfl, rfl⟩
  | some fetched =>
    by_cases hSame : fetched = state
    · exact ⟨some fetched, by simp [commitRow, hSame], hSame⟩
    · exact ⟨some state, by simp [commitRow, hSame], rfl⟩

theorem inv_step {s s' : State} {i : Nat} (hInv : Inv metrics shared calls s)
    (hOk : Undisturbed s i) (h : step metrics s i = some s') : Inv metrics shared calls s' := by
  obtain ⟨t, ht, hAdvance⟩ := Option.bind_eq_some_iff.mp h
  obtain ⟨⟨shared', phase'⟩, hNext, rfl⟩ := Option.map_eq_some_iff.mp hAdvance
  obtain ⟨before, after, hThreads, hSet⟩ := exists_split ht
  have hOk := hOk t ht
  have hDoc : ∀ d, t.phase.doc = some d → Held s d := fun d hd =>
    .inr ⟨t, by simp [hThreads], hd⟩
  dsimp only
  rw [hSet]
  change Inv metrics shared calls (moved before after t shared' phase')
  cases hPhase : t.phase with
  | begin =>
    rw [hPhase, advance] at hNext
    split at hNext <;> cases hNext
    · rename_i d hMem
      refine inv_quiet hInv hThreads (by rw [hPhase]; rfl) (by simp) rfl fun e he => ?_
      rcases he with he | he
      · exact .inl (.inl he)
      · cases he
        exact .inl (.inl hMem)
    · refine inv_quiet hInv hThreads (by rw [hPhase]; rfl) (by simp) rfl fun e he => ?_
      rcases he with he | he
      · exact .inl (.inl he)
      · cases he
  | missed =>
    rw [hPhase, advance] at hNext
    cases hNext
    refine inv_quiet hInv hThreads (by rw [hPhase]; rfl) (by simp) rfl fun e he => ?_
    rcases he with he | he
    · exact .inl (.inl he)
    · exact .inr (Option.some.inj he).symm
  | read row =>
    rw [hPhase, advance] at hNext
    cases hNext
    have hRead : Held s (rowDoc row) := hDoc _ (by rw [hPhase]; rfl)
    refine inv_quiet hInv hThreads (by rw [hPhase]; rfl) (by simp) rfl fun e he => ?_
    rcases he with he | he <;> cases he <;> exact .inl hRead
  | loaded base cached =>
    rw [hPhase, advance] at hNext
    split at hNext <;> cases hNext
    · have hBase : Held s base := hDoc _ (by rw [hPhase]; rfl)
      refine inv_quiet hInv hThreads (by rw [hPhase]; rfl) (by simp) rfl fun e he => ?_
      rcases he with he | he
      · exact .inl (.inl he)
      · cases he
        exact .inl hBase
    · rename_i hIdle
      exact inv_idle hInv hThreads hPhase (by simpa using hIdle)
  | fetched base row =>
    rw [hPhase, advance] at hNext
    rw [hPhase] at hOk
    obtain ⟨hCurrent, hBase⟩ := hOk
    obtain ⟨persisted, hCommit, hRow⟩ : ∃ persisted,
        commitRow row (edit metrics t.call base).state row = some persisted ∧
          rowDoc persisted = (edit metrics t.call base).state := commitRow_current
    rw [hCurrent, hCommit] at hNext
    cases hNext
    exact inv_commit hInv hThreads hPhase (hCurrent ▸ hBase) hRow
  | committed state =>
    rw [hPhase, advance] at hNext
    cases hNext
    have hState : Held s state := hDoc _ (by rw [hPhase]; rfl)
    refine inv_quiet hInv hThreads (by rw [hPhase]; rfl) (by simp) rfl fun e he => ?_
    rcases he with he | he <;> cases he
    exact .inl hState
  | done =>
    rw [hPhase, advance] at hNext
    cases hNext
  | failed =>
    rw [hPhase, advance] at hNext
    cases hNext

theorem inv_start {s : State} (h : Start shared calls s) : Inv metrics shared calls s := by
  obtain ⟨rfl, hConsistent, hThreads⟩ := h
  have hBegin : ∀ t ∈ s.threads, t.phase = .begin := by
    rw [hThreads]
    intro t ht
    obtain ⟨call, -, rfl⟩ := List.mem_map.mp ht
    rfl
  have hCalls : s.threads.map Thread.call = calls := by
    rw [hThreads, List.map_map]
    exact List.map_id' calls
  refine ⟨hCalls, fun t ht => by simp [hBegin t ht], [], ?_, rfl, ?_⟩
  · have hNone : s.threads.filter (fun t => t.phase.settled) = [] := by
      rw [List.filter_eq_nil_iff]
      intro t ht
      rw [hBegin t ht]
      decide
    rw [settledCalls, hNone]
    rfl
  · rintro d (hMem | ⟨t, ht, hDoc⟩)
    · exact ⟨[], List.prefix_refl _, (hConsistent d hMem).symm⟩
    · rw [hBegin t ht] at hDoc
      cases hDoc

theorem inv_of_reach {s : State}
    (h : Runs.Reach (step metrics) (Start shared calls) Undisturbed s) :
    Inv metrics shared calls s :=
  h.invariant (fun _ => inv_start) fun _ _ _ => inv_step

/-- Calls that run one after another apply their edits one after another. -/
theorem foldl_updateGpuIdleState (order : List Call) {shared : Shared} (h : shared.Consistent) :
    rowDoc (order.foldl (updateGpuIdleState metrics) shared).persisted =
      run (applyCall metrics) (rowDoc shared.persisted) order := by
  induction order generalizing shared with
  | nil => rfl
  | cons call rest ih =>
    obtain ⟨hConsistent, hRow⟩ :
        (updateGpuIdleState metrics shared call).Consistent ∧ _ := updateGpuIdleState_spec h
    rw [List.foldl_cons, ih hConsistent, hRow, run_cons]
    rfl

/-- All calls have returned. -/
def Finished (s : State) : Prop := ∀ t ∈ s.threads, t.phase = .done ∨ t.phase = .failed

instance (s : State) : Decidable (Finished s) := by
  unfold Finished
  infer_instance

/-- The persisted idle state is the result of running the calls one after another. -/
def Serializable (metrics : List ServerMetric) (shared : Shared) (calls : List Call) (s : State) :
    Prop :=
  ∃ order : List Call, order.Perm calls ∧
    rowDoc s.shared.persisted =
      rowDoc (order.foldl (updateGpuIdleState metrics) shared).persisted

/-- In a run whose commits find the row as their call read it, the calls leave what a serial run
of the same calls leaves. -/
theorem finished_serializable {s : State}
    (h : Runs.Reach (step metrics) (Start shared calls) Undisturbed s) (hDone : Finished s) :
    Serializable metrics shared calls s := by
  have hInv := inv_of_reach h
  have hShared : shared.Consistent :=
    h.invariant (I := fun _ => shared.Consistent) (fun _ hs => hs.2.1) fun _ _ _ hI _ _ => hI
  obtain ⟨order, hPerm, hExplains⟩ := hInv.history
  have hAll : settledCalls s = calls := by
    have hFilter : s.threads.filter (fun t => t.phase.settled) = s.threads := by
      rw [List.filter_eq_self]
      intro t ht
      rw [(hDone t ht).resolve_right (hInv.sound t ht)]
      rfl
    rw [settledCalls, hFilter, hInv.calls_eq]
  refine ⟨order, hAll ▸ hPerm, ?_⟩
  rw [foldl_updateGpuIdleState order hShared]
  exact hExplains.current_eq.symm

/-! Two servers, each with one idle GPU that holds memory, next to a third one on record. -/

def idleCall (serverId : Nat) (uuid : Text) (time : Int) : Call where
  serverId
  collectedAt := seconds time
  gpus := [{ uuid := some uuid, utilization := some 0, memUsedMb := some 20000,
             memTotalMb := some 24576 }]

def idleCalls : List Call := [idleCall 1 "GPU-1a" 1700000000, idleCall 2 "GPU-2b" 1700000001]

def recordedShared : Shared where
  persisted := some (Dict.ofList [(("3:GPU-3c" : Text), seconds 1699990000)])

def idleStart : State := { shared := recordedShared, threads := idleCalls.map ({ call := · }) }

theorem start_idleStart : Start recordedShared idleCalls idleStart := by
  refine ⟨rfl, ?_, rfl⟩
  intro d hd
  cases hd

/-- The second call reads the row after the first has committed it, and saves last. -/
def orderlyRun : List Nat := [0, 1, 0, 0, 0, 0, 1, 1, 1, 0, 1, 1]

theorem finished_serializable_orderly :
    ∃ s : State, s.threads.map Thread.phase = [.done, .done] ∧
      Serializable [] recordedShared idleCalls s := by
  obtain ⟨s, hReach, hDone, hFinished⟩ :
      ∃ s, Runs.Reach (step []) (Start recordedShared idleCalls) Undisturbed s ∧
        s.threads.map Thread.phase = [.done, .done] ∧ Finished s :=
    Runs.Reach.exists_of_exec orderlyRun start_idleStart (by decide +kernel)
  exact ⟨s, hDone, finished_serializable hReach hFinished⟩

/-- Both calls load before either saves. -/
def racingRun : List Nat := [0, 0, 0, 1, 0, 1, 0, 0, 1, 1]

/-- The insertion of the first server is lost, in whatever order the calls are said to run. -/
theorem insertion_lost :
    ∃ s, Runs.Reach (step []) (Start recordedShared idleCalls) Runs.Always s ∧ Finished s ∧
      ¬ Serializable [] recordedShared idleCalls s := by
  obtain ⟨s, hReach, hFinished, hLost⟩ :
      ∃ s, Runs.Reach (step []) (Start recordedShared idleCalls) Runs.Always s ∧ Finished s ∧
        (rowDoc s.shared.persisted).contains ("1:GPU-1a" : Text) = false :=
    Runs.Reach.exists_of_exec racingRun start_idleStart (by decide +kernel)
  refine ⟨s, hReach, hFinished, ?_⟩
  rintro ⟨order, hPerm, hSerial⟩
  rw [hSerial] at hLost
  rcases List.perm_pair.mp hPerm with rfl | rfl
  · exact absurd hLost (by decide +kernel)
  · exact absurd hLost (by decide +kernel)

end GpuMon.IdleState

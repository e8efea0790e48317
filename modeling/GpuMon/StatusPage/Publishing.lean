import GpuMon.Cache.SingleFlight
import GpuMon.StatusPage.Payload

/-!
# Saving a configuration while visitors read (`put_config`, `status_public`)

A visitor's request loads the configuration and, if the page is published, asks the cache for the
page; the page is built from the configuration loaded before. An administrator's request commits
the new configuration, drops the cached pages and returns. The steps of any number of requests of
both kinds come in any order, with everything the cache may do.

* `Inv`: a cached page is of no older configuration than the newest one whose request has dropped
  the pages.
* `no_stale_page`: when no leader stores a page that it built from a configuration older than one
  whose request has dropped the pages since, a visitor who came after a request had returned never
  gets a page of an older configuration.
* `stale_page_returned`: a leader that loaded the old configuration stores its page after the
  pages were dropped, and the next visitor gets it.

A configuration is known by its version, the number of configurations committed before it.
-/

namespace GpuMon.Publishing

open Cache Runs SingleFlight StatusPage PyText

/-- The key of the page. -/
def pageKey : Text := "status:public"

/-- The prefix that `put_config` drops. -/
def pagePrefix : Text := "status:"

/-- A payload with the version of the configuration it was built from. -/
structure Page where
  version : Nat
  payload : Payload
  deriving DecidableEq

/-- A request of a visitor. `floor` is the newest version whose request had returned when this
one came. -/
inductive Visit
  | new
  | started (floor : Nat)
  | loaded (floor version : Nat) (cfg : StatusPageConfig)
  | unpublished (floor version : Nat)
  deriving DecidableEq

/-- A request of an administrator. -/
inductive Put
  | new
  | committed (version : Nat)
  | invalidated (version : Nat)
  | returned (version : Nat)
  deriving DecidableEq

/-- The settings row, the configuration of every version, and the newest version that is
committed, whose request has dropped the pages, and whose request has returned. -/
structure State where
  stored : Option StoredConfig
  configs : Nat → StatusPageConfig
  version : Nat := 0
  invalidated : Nat := 0
  finished : Nat := 0
  flight : SingleFlight.State Page
  visits : Nat → Visit := fun _ => .new
  puts : Nat → Put := fun _ => .new

inductive Action
  | start (i : Nat)
  | load (i : Nat)
  | lookup (i : Nat) (now : ℚ)
  | build (i : Nat) (result : Option (Int × Store))
  | cache (a : SingleFlight.Action Page)
  | commit (j : Nat) (body : StatusPageConfig)
  | invalidate (j : Nat) (now : ℚ)
  | finish (j : Nat)

/-- The steps of `cached` after the lookup that do not call the builder of the page, and the use
of the backend by others. -/
def internal : SingleFlight.Action Page → Bool
  | .lookup _ _ => false
  | .run _ _ => false
  | _ => true

def State.visit (s : State) (i : Nat) (v : Visit) : State :=
  { s with visits := Function.update s.visits i v }

def State.put (s : State) (j : Nat) (p : Put) : State :=
  { s with puts := Function.update s.puts j p }

/-- A step in the cache, `cached("status:public", 30.0, …)`. -/
def State.fly (s : State) (a : SingleFlight.Action Page) : Option State :=
  (SingleFlight.step pageKey 30 s.flight a).map fun flight => { s with flight }

/-- One step of a request, or of the cache. A `build` without a result is an exception. -/
def step (pollIntervalSeconds : Int) (s : State) : Action → Option State
  | .start i =>
    match s.visits i with
    | .new => some (s.visit i (.started s.finished))
    | _ => none
  | .load i =>
    match s.visits i with
    | .started floor =>
      let cfg := loadConfig s.stored
      some (s.visit i
        (if cfg.published then .loaded floor s.version cfg else .unpublished floor s.version))
    | _ => none
  | .lookup i now =>
    match s.visits i with
    | .loaded _ _ _ => s.fly (.lookup i now)
    | _ => none
  | .build i result =>
    match s.visits i with
    | .loaded _ version cfg => s.fly (.run i (result.map fun r =>
        some ⟨version, buildPublicPayload pollIntervalSeconds r.1 r.2 cfg⟩))
    | _ => none
  | .cache a => if internal a = true then s.fly a else none
  | .commit j body =>
    match s.puts j with
    | .new => some { s.put j (.committed (s.version + 1)) with
        stored := some (saveConfig body)
        configs := Function.update s.configs (s.version + 1) body
        version := s.version + 1 }
    | _ => none
  | .invalidate j now =>
    match s.puts j with
    | .committed version =>
      (s.fly (.other now (.invalidatePrefix pagePrefix))).map fun s' =>
        { s'.put j (.invalidated version) with invalidated := max s.invalidated version }
    | _ => none
  | .finish j =>
    match s.puts j with
    | .invalidated version => some
        { s.put j (.returned version) with finished := max s.finished version }
    | _ => none

/-- A leader stores its page only if no request of a newer configuration than the one it loaded
has dropped the pages. -/
def fresh (s : State) : Action → Bool
  | .cache (.store i _) =>
    match s.visits i with
    | .loaded _ version _ => s.invalidated ≤ version
    | _ => true
  | _ => true

def Fresh (s : State) (a : Action) : Prop := fresh s a = true

instance (s : State) (a : Action) : Decidable (Fresh s a) := by
  unfold Fresh
  infer_instance

/-- No request has come, and no page is cached. -/
def Start (s : State) : Prop :=
  s.configs 0 = loadConfig s.stored ∧ s.version = 0 ∧ s.invalidated = 0 ∧ s.finished = 0 ∧
    SingleFlight.Start pageKey s.flight ∧ (∀ i, s.visits i = .new) ∧ ∀ j, s.puts j = .new

/-! ## The invariant -/

section Invariant

variable (pollIntervalSeconds : Int)

/-- The page was built from the configuration of its version. -/
def Built (s : State) (page : Page) : Prop :=
  page.version ≤ s.version ∧ ∃ now db, page.payload =
    buildPublicPayload pollIntervalSeconds now db (s.configs page.version)

/-- What a visit may compute itself. -/
def OwnPage (s : State) (i : Nat) (page : Page) : Prop :=
  ∃ floor cfg, s.visits i = .loaded floor page.version cfg ∧ Built pollIntervalSeconds s page

/-- What a visit may get. -/
def GotPage (s : State) (i : Nat) (page : Page) : Prop :=
  ∃ floor version cfg, s.visits i = .loaded floor version cfg ∧ floor ≤ page.version ∧
    Built pollIntervalSeconds s page

/-- What may be cached. -/
def KeptPage (s : State) (page : Page) : Prop :=
  s.invalidated ≤ page.version ∧ Built pollIntervalSeconds s page

end Invariant

def VisitOk (s : State) : Visit → Prop
  | .new => True
  | .started floor => floor ≤ s.finished
  | .loaded floor version cfg =>
    floor ≤ s.finished ∧ floor ≤ version ∧ version ≤ s.version ∧ cfg = s.configs version
  | .unpublished floor version => floor ≤ version

def PutOk (s : State) : Put → Prop
  | .new => True
  | .committed version => version ≤ s.version
  | .invalidated version => version ≤ s.invalidated
  | .returned version => version ≤ s.finished

structure Inv (pollIntervalSeconds : Int) (s : State) : Prop where
  current : s.configs s.version = loadConfig s.stored
  invalidated_le : s.invalidated ≤ s.version
  finished_le : s.finished ≤ s.invalidated
  visits : ∀ i, VisitOk s (s.visits i)
  puts : ∀ j, PutOk s (s.puts j)
  came : ∀ i, s.flight.phase i ≠ .idle →
    ∃ floor version cfg, s.visits i = .loaded floor version cfg
  marked : Marked pageKey (OwnPage pollIntervalSeconds s) (GotPage pollIntervalSeconds s)
    (KeptPage pollIntervalSeconds s) s.flight

section Steps

variable {pollIntervalSeconds : Int} {s s' : State}

theorem Inv.visitOk (hInv : Inv pollIntervalSeconds s) {i : Nat} {v : Visit}
    (h : s.visits i = v) : VisitOk s v := h ▸ hInv.visits i

theorem Inv.putOk (hInv : Inv pollIntervalSeconds s) {j : Nat} {p : Put} (h : s.puts j = p) :
    PutOk s p := h ▸ hInv.puts j

theorem VisitOk.mono {v : Visit} (h : VisitOk s v) (hFinished : s.finished ≤ s'.finished)
    (hVersion : s.version ≤ s'.version)
    (hConfigs : ∀ version ≤ s.version, s'.configs version = s.configs version) : VisitOk s' v := by
  cases v with
  | new => trivial
  | started floor => exact le_trans h hFinished
  | loaded floor version cfg =>
    obtain ⟨hFloor, hLe, hOld, hConfig⟩ := h
    exact ⟨hFloor.trans hFinished, hLe, hOld.trans hVersion,
      hConfig.trans (hConfigs _ hOld).symm⟩
  | unpublished floor version => exact h

theorem PutOk.mono {p : Put} (h : PutOk s p) (hVersion : s.version ≤ s'.version)
    (hInvalidated : s.invalidated ≤ s'.invalidated) (hFinished : s.finished ≤ s'.finished) :
    PutOk s' p := by
  cases p with
  | new => trivial
  | committed version => exact le_trans h hVersion
  | invalidated version => exact le_trans h hInvalidated
  | returned version => exact le_trans h hFinished

/-- Of the administrators' requests one goes on. -/
theorem putOk_update {j : Nat} {p : Put} (hOk : PutOk s' p) (hOthers : ∀ k, PutOk s' (s.puts k))
    (k : Nat) : PutOk s' (Function.update s.puts j p k) := by
  by_cases hSame : k = j
  · rw [hSame, Function.update_self]
    exact hOk
  · rw [Function.update_of_ne hSame]
    exact hOthers k

/-- A visit gets what it computed. -/
theorem Inv.got_of_own (hInv : Inv pollIntervalSeconds s) {i : Nat} {page : Page}
    (h : OwnPage pollIntervalSeconds s i page) : GotPage pollIntervalSeconds s i page := by
  obtain ⟨floor, cfg, hVisit, hBuilt⟩ := h
  obtain ⟨-, hFloor, -⟩ := hInv.visitOk hVisit
  exact ⟨floor, _, cfg, hVisit, hFloor, hBuilt⟩

/-- A visit gets what it finds in the cache. -/
theorem Inv.got_of_kept (hInv : Inv pollIntervalSeconds s) {i : Nat} {page : Page}
    (hLoaded : ∃ floor version cfg, s.visits i = .loaded floor version cfg)
    (h : KeptPage pollIntervalSeconds s page) : GotPage pollIntervalSeconds s i page := by
  obtain ⟨floor, version, cfg, hVisit⟩ := hLoaded
  obtain ⟨hFloor, -⟩ := hInv.visitOk hVisit
  have hFinished := hInv.finished_le
  have hKept := h.1
  exact ⟨floor, version, cfg, hVisit, by omega, h.2⟩

/-- A step in the cache. -/
theorem inv_fly {a : SingleFlight.Action Page} (hInv : Inv pollIntervalSeconds s)
    (hLook : ∀ i now, a = .lookup i now →
      ∃ floor version cfg, s.visits i = .loaded floor version cfg)
    (hRun : ∀ i page, a = .run i (some (some page)) → OwnPage pollIntervalSeconds s i page)
    (hStore : ∀ i now floor version cfg, a = .store i now →
      s.visits i = .loaded floor version cfg → s.invalidated ≤ version)
    (hStep : s.fly a = some s') : Inv pollIntervalSeconds s' := by
  obtain ⟨flight, hFlight, rfl⟩ := Option.map_eq_some_iff.mp hStep
  refine ⟨hInv.current, hInv.invalidated_le, hInv.finished_le, hInv.visits, hInv.puts, ?_, ?_⟩
  · intro i hCame
    rcases came_of_step hCame hFlight with hBefore | ⟨now, hFirst⟩
    · exact hInv.came i hBefore
    · exact hLook i now hFirst
  · refine marked_step hInv.marked (fun i page => hInv.got_of_own) (fun i now page hLooks => ?_) hRun
      (fun i now page hStores hOwn => ?_) hFlight
    · refine hInv.got_of_kept ?_
      rcases hLooks with hFirst | rfl
      · exact hLook i now hFirst
      · refine hInv.came i ?_
        rw [woken_of_recheck hFlight]
        simp
    · obtain ⟨floor, cfg, hVisit, hBuilt⟩ := hOwn
      exact ⟨hStore i now floor _ cfg hStores hVisit, hBuilt⟩

/-- A visit that has not come to the cache goes on. -/
theorem inv_visit (hInv : Inv pollIntervalSeconds s) {i : Nat} {v : Visit}
    (hOld : ∀ floor version cfg, s.visits i ≠ .loaded floor version cfg) (hOk : VisitOk s v) :
    Inv pollIntervalSeconds (s.visit i v) := by
  have hOther : ∀ j, s.flight.phase j ≠ .idle → (s.visit i v).visits j = s.visits j := by
    intro j hCame
    obtain ⟨floor, version, cfg, hVisit⟩ := hInv.came j hCame
    refine Function.update_of_ne ?_ _ _
    rintro rfl
    exact hOld floor version cfg hVisit
  refine ⟨hInv.current, hInv.invalidated_le, hInv.finished_le, fun j => ?_, hInv.puts,
    fun j hCame => ?_, hInv.marked.mono (fun j hCame page => ?_) (fun j hCame page => ?_)
      fun _ h => h⟩
  · change VisitOk s (Function.update s.visits i v j)
    by_cases hSame : j = i
    · rw [hSame, Function.update_self]
      exact hOk
    · rw [Function.update_of_ne hSame]
      exact hInv.visits j
  · rw [hOther j hCame]
    exact hInv.came j hCame
  · rintro ⟨floor, cfg, hVisit, hBuilt⟩
    exact ⟨floor, cfg, (hOther j hCame).trans hVisit, hBuilt⟩
  · rintro ⟨floor, version, cfg, hVisit, hFloor, hBuilt⟩
    exact ⟨floor, version, cfg, (hOther j hCame).trans hVisit, hFloor, hBuilt⟩

/-- Older configurations stay what they were. -/
theorem inv_commit (hInv : Inv pollIntervalSeconds s) (j : Nat) (body : StatusPageConfig) :
    Inv pollIntervalSeconds { s.put j (.committed (s.version + 1)) with
      stored := some (saveConfig body)
      configs := Function.update s.configs (s.version + 1) body
      version := s.version + 1 } := by
  have hOld : ∀ version ≤ s.version,
      Function.update s.configs (s.version + 1) body version = s.configs version := by
    intro version hVersion
    exact Function.update_of_ne (by omega) _ _
  have hBuilt : ∀ page, Built pollIntervalSeconds s page →
      page.version ≤ s.version + 1 ∧ ∃ now db, page.payload = buildPublicPayload
        pollIntervalSeconds now db (Function.update s.configs (s.version + 1) body page.version) := by
    rintro page ⟨hVersion, hPayload⟩
    rw [hOld _ hVersion]
    exact ⟨by omega, hPayload⟩
  refine ⟨Function.update_self _ _ _, Nat.le_succ_of_le hInv.invalidated_le, hInv.finished_le,
    fun i => (hInv.visits i).mono le_rfl (Nat.le_succ _) hOld,
    putOk_update le_rfl fun k => (hInv.puts k).mono (Nat.le_succ _) le_rfl le_rfl, hInv.came,
    hInv.marked.mono (fun i _ page => ?_) (fun i _ page => ?_) fun page => ?_⟩
  · rintro ⟨floor, cfg, hVisit, hPage⟩
    exact ⟨floor, cfg, hVisit, hBuilt page hPage⟩
  · rintro ⟨floor, version, cfg, hVisit, hFloor, hPage⟩
    exact ⟨floor, version, cfg, hVisit, hFloor, hBuilt page hPage⟩
  · rintro ⟨hKept, hPage⟩
    exact ⟨hKept, hBuilt page hPage⟩

/-- The pages are gone after their prefix was dropped. -/
theorem entry_of_invalidatePrefix {flight : SingleFlight.State Page} {now : ℚ}
    (hStep : SingleFlight.step pageKey 30 s.flight (.other now (.invalidatePrefix pagePrefix)) =
      some flight) : flight.backend.entry pageKey = none := by
  cases step_effect hStep with
  | others hSpares =>
    change (s.flight.backend.invalidatePrefix pagePrefix).data.get? pageKey = none
    rw [InMemoryBackend.invalidatePrefix, Dict.get?_filterKeys]
    rfl

theorem inv_invalidate (hInv : Inv pollIntervalSeconds s) {j version : Nat} {now : ℚ}
    (hPut : s.puts j = .committed version)
    (hStep : s.fly (.other now (.invalidatePrefix pagePrefix)) = some s') :
    Inv pollIntervalSeconds
      { s'.put j (.invalidated version) with invalidated := max s.invalidated version } := by
  have hNext : Inv pollIntervalSeconds s' :=
    inv_fly hInv (fun _ _ h => by cases h) (fun _ _ h => by cases h) (fun _ _ _ _ _ h => by cases h)
      hStep
  obtain ⟨flight, hFlight, rfl⟩ := Option.map_eq_some_iff.mp hStep
  have hGone := entry_of_invalidatePrefix hFlight
  have hCommitted : version ≤ s.version := hInv.putOk hPut
  refine ⟨hNext.current, max_le hNext.invalidated_le hCommitted,
    hNext.finished_le.trans (le_max_left _ _), hNext.visits,
    putOk_update (le_max_right _ _) fun k => (hNext.puts k).mono le_rfl (le_max_left _ _) le_rfl,
    hNext.came, hNext.marked.phases, fun expires page hEntry => ?_⟩
  rw [show flight.backend.entry pageKey = some (expires, some page) from hEntry] at hGone
  cases hGone

theorem inv_finish (hInv : Inv pollIntervalSeconds s) {j version : Nat}
    (hPut : s.puts j = .invalidated version) :
    Inv pollIntervalSeconds
      { s.put j (.returned version) with finished := max s.finished version } := by
  have hInvalidated : version ≤ s.invalidated := hInv.putOk hPut
  exact ⟨hInv.current, hInv.invalidated_le, max_le hInv.finished_le hInvalidated,
    fun i => (hInv.visits i).mono (le_max_left _ _) le_rfl fun _ _ => rfl,
    putOk_update (le_max_right _ _) fun k => (hInv.puts k).mono le_rfl le_rfl (le_max_left _ _),
    hInv.came, hInv.marked⟩

/-! ## Every run -/

theorem inv_step {a : Action} (hInv : Inv pollIntervalSeconds s) (hFresh : Fresh s a)
    (hStep : step pollIntervalSeconds s a = some s') : Inv pollIntervalSeconds s' := by
  cases a with
  | start i =>
    dsimp only [step] at hStep
    split at hStep <;> cases hStep
    rename_i hVisit
    exact inv_visit hInv (fun _ _ _ h => by rw [hVisit] at h; cases h) le_rfl
  | load i =>
    dsimp only [step] at hStep
    split at hStep <;> cases hStep
    rename_i floor hVisit
    refine inv_visit hInv (fun _ _ _ h => by rw [hVisit] at h; cases h) ?_
    have hFloor : floor ≤ s.finished := hInv.visitOk hVisit
    have hNewer : floor ≤ s.version := hFloor.trans (hInv.finished_le.trans hInv.invalidated_le)
    split
    · exact ⟨hFloor, hNewer, le_rfl, hInv.current.symm⟩
    · exact hNewer
  | lookup i now =>
    dsimp only [step] at hStep
    split at hStep
    · rename_i floor version cfg hVisit
      refine inv_fly hInv (fun j _ h => ?_) (fun _ _ h => by cases h)
        (fun _ _ _ _ _ h => by cases h) hStep
      cases h
      exact ⟨floor, version, cfg, hVisit⟩
    · cases hStep
  | build i result =>
    dsimp only [step] at hStep
    split at hStep
    · rename_i floor version cfg hVisit
      refine inv_fly hInv (fun _ _ h => by cases h) (fun j page h => ?_)
        (fun _ _ _ _ _ h => by cases h) hStep
      obtain ⟨-, -, hVersion, hConfig⟩ := hInv.visitOk hVisit
      cases result with
      | none => cases h
      | some r =>
        cases h
        exact ⟨floor, cfg, hVisit, hVersion, r.1, r.2, by rw [← hConfig]⟩
    · cases hStep
  | cache a =>
    obtain ⟨hInternal, hFly⟩ := Option.ite_none_right_eq_some.mp hStep
    refine inv_fly hInv (fun _ _ h => ?_) (fun _ _ h => ?_)
      (fun i now floor version cfg h hVisit => ?_) hFly
    · subst h
      cases hInternal
    · subst h
      cases hInternal
    · subst h
      rw [Fresh, fresh, hVisit] at hFresh
      exact of_decide_eq_true hFresh
  | commit j body =>
    dsimp only [step] at hStep
    split at hStep <;> cases hStep
    exact inv_commit hInv j body
  | invalidate j now =>
    dsimp only [step] at hStep
    split at hStep
    · rename_i version hPut
      obtain ⟨t, hFly, rfl⟩ := Option.map_eq_some_iff.mp hStep
      exact inv_invalidate hInv hPut hFly
    · cases hStep
  | finish j =>
    dsimp only [step] at hStep
    split at hStep <;> cases hStep
    rename_i version hPut
    exact inv_finish hInv hPut

theorem inv_of_reach (h : Reach (step pollIntervalSeconds) Start Fresh s) :
    Inv pollIntervalSeconds s := by
  refine h.invariant (fun s hStart => ?_) fun _ _ _ hInv hFresh hStep => inv_step hInv hFresh hStep
  obtain ⟨hConfig, hVersion, hInvalidated, hFinished, hFlight, hVisits, hPuts⟩ := hStart
  obtain ⟨hEntry, -, -, hPhase, -⟩ := hFlight
  refine ⟨hVersion ▸ hConfig, by omega, by omega, fun i => ?_, fun j => ?_, fun i hCame => ?_,
    ⟨fun i => ?_, fun expires page hStored => ?_⟩⟩
  · rw [hVisits]
    trivial
  · rw [hPuts]
    trivial
  · exact absurd (hPhase i) hCame
  · rw [hPhase]
    trivial
  · rw [hEntry] at hStored
    cases hStored

/-- Saving takes effect for those who come after it, when no leader is late. -/
theorem no_stale_page (h : Reach (step pollIntervalSeconds) Start Fresh s) :
    (∀ i page, s.flight.phase i = .returned (some page) → ∃ floor version cfg,
      s.visits i = .loaded floor version cfg ∧ floor ≤ page.version ∧
        Built pollIntervalSeconds s page) ∧
    ∀ i floor version, s.visits i = .unpublished floor version → floor ≤ version := by
  have hInv := inv_of_reach h
  refine ⟨fun i page hReturned => ?_, fun i floor version hVisit => hInv.visitOk hVisit⟩
  have hMark := hInv.marked.phases i
  rw [hReturned] at hMark
  exact hMark page rfl

end Steps

section Example

/-- A published page that shows the GPUs. -/
def shown : StatusPageConfig := { title := "GPU", published := true }

/-- The GPUs are taken from the page. -/
def hidden : StatusPageConfig := { shown with showGpu := false }

def emptyStore : Store where
  servers := .empty
  metrics := []
  hourly := []

def opened : State where
  stored := some (saveConfig shown)
  configs := fun _ => shown
  flight := { clock := 0, backend := {} }

theorem start_opened : Start opened :=
  ⟨rfl, rfl, rfl, rfl, ⟨rfl, rfl, fun _ => rfl, fun _ => rfl, rfl⟩, fun _ => rfl, fun _ => rfl⟩

def pageOf (version : Nat) (cfg : StatusPageConfig) : Page :=
  ⟨version, buildPublicPayload 5 0 emptyStore cfg⟩

/-- The page is stored before the new configuration is saved; the next visitor builds anew. -/
def orderly : List Action :=
  [.start 0, .load 0, .lookup 0 1, .cache (.register 0), .build 0 (some (0, emptyStore)),
    .cache (.store 0 2), .cache (.unregister 0), .cache (.signal 0), .commit 0 hidden,
    .invalidate 0 3, .finish 0, .start 1, .load 1, .lookup 1 4, .cache (.register 1),
    .build 1 (some (0, emptyStore)), .cache (.store 1 5), .cache (.unregister 1),
    .cache (.signal 1)]

theorem no_stale_page_orderly : ∃ s, Reach (step 5) Start Fresh s ∧
    s.flight.phase 1 = .returned (some (pageOf 1 hidden)) ∧ ∃ floor version cfg,
      s.visits 1 = .loaded floor version cfg ∧ floor ≤ 1 := by
  have hRun : ∃ s, Reach (step 5) Start Fresh s ∧
      s.flight.phase 1 = .returned (some (pageOf 1 hidden)) :=
    Reach.exists_of_exec orderly start_opened (by decide +kernel)
  obtain ⟨s, hReach, hReturned⟩ := hRun
  obtain ⟨floor, version, cfg, hVisit, hFloor, -⟩ :=
    (no_stale_page hReach).1 1 _ hReturned
  exact ⟨s, hReach, hReturned, floor, version, cfg, hVisit, hFloor⟩

/-- The new configuration is saved while the page is built. -/
def overtaken : List Action :=
  [.start 0, .load 0, .lookup 0 1, .cache (.register 0), .build 0 (some (0, emptyStore)),
    .commit 0 hidden, .invalidate 0 2, .finish 0, .cache (.store 0 3), .start 1, .load 1,
    .lookup 1 4]

theorem stale_page_returned : ∃ s, Reach (step 5) Start Always s ∧
    s.visits 1 = .loaded 1 1 hidden ∧
      s.flight.phase 1 = .returned (some (pageOf 0 shown)) :=
  Reach.exists_of_exec overtaken start_opened (by decide +kernel)

end Example

end GpuMon.Publishing

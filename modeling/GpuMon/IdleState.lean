import GpuMon.Library.Dict
import GpuMon.Models

/-!
# The idle state (`scheduler.update_gpu_idle_state`)

One document, kept in a settings row and in memory, maps `"<server id>:<gpu uuid>"` to the
time since when that GPU has been held idle. Every poll edits the keys of its own server.

`edit` is what one call does to the document it has copied: it adds the idle GPUs that are
missing, with a start looked up in the history, and deletes the other keys of the server. The
ISO texts of the document are instants here.
-/

namespace GpuMon.IdleState

/-- The persisted dictionary. -/
abbrev Doc := Dict Text Int

/-- `_gpu_is_idle_held`. -/
def gpuIsIdleHeld (g : Gpu ℚ) : Bool :=
  let total := g.memTotalMb.getD 0
  g.utilization.getD 0 < 5 && total ≠ 0 && 30 ≤ g.memUsedMb.getD 0 / total * 100

/-! ## The start of an idle run -/

/-- `next((x for x in gpus if x.get("uuid") == uuid), None)`. -/
def findGpu (gpus : List (Gpu ℚ)) (uuid : Text) : Option (Gpu ℚ) :=
  gpus.find? fun g => g.uuid = some uuid

/-- The filter of the history query. -/
def isOlder (serverId : Nat) (cursor : Int) (m : ServerMetric) : Bool :=
  m.serverId = serverId && m.collectedAt < cursor && m.status = .ok

/-- The ok samples of a server before `cursor`, newest first. -/
def olderSamples (metrics : List ServerMetric) (serverId : Nat) (cursor : Int) :
    List ServerMetric :=
  (metrics.filter (isOlder serverId cursor)).insertionSort
    fun a b => b.collectedAt ≤ a.collectedAt

/-- Walks a page until the first sample in which the GPU is not held idle: the start found so
far, and whether such a sample ended the walk. -/
def scanPage (uuid : Text) : List ServerMetric → Option Int → Option Int × Bool
  | [], start => (start, false)
  | m :: rest, start =>
    if (findGpu m.gpus uuid).any gpuIsIdleHeld then scanPage uuid rest (some m.collectedAt)
    else (start, true)

/-- The loop of `_backfill_idle_start`, over pages of 2000 rows. -/
def backfillFrom (metrics : List ServerMetric) (serverId : Nat) (uuid : Text) :
    Nat → Int → Option Int → Option Int
  | 0, _, start => start
  | fuel + 1, cursor, start =>
    let rows := (olderSamples metrics serverId cursor).take 2000
    match rows.getLast? with
    | none => start
    | some last =>
      let (start', ended) := scanPage uuid rows start
      if ended || rows.length < 2000 then start'
      else backfillFrom metrics serverId uuid fuel last.collectedAt start'

/-- `_backfill_idle_start`. Every full page uses up samples, so the fuel is never spent
(`backfillIdleStart_eq`). -/
def backfillIdleStart (metrics : List ServerMetric) (serverId : Nat) (uuid : Text)
    (before : Int) : Option Int :=
  backfillFrom metrics serverId uuid (metrics.length + 1) before none

/-- The number of samples left before an instant. -/
def olderCount (metrics : List ServerMetric) (serverId : Nat) (cursor : Int) : Nat :=
  (metrics.filter (isOlder serverId cursor)).length

theorem olderCount_lt {metrics : List ServerMetric} {serverId : Nat} {cursor : Int}
    {m : ServerMetric} (hm : m ∈ olderSamples metrics serverId cursor) :
    olderCount metrics serverId m.collectedAt < olderCount metrics serverId cursor := by
  have hMem : m ∈ metrics.filter (isOlder serverId cursor) := (List.mem_insertionSort _).mp hm
  have hBefore : m.collectedAt < cursor := by
    have hOlder := List.of_mem_filter hMem
    simp only [isOlder, Bool.and_eq_true, decide_eq_true_eq] at hOlder
    exact hOlder.1.2
  have hAgain : metrics.filter (isOlder serverId m.collectedAt) =
      (metrics.filter (isOlder serverId cursor)).filter fun r =>
        r.collectedAt < m.collectedAt := by
    rw [List.filter_filter]
    refine List.filter_congr fun r _ => ?_
    by_cases hr : r.collectedAt < m.collectedAt
    · simp [isOlder, hr, hr.trans hBefore]
    · simp [isOlder, hr]
  rw [olderCount, hAgain, olderCount, List.length_filter_lt_length_iff_exists]
  exact ⟨m, hMem, by simp⟩

/-- More fuel than there are samples left changes nothing. -/
theorem backfillFrom_fuel {metrics : List ServerMetric} {serverId : Nat} {uuid : Text}
    {fuel : Nat} {cursor : Int} {start : Option Int}
    (h : olderCount metrics serverId cursor < fuel) :
    backfillFrom metrics serverId uuid (fuel + 1) cursor start =
      backfillFrom metrics serverId uuid fuel cursor start := by
  induction fuel generalizing cursor start with
  | zero => omega
  | succ fuel ih =>
    rw [backfillFrom, backfillFrom]
    dsimp only
    split
    · rfl
    · rename_i last hLast
      split
      · rfl
      · have hMem := List.mem_of_mem_take (List.mem_of_getLast? hLast)
        exact ih (by have := olderCount_lt hMem; omega)

theorem backfillIdleStart_eq {metrics : List ServerMetric} {serverId : Nat} {uuid : Text}
    {before : Int} {fuel : Nat} (h : metrics.length < fuel) :
    backfillFrom metrics serverId uuid fuel before none =
      backfillIdleStart metrics serverId uuid before := by
  have hLe : olderCount metrics serverId before ≤ metrics.length := List.length_filter_le _ _
  induction fuel, h using Nat.le_induction with
  | base => rfl
  | succ fuel hFuel ih => rw [backfillFrom_fuel (by omega), ih]

/-! ## One call -/

/-- A call: the server, the time of its sample and the GPUs of the sample. -/
structure Call where
  serverId : Nat
  collectedAt : Int
  gpus : List (Gpu ℚ)

/-- The working copy of a call. -/
structure Edit where
  state : Doc
  changed : Bool := false
  seen : List Text := []

/-- `f"{server_id}:"`. -/
def keyPrefix (serverId : Nat) : Text := PyText.natText serverId ++ [':']

/-- The body of the loop over the GPUs of the sample. -/
def editGpu (metrics : List ServerMetric) (call : Call) (e : Edit) (g : Gpu ℚ) : Edit :=
  match g.uuid with
  | none => e
  | some [] => e
  | some u =>
    let key := keyPrefix call.serverId ++ u
    let e := { e with seen := key :: e.seen }
    if gpuIsIdleHeld g then
      if e.state.contains key then e
      else
        let start := (backfillIdleStart metrics call.serverId u call.collectedAt).getD
          call.collectedAt
        { e with state := e.state.set key start, changed := true }
    else if e.state.contains key then
      { e with state := e.state.erase key, changed := true }
    else e

/-- The deletion of a key of the server that no GPU of the sample has. -/
def dropKey (e : Edit) (key : Text) : Edit :=
  { e with state := e.state.erase key, changed := true }

def staleKeys (call : Call) (e : Edit) : List Text :=
  e.state.keys.filter fun k => PyText.startsWith k (keyPrefix call.serverId) && k ∉ e.seen

def edit (metrics : List ServerMetric) (call : Call) (base : Doc) : Edit :=
  let e := call.gpus.foldl (editGpu metrics call) { state := base }
  (staleKeys call e).foldl dropKey e

theorem editGpu_unchanged {metrics : List ServerMetric} {call : Call} {e : Edit} {g : Gpu ℚ}
    (h : (editGpu metrics call e g).changed = false) :
    e.changed = false ∧ (editGpu metrics call e g).state = e.state := by
  revert h
  unfold editGpu
  split
  · exact fun h => ⟨h, rfl⟩
  · exact fun h => ⟨h, rfl⟩
  · dsimp only
    split
    · split
      · exact fun h => ⟨h, rfl⟩
      · intro h
        cases h
    · split
      · intro h
        cases h
      · exact fun h => ⟨h, rfl⟩

theorem foldl_editGpu_unchanged {metrics : List ServerMetric} {call : Call} {gpus : List (Gpu ℚ)}
    {e : Edit} (h : (gpus.foldl (editGpu metrics call) e).changed = false) :
    e.changed = false ∧ (gpus.foldl (editGpu metrics call) e).state = e.state := by
  induction gpus generalizing e with
  | nil => exact ⟨h, rfl⟩
  | cons g rest ih =>
    obtain ⟨hHead, hState⟩ := ih h
    obtain ⟨hChanged, hGpu⟩ := editGpu_unchanged hHead
    exact ⟨hChanged, hState.trans hGpu⟩

theorem changed_foldl_dropKey {keys : List Text} {e : Edit} (h : e.changed = true) :
    (keys.foldl dropKey e).changed = true := by
  induction keys generalizing e with
  | nil => exact h
  | cons key rest ih => exact ih rfl

/-- An edit that reports no change made none. -/
theorem state_of_unchanged {metrics : List ServerMetric} {call : Call} {base : Doc}
    (h : (edit metrics call base).changed = false) : (edit metrics call base).state = base := by
  unfold edit at h ⊢
  dsimp only at h ⊢
  cases hStale : staleKeys call (call.gpus.foldl (editGpu metrics call) { state := base }) with
  | nil =>
    rw [hStale] at h
    exact (foldl_editGpu_unchanged h).2
  | cons key rest =>
    rw [hStale, List.foldl_cons] at h
    have hTrue : (rest.foldl dropKey (dropKey
        (call.gpus.foldl (editGpu metrics call) { state := base }) key)).changed = true :=
      changed_foldl_dropKey rfl
    rw [hTrue] at h
    cases h

/-! ## One call after another -/

/-- The settings row and `_gpu_idle_mem`. -/
structure Shared where
  persisted : Option Doc := none
  mem : Option Doc := none
  deriving DecidableEq

/-- The document a settings row stands for: none at all reads as the empty one. -/
def rowDoc (row : Option Doc) : Doc := row.getD .empty

/-- `_load_idle_state`. -/
def loadIdleState (shared : Shared) : Doc × Shared :=
  match shared.mem with
  | some d => (d, shared)
  | none => (rowDoc shared.persisted, { shared with mem := some (rowDoc shared.persisted) })

/-- `_save_idle_state`. -/
def saveIdleState (_ : Shared) (state : Doc) : Shared :=
  { persisted := some state, mem := some state }

/-- `update_gpu_idle_state`, when nothing else runs. -/
def updateGpuIdleState (metrics : List ServerMetric) (shared : Shared) (call : Call) : Shared :=
  let (base, shared) := loadIdleState shared
  let e := edit metrics call base
  if e.changed then saveIdleState shared e.state else shared

/-- The memory, once filled, holds what is persisted. -/
def Shared.Consistent (shared : Shared) : Prop :=
  ∀ d ∈ shared.mem, d = rowDoc shared.persisted

/-- A call on its own edits the persisted document. -/
theorem updateGpuIdleState_spec {metrics : List ServerMetric} {shared : Shared} {call : Call}
    (h : shared.Consistent) :
    (updateGpuIdleState metrics shared call).Consistent ∧
      rowDoc (updateGpuIdleState metrics shared call).persisted =
        (edit metrics call (rowDoc shared.persisted)).state := by
  have hBase : (loadIdleState shared).1 = rowDoc shared.persisted := by
    unfold loadIdleState
    split
    · rename_i d hd
      exact h d hd
    · rfl
  have hRow : (loadIdleState shared).2.persisted = shared.persisted := by
    unfold loadIdleState
    split <;> rfl
  have hMem : (loadIdleState shared).2.Consistent := by
    unfold loadIdleState
    split
    · exact h
    · intro d hd
      exact (Option.some.inj hd).symm
  unfold updateGpuIdleState
  dsimp only
  rw [hBase]
  split
  · exact ⟨fun d hd => (Option.some.inj hd).symm, rfl⟩
  · rename_i hChanged
    rw [hRow, state_of_unchanged (by simpa using hChanged)]
    exact ⟨hMem, rfl⟩

end GpuMon.IdleState

import GpuMon.Library.Runs
import GpuMon.Models
import Mathlib.Algebra.Order.Floor.Div

/-!
# Retention (`scheduler._archive_expired_metrics`, `scheduler._retention_cleanup`)

Expired samples are exported to an archive before they are deleted, by different sessions and
with other writers at work in between. What ties the two together is the greatest id that was
expired when the export began: rows that appear later have greater ids.

* `retention_safe`: in every interleaving with inserts and server deletions, and for every
  point of failure, what retention deletes is expired and in the published archive, an export
  that fails deletes nothing, and the delete loop ends.
-/

namespace GpuMon.Retention

open Runs

/-! ## Minimized rows (`privacy.py`) -/

/-- `minimize_process`: the columns of `PROCESS_RESOURCE_FIELDS`. -/
def minimizeProcess (p : GpuProcess) : GpuProcess where
  pid := p.pid
  ppid := p.ppid
  cpu := p.cpu
  mem := p.mem
  rssMb := p.rssMb
  vszMb := p.vszMb
  stat := p.stat
  etimes := p.etimes
  memMb := p.memMb

def minimizeProcesses (processes : List GpuProcess) : List GpuProcess :=
  processes.map minimizeProcess

def minimizeGpus (gpus : List (Gpu ℚ)) : List (Gpu ℚ) :=
  gpus.map fun gpu => { gpu with processes := minimizeProcesses gpu.processes }

def minimizeMetric (metric : ServerMetric) : ServerMetric :=
  { metric with
    processes := minimizeProcesses metric.processes
    gpus := minimizeGpus metric.gpus
    users := [] }

/-! ## The steps of a run -/

/-- Where a run stands. `maxId` is the greatest expired id, `n` the number of rows to export
and `written` the exported records. -/
inductive Phase
  | begin
  | bounded (maxId : Nat)
  | exporting (maxId n : Nat) (written : List ServerMetric)
  | exported (maxId : Nat) (written : List ServerMetric)
  | published (maxId : Nat)
  | deleting (maxId : Nat)
  | selected (maxId : Nat) (ids : List Nat)
  | finished (maxId : Nat)
  /-- There was nothing to archive. -/
  | skipped
  /-- The export failed. -/
  | aborted
  /-- The delete loop failed. -/
  | interrupted
  deriving DecidableEq

/-- Where an exception leaves the run. -/
def Phase.failed : Phase → Option Phase
  | .begin => some .aborted
  | .bounded _ => some .aborted
  | .exporting _ _ _ => some .aborted
  | .exported _ _ => some .aborted
  | .published _ => some .aborted
  | .deleting _ => some .interrupted
  | .selected _ _ => some .interrupted
  | _ => none

/-- The table `server_metrics` with the greatest id ever assigned, the run, the archives it has
published, the rows it has deleted and the queries of its delete loop. -/
structure State where
  rows : List ServerMetric
  lastId : Nat
  phase : Phase := .begin
  published : List (List ServerMetric) := []
  removed : List ServerMetric := []
  queries : Nat := 0
  deriving DecidableEq

inductive Action
  | insert (row : ServerMetric)
  | deleteServer (serverId : Nat)
  | bound
  | count
  /-- The driver reads the next rows of the export, at most `size` of them. -/
  | fetch (size : Nat)
  | publish
  | enter
  | query (ids : List Nat)
  | delete
  | fail

/-- The filter `collected_at < cutoff`, `id <= max_id`. -/
def archivable (cutoff : Int) (maxId : Nat) (rows : List ServerMetric) : List ServerMetric :=
  rows.filter fun m => m.collectedAt < cutoff && m.id ≤ maxId

/-- The rows of the export that come after what is written, by id. -/
def nextRows (cutoff : Int) (maxId : Nat) (written rows : List ServerMetric) : List ServerMetric :=
  ((archivable cutoff maxId rows).filter fun m => written.all fun w => w.id < m.id).insertionSort
    fun a b => a.id ≤ b.id

/-- A batch of ids: `LIMIT 5000`, in no particular order. -/
def IsBatch (cutoff : Int) (maxId : Nat) (rows : List ServerMetric) (ids : List Nat) : Prop :=
  ids.Nodup ∧ ids ⊆ (archivable cutoff maxId rows).map ServerMetric.id ∧
    ids.length = min 5000 (archivable cutoff maxId rows).length

instance (cutoff : Int) (maxId : Nat) (rows : List ServerMetric) (ids : List Nat) :
    Decidable (IsBatch cutoff maxId rows ids) := by
  unfold IsBatch
  infer_instance

/-- One step of the run or of the writers beside it; `archiveDir` tells whether `ARCHIVE_DIR`
is set. -/
def step (cutoff : Int) (archiveDir : Bool) (s : State) : Action → Option State
  | .insert row => if s.lastId < row.id then
      some { s with rows := s.rows ++ [row], lastId := row.id }
    else none
  | .deleteServer serverId => some { s with rows := s.rows.filter fun m => m.serverId ≠ serverId }
  | .bound => match s.phase with
    | .begin => match ((s.rows.filter fun m => m.collectedAt < cutoff).map ServerMetric.id).max? with
      | none => some { s with phase := .skipped }
      | some maxId => some { s with phase := .bounded maxId }
    | _ => none
  | .count => match s.phase with
    | .bounded maxId =>
      if archiveDir then
        some { s with phase := .exporting maxId (archivable cutoff maxId s.rows).length [] }
      else some { s with phase := .aborted }
    | _ => none
  | .fetch size => match s.phase with
    | .exporting maxId n written =>
      if size = 0 then none
      else match (nextRows cutoff maxId written s.rows).take size with
        | [] => if written.length ≠ n then some { s with phase := .aborted }
          else some { s with phase := .exported maxId written }
        | chunk =>
          some { s with phase := .exporting maxId n (written ++ chunk.map minimizeMetric) }
    | _ => none
  | .publish => match s.phase with
    | .exported maxId written =>
      some { s with phase := .published maxId, published := s.published ++ [written] }
    | _ => none
  | .enter => match s.phase with
    | .published maxId => some { s with phase := if maxId = 0 then .skipped else .deleting maxId }
    | _ => none
  | .query ids => match s.phase with
    | .deleting maxId => if IsBatch cutoff maxId s.rows ids then
        some { s with
          phase := if ids = [] then .finished maxId else .selected maxId ids
          queries := s.queries + 1 }
      else none
    | _ => none
  | .delete => match s.phase with
    | .selected maxId ids => some { s with
        phase := .deleting maxId
        rows := s.rows.filter (fun m => m.id ∉ ids)
        removed := s.removed ++ s.rows.filter (fun m => m.id ∈ ids) }
    | _ => none
  | .fail => s.phase.failed.map fun phase => { s with phase }

/-- A run begins on any table with distinct ids. -/
structure Start (s : State) : Prop where
  idsNodup : (s.rows.map ServerMetric.id).Nodup
  idsLe : ∀ m ∈ s.rows, m.id ≤ s.lastId
  phase : s.phase = .begin
  published : s.published = []
  removed : s.removed = []
  queries : s.queries = 0

/-! ## The invariant -/

variable {cutoff : Int} {archiveDir : Bool} {maxId n : Nat} {s : State}
  {rows rows' written : List ServerMetric} {m : ServerMetric}

theorem mem_archivable :
    m ∈ archivable cutoff maxId rows ↔ m ∈ rows ∧ m.collectedAt < cutoff ∧ m.id ≤ maxId := by
  simp [archivable]

/-- Every row of the export that is still in the table is in `written`. -/
def Covered (cutoff : Int) (maxId : Nat) (rows written : List ServerMetric) : Prop :=
  ∀ m ∈ archivable cutoff maxId rows, minimizeMetric m ∈ written

/-- The rows up to the last one written are in `written`. -/
def CoveredUpTo (cutoff : Int) (maxId : Nat) (rows written : List ServerMetric) : Prop :=
  ∀ m ∈ archivable cutoff maxId rows, ∀ w ∈ written, m.id ≤ w.id → minimizeMetric m ∈ written

/-- Nothing is published or deleted. -/
structure Untouched (s : State) : Prop where
  published : s.published = []
  removed : s.removed = []
  queries : s.queries = 0

/-- `written` is published, and holds what is deleted. -/
structure Archived (cutoff : Int) (s : State) (written : List ServerMetric) : Prop where
  published : s.published = [written]
  removed : ∀ m ∈ s.removed, m.collectedAt < cutoff ∧ minimizeMetric m ∈ written

/-- What holds at each phase. In the delete loop every query but the last takes 5000 of the
rows that were archived, or all that are left. -/
inductive Stage (cutoff : Int) (s : State) : Phase → Prop
  | begin : Untouched s → Stage cutoff s .begin
  | bounded {maxId : Nat} : Untouched s → maxId ≤ s.lastId → Stage cutoff s (.bounded maxId)
  | exporting {maxId n : Nat} {written : List ServerMetric} : Untouched s → maxId ≤ s.lastId →
      CoveredUpTo cutoff maxId s.rows written → Stage cutoff s (.exporting maxId n written)
  | exported {maxId : Nat} {written : List ServerMetric} : Untouched s → maxId ≤ s.lastId →
      Covered cutoff maxId s.rows written → Stage cutoff s (.exported maxId written)
  | published {maxId : Nat} {written : List ServerMetric} : Archived cutoff s written →
      s.removed = [] → s.queries = 0 → maxId ≤ s.lastId → Covered cutoff maxId s.rows written →
      Stage cutoff s (.published maxId)
  | deleting {maxId : Nat} {written : List ServerMetric} : Archived cutoff s written →
      maxId ≤ s.lastId → Covered cutoff maxId s.rows written →
      (archivable cutoff maxId s.rows).length ≤ written.length - 5000 * s.queries →
      5000 * s.queries < written.length + 5000 → Stage cutoff s (.deleting maxId)
  | selected {maxId : Nat} {ids : List Nat} {written : List ServerMetric} :
      Archived cutoff s written → maxId ≤ s.lastId → Covered cutoff maxId s.rows written →
      (∀ i ∈ ids, i ≤ maxId) → (∀ m ∈ s.rows, m.id ∈ ids → m.collectedAt < cutoff) →
      ((archivable cutoff maxId s.rows).filter fun m => m.id ∉ ids).length ≤
        written.length - 5000 * s.queries →
      5000 * s.queries < written.length + 5000 → Stage cutoff s (.selected maxId ids)
  | finished {maxId : Nat} {written : List ServerMetric} : Archived cutoff s written →
      maxId ≤ s.lastId → archivable cutoff maxId s.rows = [] →
      5000 * s.queries < written.length + 10000 → Stage cutoff s (.finished maxId)
  | skipped : s.removed = [] → s.queries = 0 → Stage cutoff s .skipped
  | aborted : s.removed = [] → s.queries = 0 → Stage cutoff s .aborted
  | interrupted {written : List ServerMetric} : Archived cutoff s written →
      5000 * s.queries < written.length + 10000 → Stage cutoff s .interrupted

structure Inv (cutoff : Int) (s : State) : Prop where
  idsNodup : (s.rows.map ServerMetric.id).Nodup
  idsLe : ∀ m ∈ s.rows, m.id ≤ s.lastId
  stage : Stage cutoff s s.phase

/-! ### Other writers -/

/-- A writer beside the run brings no row that the export had to have. -/
structure Beside (cutoff : Int) (s : State) (rows' : List ServerMetric) (lastId' : Nat) : Prop where
  lastLe : s.lastId ≤ lastId'
  sublist : ∀ maxId, maxId ≤ s.lastId →
    (archivable cutoff maxId rows').Sublist (archivable cutoff maxId s.rows)
  old : ∀ m ∈ rows', m ∈ s.rows ∨ s.lastId < m.id

theorem Stage.beside {lastId' : Nat} {phase : Phase} (h : Stage cutoff s phase)
    (hBeside : Beside cutoff s rows' lastId') :
    Stage cutoff { s with rows := rows', lastId := lastId' } phase := by
  have hLe : ∀ {k}, k ≤ s.lastId → k ≤ lastId' := fun hk => hk.trans hBeside.lastLe
  cases h with
  | begin hNone => exact .begin ⟨hNone.1, hNone.2, hNone.3⟩
  | bounded hNone hMax => exact .bounded ⟨hNone.1, hNone.2, hNone.3⟩ (hLe hMax)
  | exporting hNone hMax hCovered =>
    refine .exporting ⟨hNone.1, hNone.2, hNone.3⟩ (hLe hMax) ?_
    exact fun m hm => hCovered m ((hBeside.sublist _ hMax).subset hm)
  | exported hNone hMax hCovered =>
    refine .exported ⟨hNone.1, hNone.2, hNone.3⟩ (hLe hMax) ?_
    exact fun m hm => hCovered m ((hBeside.sublist _ hMax).subset hm)
  | published hArchived hRemoved hQueries hMax hCovered =>
    refine .published ⟨hArchived.1, hArchived.2⟩ hRemoved hQueries (hLe hMax) ?_
    exact fun m hm => hCovered m ((hBeside.sublist _ hMax).subset hm)
  | deleting hArchived hMax hCovered hLeft hQueries =>
    refine .deleting ⟨hArchived.1, hArchived.2⟩ (hLe hMax) ?_ ?_ hQueries
    · exact fun m hm => hCovered m ((hBeside.sublist _ hMax).subset hm)
    · exact (hBeside.sublist _ hMax).length_le.trans hLeft
  | selected hArchived hMax hCovered hIds hExpired hLeft hQueries =>
    refine .selected ⟨hArchived.1, hArchived.2⟩ (hLe hMax) ?_ hIds ?_ ?_ hQueries
    · exact fun m hm => hCovered m ((hBeside.sublist _ hMax).subset hm)
    · intro m hm hId
      rcases hBeside.old m hm with hOld | hNew
      · exact hExpired m hOld hId
      · have := hIds m.id hId
        omega
    · exact ((hBeside.sublist _ hMax).filter _).length_le.trans hLeft
  | finished hArchived hMax hNone hQueries =>
    refine .finished ⟨hArchived.1, hArchived.2⟩ (hLe hMax) ?_ hQueries
    exact List.sublist_nil.mp (hNone ▸ hBeside.sublist _ hMax)
  | skipped hRemoved hQueries => exact .skipped hRemoved hQueries
  | aborted hRemoved hQueries => exact .aborted hRemoved hQueries
  | interrupted hArchived hQueries => exact .interrupted ⟨hArchived.1, hArchived.2⟩ hQueries

theorem beside_insert {row : ServerMetric} (hNew : s.lastId < row.id) :
    Beside cutoff s (s.rows ++ [row]) row.id where
  lastLe := hNew.le
  sublist := by
    intro maxId hMax
    have hOut : archivable cutoff maxId [row] = [] := by
      rw [archivable, List.filter_eq_nil_iff]
      intro m hm
      rw [List.mem_singleton.mp hm]
      simp
      omega
    rw [archivable, List.filter_append]
    change (archivable cutoff maxId s.rows ++ archivable cutoff maxId [row]).Sublist _
    rw [hOut, List.append_nil]
  old := by
    intro m hm
    rcases List.mem_append.mp hm with hOld | hRow
    · exact .inl hOld
    · rw [List.mem_singleton.mp hRow]
      exact .inr hNew

theorem beside_delete (keep : ServerMetric → Bool) :
    Beside cutoff s (s.rows.filter keep) s.lastId where
  lastLe := le_rfl
  sublist := fun _ _ => List.filter_sublist.filter _
  old := fun _ hm => .inl (List.mem_of_mem_filter hm)

/-! ### The export -/

theorem mem_nextRows : m ∈ nextRows cutoff maxId written rows ↔
    m ∈ archivable cutoff maxId rows ∧ ∀ w ∈ written, w.id < m.id := by
  simp [nextRows]

theorem coveredUpTo_fetch (hNodup : (rows.map ServerMetric.id).Nodup)
    (hCovered : CoveredUpTo cutoff maxId rows written) (size : Nat) :
    CoveredUpTo cutoff maxId rows
      (written ++ ((nextRows cutoff maxId written rows).take size).map minimizeMetric) := by
  intro m hm w hw hLe
  rw [List.mem_append] at hw ⊢
  rcases hw with hw | hw
  · exact .inl (hCovered m hm w hw hLe)
  obtain ⟨c, hc, rfl⟩ := List.mem_map.mp hw
  by_cases hBehind : ∃ w' ∈ written, m.id ≤ w'.id
  · obtain ⟨w', hw', hLe'⟩ := hBehind
    exact .inl (hCovered m hm w' hw' hLe')
  have hNext : m ∈ nextRows cutoff maxId written rows :=
    mem_nextRows.mpr ⟨hm, fun w' hw' => Nat.lt_of_not_le fun hle => hBehind ⟨w', hw', hle⟩⟩
  refine .inr (List.mem_map_of_mem ?_)
  -- a row that is not in the chunk comes after all of it, so `m` is `c` itself
  have hSorted : (nextRows cutoff maxId written rows).Pairwise fun a b => a.id ≤ b.id :=
    List.pairwise_insertionSort (fun a b : ServerMetric => a.id ≤ b.id) _
  rw [← List.take_append_drop size (nextRows cutoff maxId written rows)] at hNext hSorted
  rcases List.mem_append.mp hNext with hTake | hDrop
  · exact hTake
  · have hGe : c.id ≤ m.id := (List.pairwise_append.mp hSorted).2.2 c hc m hDrop
    have hcRow := (mem_archivable.mp (mem_nextRows.mp (List.mem_of_mem_take hc)).1).1
    have hSame : m = c :=
      List.inj_on_of_nodup_map hNodup (mem_archivable.mp hm).1 hcRow (le_antisymm hLe hGe)
    exact hSame ▸ hc

theorem covered_of_exhausted (hCovered : CoveredUpTo cutoff maxId rows written)
    (hEnd : nextRows cutoff maxId written rows = []) : Covered cutoff maxId rows written := by
  intro m hm
  have hBehind : ¬ ∀ w ∈ written, w.id < m.id := by
    intro hAll
    have hNext : m ∈ nextRows cutoff maxId written rows := mem_nextRows.mpr ⟨hm, hAll⟩
    rw [hEnd] at hNext
    cases hNext
  obtain ⟨w, hw, hLt⟩ := not_forall₂.mp hBehind
  exact hCovered m hm w hw (by omega)

theorem stage_fetch (hNodup : (s.rows.map ServerMetric.id).Nodup)
    (h : Stage cutoff s (.exporting maxId n written)) (size : Nat) :
    Stage cutoff { s with
        phase := .exporting maxId n
          (written ++ ((nextRows cutoff maxId written s.rows).take size).map minimizeMetric) }
      (.exporting maxId n
        (written ++ ((nextRows cutoff maxId written s.rows).take size).map minimizeMetric)) := by
  cases h with
  | exporting hNone hMax hCovered =>
  exact .exporting ⟨hNone.1, hNone.2, hNone.3⟩ hMax (coveredUpTo_fetch hNodup hCovered size)

theorem stage_exhausted (h : Stage cutoff s (.exporting maxId n written))
    (hEnd : nextRows cutoff maxId written s.rows = []) :
    Stage cutoff { s with phase := .exported maxId written } (.exported maxId written) := by
  cases h with
  | exporting hNone hMax hCovered =>
  exact .exported ⟨hNone.1, hNone.2, hNone.3⟩ hMax (covered_of_exhausted hCovered hEnd)

theorem stage_publish (h : Stage cutoff s (.exported maxId written)) :
    Stage cutoff { s with
        phase := .published maxId
        published := s.published ++ [written] } (.published maxId) := by
  cases h with
  | exported hNone hMax hCovered =>
  refine .published ⟨?_, ?_⟩ hNone.2 hNone.3 hMax hCovered
  · rw [hNone.published, List.nil_append]
  · intro m hm
    rw [hNone.removed] at hm
    cases hm

/-! ### The delete loop -/

theorem nodup_archivable (hNodup : (rows.map ServerMetric.id).Nodup) :
    ((archivable cutoff maxId rows).map ServerMetric.id).Nodup :=
  hNodup.sublist (List.filter_sublist.map _)

/-- What is left of the export was archived. -/
theorem length_archivable_le (hNodup : (rows.map ServerMetric.id).Nodup)
    (hCovered : Covered cutoff maxId rows written) :
    (archivable cutoff maxId rows).length ≤ written.length := by
  have hIds : (archivable cutoff maxId rows).map ServerMetric.id ⊆
      written.map ServerMetric.id := by
    intro i hi
    obtain ⟨m, hm, rfl⟩ := List.mem_map.mp hi
    exact List.mem_map.mpr ⟨minimizeMetric m, hCovered m hm, rfl⟩
  have hLength := (List.subperm_of_subset (nodup_archivable hNodup) hIds).length_le
  rwa [List.length_map, List.length_map] at hLength

/-- A batch accounts for at least as many rows as it has ids. -/
theorem IsBatch.length_rest {ids : List Nat} (h : IsBatch cutoff maxId rows ids) :
    ((archivable cutoff maxId rows).filter fun m => m.id ∉ ids).length + ids.length ≤
      (archivable cutoff maxId rows).length := by
  have hTaken : ids ⊆ ((archivable cutoff maxId rows).filter fun m => m.id ∈ ids).map
      ServerMetric.id := by
    intro i hi
    obtain ⟨m, hm, rfl⟩ := List.mem_map.mp (h.2.1 hi)
    exact List.mem_map_of_mem (List.mem_filter.mpr ⟨hm, by simpa using hi⟩)
  have hLength := (List.subperm_of_subset h.1 hTaken).length_le
  have hSplit := (archivable cutoff maxId rows).length_eq_length_filter_add fun m => m.id ∈ ids
  simp only [List.length_map, decide_not] at hLength hSplit ⊢
  omega

theorem IsBatch.le_maxId {ids : List Nat} (h : IsBatch cutoff maxId rows ids) {i : Nat}
    (hi : i ∈ ids) : i ≤ maxId := by
  obtain ⟨m, hm, rfl⟩ := List.mem_map.mp (h.2.1 hi)
  exact (mem_archivable.mp hm).2.2

theorem IsBatch.expired {ids : List Nat} (hNodup : (rows.map ServerMetric.id).Nodup)
    (h : IsBatch cutoff maxId rows ids) (hm : m ∈ rows) (hi : m.id ∈ ids) :
    m.collectedAt < cutoff := by
  obtain ⟨m', hm', hId⟩ := List.mem_map.mp (h.2.1 hi)
  obtain ⟨hRow, hExpired, -⟩ := mem_archivable.mp hm'
  rwa [← List.inj_on_of_nodup_map hNodup hRow hm hId]

/-- The loop begins with nothing but archived rows left of the export. -/
theorem stage_enter (hNodup : (s.rows.map ServerMetric.id).Nodup)
    (h : Stage cutoff s (.published maxId)) :
    Stage cutoff { s with phase := if maxId = 0 then .skipped else .deleting maxId }
      (if maxId = 0 then .skipped else .deleting maxId) := by
  cases h with
  | published hArchived hRemoved hQueries hMax hCovered =>
  split
  · exact .skipped hRemoved hQueries
  · refine .deleting ⟨hArchived.1, hArchived.2⟩ hMax hCovered ?_ ?_
    · dsimp only
      rw [hQueries, Nat.mul_zero, Nat.sub_zero]
      exact length_archivable_le hNodup hCovered
    · dsimp only
      omega

theorem stage_query {ids : List Nat} (hNodup : (s.rows.map ServerMetric.id).Nodup)
    (h : Stage cutoff s (.deleting maxId)) (hBatch : IsBatch cutoff maxId s.rows ids) :
    Stage cutoff { s with
        phase := if ids = [] then .finished maxId else .selected maxId ids
        queries := s.queries + 1 }
      (if ids = [] then .finished maxId else .selected maxId ids) := by
  cases h with
  | @deleting maxId written hArchived hMax hCovered hLeft hQueries =>
  have hCount := hBatch.2.2
  have hRest := hBatch.length_rest
  split
  · rename_i hNil
    rw [hNil, List.length_nil] at hCount
    have hNone : (archivable cutoff maxId s.rows).length = 0 := by omega
    refine .finished ⟨hArchived.1, hArchived.2⟩ hMax (List.length_eq_zero_iff.mp hNone) ?_
    dsimp only
    omega
  · rename_i hSome
    have hPos := List.length_pos_iff.mpr hSome
    refine .selected ⟨hArchived.1, hArchived.2⟩ hMax hCovered (fun i => hBatch.le_maxId)
      (fun m hm => hBatch.expired hNodup hm) ?_ ?_ <;> dsimp only <;> omega

theorem stage_delete {ids : List Nat} (h : Stage cutoff s (.selected maxId ids)) :
    Stage cutoff { s with
        phase := .deleting maxId
        rows := s.rows.filter (fun m => m.id ∉ ids)
        removed := s.removed ++ s.rows.filter (fun m => m.id ∈ ids) } (.deleting maxId) := by
  cases h with
  | @selected maxId ids written hArchived hMax hCovered hIds hExpired hLeft hQueries =>
  have hRows : archivable cutoff maxId (s.rows.filter fun m => m.id ∉ ids) =
      (archivable cutoff maxId s.rows).filter fun m => m.id ∉ ids := by
    simp only [archivable, List.filter_filter, Bool.and_comm]
  refine .deleting ⟨hArchived.published, ?_⟩ hMax ?_ ?_ hQueries
  · intro m hm
    rcases List.mem_append.mp hm with hOld | hNow
    · exact hArchived.removed m hOld
    · obtain ⟨hRow, hId⟩ := List.mem_filter.mp hNow
      have hId : m.id ∈ ids := of_decide_eq_true hId
      have hBefore := hExpired m hRow hId
      exact ⟨hBefore, hCovered m (mem_archivable.mpr ⟨hRow, hBefore, hIds _ hId⟩)⟩
  · dsimp only
    rw [Covered, hRows]
    exact fun m hm => hCovered m (List.mem_of_mem_filter hm)
  · dsimp only
    rw [hRows]
    exact hLeft

/-! ### Runs -/

theorem inv_start (h : Start s) : Inv cutoff s where
  idsNodup := h.idsNodup
  idsLe := h.idsLe
  stage := by
    rw [h.phase]
    exact .begin ⟨h.published, h.removed, h.queries⟩

theorem stage_failed {phase phase' : Phase} (h : Stage cutoff s phase)
    (hFailed : phase.failed = some phase') : Stage cutoff { s with phase := phase' } phase' := by
  cases h with
  | begin h | bounded h _ | exporting h _ _ | exported h _ _ =>
    cases hFailed
    exact .aborted h.removed h.queries
  | published _ hRemoved hQueries _ _ =>
    cases hFailed
    exact .aborted hRemoved hQueries
  | deleting h _ _ _ hQueries | selected h _ _ _ _ _ hQueries =>
    cases hFailed
    refine .interrupted ⟨h.published, h.removed⟩ ?_
    dsimp only
    omega
  | finished | skipped | aborted | interrupted => cases hFailed

theorem inv_insert (hInv : Inv cutoff s) {row : ServerMetric} (hNew : s.lastId < row.id) :
    Inv cutoff { s with rows := s.rows ++ [row], lastId := row.id } where
  idsNodup := by
    rw [List.map_append, List.nodup_append]
    refine ⟨hInv.idsNodup, List.nodup_singleton _, ?_⟩
    intro i hi j hj hEq
    obtain ⟨m, hm, rfl⟩ := List.mem_map.mp hi
    have hOld := hInv.idsLe m hm
    have hRow : j = row.id := by simpa using hj
    omega
  idsLe := by
    intro m hm
    rcases List.mem_append.mp hm with hOld | hRow
    · exact (hInv.idsLe m hOld).trans hNew.le
    · rw [List.mem_singleton.mp hRow]
  stage := hInv.stage.beside (beside_insert hNew)

theorem inv_step {s' : State} {a : Action} (hInv : Inv cutoff s)
    (h : step cutoff archiveDir s a = some s') : Inv cutoff s' := by
  obtain ⟨hNodup, hLe, hStage⟩ := hInv
  cases a with
  | insert row =>
    simp only [step] at h
    split at h
    · rename_i hNew
      cases h
      exact inv_insert ⟨hNodup, hLe, hStage⟩ hNew
    · cases h
  | deleteServer serverId =>
    cases h
    exact ⟨hNodup.sublist (List.filter_sublist.map _),
      fun m hm => hLe m (List.mem_of_mem_filter hm), hStage.beside (beside_delete _)⟩
  | bound =>
    simp only [step] at h
    split at h
    · rename_i hPhase
      rw [hPhase] at hStage
      cases hStage with
      | begin hNone =>
      split at h <;> cases h
      · exact ⟨hNodup, hLe, .skipped hNone.2 hNone.3⟩
      · rename_i maxId hMax
        obtain ⟨m, hm, rfl⟩ := List.mem_map.mp (List.max?_mem hMax)
        exact ⟨hNodup, hLe, .bounded ⟨hNone.1, hNone.2, hNone.3⟩
          (hLe m (List.mem_of_mem_filter hm))⟩
    · cases h
  | count =>
    simp only [step] at h
    split at h
    · rename_i maxId hPhase
      rw [hPhase] at hStage
      cases hStage with
      | bounded hNone hMax =>
      split at h <;> cases h
      · refine ⟨hNodup, hLe, .exporting ⟨hNone.1, hNone.2, hNone.3⟩ hMax ?_⟩
        intro m hm w hw
        cases hw
      · exact ⟨hNodup, hLe, .aborted hNone.2 hNone.3⟩
    · cases h
  | fetch size =>
    simp only [step] at h
    split at h
    · rename_i maxId n written hPhase
      rw [hPhase] at hStage
      split at h
      · cases h
      rename_i hSize
      split at h
      · rename_i hEnd
        have hEnd : nextRows cutoff maxId written s.rows = [] :=
          (List.take_eq_nil_iff.mp hEnd).resolve_left hSize
        split at h <;> cases h
        · exact ⟨hNodup, hLe, stage_failed hStage rfl⟩
        · exact ⟨hNodup, hLe, stage_exhausted hStage hEnd⟩
      · cases h
        exact ⟨hNodup, hLe, stage_fetch hNodup hStage size⟩
    · cases h
  | publish =>
    simp only [step] at h
    split at h
    · rename_i maxId written hPhase
      rw [hPhase] at hStage
      cases h
      exact ⟨hNodup, hLe, stage_publish hStage⟩
    · cases h
  | enter =>
    simp only [step] at h
    split at h
    · rename_i maxId hPhase
      rw [hPhase] at hStage
      cases h
      exact ⟨hNodup, hLe, stage_enter hNodup hStage⟩
    · cases h
  | query ids =>
    simp only [step] at h
    split at h
    · rename_i maxId hPhase
      rw [hPhase] at hStage
      split at h
      · rename_i hBatch
        cases h
        exact ⟨hNodup, hLe, stage_query hNodup hStage hBatch⟩
      · cases h
    · cases h
  | delete =>
    simp only [step] at h
    split at h
    · rename_i maxId ids hPhase
      rw [hPhase] at hStage
      cases h
      exact ⟨hNodup.sublist (List.filter_sublist.map _),
        fun m hm => hLe m (List.mem_of_mem_filter hm), stage_delete hStage⟩
    · cases h
  | fail =>
    obtain ⟨phase, hFailed, rfl⟩ := Option.map_eq_some_iff.mp h
    exact ⟨hNodup, hLe, stage_failed hStage hFailed⟩

/-! ### What retention keeps -/

/-- The export is under way or has failed. -/
def Phase.isExport : Phase → Bool
  | .deleting _ => false
  | .selected _ _ => false
  | .finished _ => false
  | .interrupted => false
  | _ => true

structure Safe (cutoff : Int) (archiveDir : Bool) (s : State) : Prop where
  archived : ∀ m ∈ s.removed, ∃ archive ∈ s.published, minimizeMetric m ∈ archive
  expired : ∀ m ∈ s.removed, m.collectedAt < cutoff
  /-- No step of the export deletes a row, whichever way it ends. -/
  exportKeeps : s.phase.isExport = true → s.removed = []
  /-- The bound `⌈k / 5000⌉ + 1` on the queries of the delete loop. -/
  queries_le : s.queries ≤ s.published.flatten.length ⌈/⌉ 5000 + 1
  /-- Without an error the loop goes on until a query finds nothing. -/
  continues : ∀ maxId, s.phase = .deleting maxId →
    ∃ ids, (step cutoff archiveDir s (.query ids)).isSome = true
  deletes : ∀ maxId ids, s.phase = .selected maxId ids →
    (step cutoff archiveDir s .delete).isSome = true
  nothingLeft : ∀ maxId, s.phase = .finished maxId →
    ∀ m ∈ s.rows, m.id ≤ maxId → cutoff ≤ m.collectedAt

theorem exists_isBatch (hNodup : (rows.map ServerMetric.id).Nodup) :
    ∃ ids, IsBatch cutoff maxId rows ids := by
  refine ⟨((archivable cutoff maxId rows).map ServerMetric.id).take 5000, ?_, ?_, ?_⟩
  · exact (nodup_archivable hNodup).sublist (List.take_sublist _ _)
  · exact List.take_subset _ _
  · rw [List.length_take, List.length_map]

theorem Archived.exists_archive (h : Archived cutoff s written) (hm : m ∈ s.removed) :
    ∃ archive ∈ s.published, minimizeMetric m ∈ archive := by
  rw [h.published]
  exact ⟨written, List.mem_singleton_self _, (h.removed m hm).2⟩

/-- Nothing is deleted yet, or everything deleted is archived. -/
theorem Stage.archived {phase : Phase} (h : Stage cutoff s phase) :
    (s.removed = [] ∧ s.queries = 0) ∨
      ∃ written, Archived cutoff s written ∧ 5000 * s.queries < written.length + 10000 := by
  cases h with
  | begin h | bounded h _ | exporting h _ _ | exported h _ _ => exact .inl ⟨h.2, h.3⟩
  | published _ h₁ h₂ _ _ | skipped h₁ h₂ | aborted h₁ h₂ => exact .inl ⟨h₁, h₂⟩
  | deleting h _ _ _ hQueries | selected h _ _ _ _ _ hQueries => exact .inr ⟨_, h, by omega⟩
  | finished h _ _ hQueries | interrupted h hQueries => exact .inr ⟨_, h, hQueries⟩

theorem Stage.removed_eq_nil {phase : Phase} (h : Stage cutoff s phase)
    (hExport : phase.isExport = true) : s.removed = [] := by
  cases h with
  | begin h | bounded h _ | exporting h _ _ | exported h _ _ => exact h.removed
  | published _ h _ _ _ | skipped h _ | aborted h _ => exact h
  | deleting | selected | finished | interrupted => cases hExport

theorem Inv.safe (hInv : Inv cutoff s) : Safe cutoff archiveDir s where
  archived := by
    intro m hm
    rcases hInv.stage.archived with ⟨hNone, -⟩ | ⟨written, hArchived, -⟩
    · rw [hNone] at hm
      cases hm
    · exact hArchived.exists_archive hm
  expired := by
    intro m hm
    rcases hInv.stage.archived with ⟨hNone, -⟩ | ⟨written, hArchived, -⟩
    · rw [hNone] at hm
      cases hm
    · exact (hArchived.removed m hm).1
  exportKeeps := hInv.stage.removed_eq_nil
  queries_le := by
    rcases hInv.stage.archived with ⟨-, hNone⟩ | ⟨written, hArchived, hQueries⟩
    · omega
    · rw [hArchived.published, List.flatten_singleton, Nat.ceilDiv_eq_add_pred_div]
      omega
  continues := by
    intro maxId hPhase
    obtain ⟨ids, hBatch⟩ : ∃ ids, IsBatch cutoff maxId s.rows ids := exists_isBatch hInv.idsNodup
    refine ⟨ids, ?_⟩
    simp only [step, hPhase]
    rw [if_pos hBatch]
    rfl
  deletes := by
    intro maxId ids hPhase
    simp only [step, hPhase]
    rfl
  nothingLeft := by
    intro maxId hPhase m hm hId
    have hStage := hInv.stage
    rw [hPhase] at hStage
    cases hStage with
    | finished _ _ hNone _ =>
    by_contra hBefore
    have hLeft : m ∈ archivable cutoff maxId s.rows :=
      mem_archivable.mpr ⟨hm, not_le.mp hBefore, hId⟩
    rw [hNone] at hLeft
    cases hLeft

/-- Retention in any interleaving with inserts and server deletions, failing anywhere or
nowhere. -/
theorem retention_safe (h : Reach (step cutoff archiveDir) Start Always s) :
    Safe cutoff archiveDir s := by
  have hInv : Inv cutoff s :=
    h.invariant (fun _ => inv_start) fun _ _ _ hI _ hStep => inv_step hI hStep
  exact hInv.safe

/-! Two old samples are archived while a poll stores a third, which is late: it is as old, but
not part of the export. -/

def oldSample (id : Nat) (time : Int) : ServerMetric where
  id
  serverId := 1
  collectedAt := seconds time
  users := [{ user := "alice" }]

def twoOld : State where
  rows := [oldSample 1 100, oldSample 2 160]
  lastId := 2

theorem retention_safe_lateSample : ∃ s,
    Reach (step (seconds 1000) true) Start Always s ∧ Safe (seconds 1000) true s ∧
      s.phase = .finished 2 ∧ s.rows = [oldSample 3 130] ∧
        s.removed = [oldSample 1 100, oldSample 2 160] := by
  have hStart : Start twoOld := ⟨by decide, by decide, rfl, rfl, rfl, rfl⟩
  obtain ⟨s, hReach, hEnd⟩ : ∃ s, Reach (step (seconds 1000) true) Start Always s ∧
      s.phase = .finished 2 ∧ s.rows = [oldSample 3 130] ∧
        s.removed = [oldSample 1 100, oldSample 2 160] :=
    Runs.Reach.exists_of_exec [.bound, .count, .fetch 1, .insert (oldSample 3 130), .fetch 300,
      .fetch 300, .publish, .enter, .query [2, 1], .delete, .query []] hStart (by decide +kernel)
  exact ⟨s, hReach, retention_safe hReach, hEnd⟩

end GpuMon.Retention

import GpuMon.Library.BatchLoop
import GpuMon.Retention.Archive
import GpuMon.Retention.Restore

/-!
# Archiving and restoring

Writer and reader of an archive have different limits. The writer puts down every expired row,
one line each, in the order of the ids. The reader bounds the length of a line and the sizes of
the members, and skips a row whose server and time are committed already, where it commits
after every 300 rows.

* `restore_recreates_iff`: an archive is restored exactly if and only if it is within the limits
  of the reader and rows of equal server and time are in the same 300.
* `straddling_rows_lost`: 301 rows of which the last has the time of the first.
-/

namespace GpuMon.Retention

open BatchLoop

/-! ## What is written -/

/-- The rows of an export that nothing interferes with. -/
def expiredRows (cutoff : Int) (table : List ServerMetric) : List ServerMetric :=
  (table.filter fun m => m.collectedAt < cutoff).insertionSort fun a b => a.id ≤ b.id

/-- `json.dumps`. -/
structure Dumps where
  metric : ServerMetric → Bytes
  server : Server → Bytes

def metricText (dumps : Dumps) (m : ServerMetric) : Bytes :=
  dumps.metric (minimizeMetric m) ++ ['\n']

def serverText (dumps : Dumps) (s : Server) : Bytes := dumps.server s ++ ['\n']

/-- The archive of some rows, with the servers at the time of the export. -/
def archiveOf (dumps : Dumps) (size : Nat) (servers : List Server) (rows : List ServerMetric) :
    Archive where
  size
  servers := some (servers.flatMap (serverText dumps))
  metrics := rows.flatMap (metricText dumps)

/-- What the reader makes of the line of a row. -/
def metricRecord (m : ServerMetric) : MetricRecord where
  serverId := some m.serverId
  collectedAt := .at m.collectedAt
  columns := minimizeMetric m

def serverRecord (s : Server) : ServerRecord where
  id := some s.id
  name := some s.name
  serverType := some s.serverType
  tags := some s.tags

/-- JSON text holds no newline, is not blank, and is read back as what was written. -/
structure JsonFaithful (dumps : Dumps) (codec : Codec) (servers : List Server)
    (rows : List ServerMetric) : Prop where
  metricNewline : ∀ m ∈ rows, '\n' ∉ dumps.metric (minimizeMetric m)
  metricBlank : ∀ m ∈ rows, (metricText dumps m).all isSpaceByte = false
  metricLoads : ∀ m ∈ rows, codec.loadMetric (metricText dumps m) = some (metricRecord m)
  serverNewline : ∀ s ∈ servers, '\n' ∉ dumps.server s
  serverBlank : ∀ s ∈ servers, (serverText dumps s).all isSpaceByte = false
  serverLoads : ∀ s ∈ servers, codec.loadServer (serverText dumps s) = some (serverRecord s)

/-- A run of the export that nothing interferes with publishes the expired rows. -/
theorem export_undisturbed {cutoff : Int} {s : State} (h : Start s)
    (hSome : expiredRows cutoff s.rows ≠ []) :
    ∃ maxId, Runs.exec (step cutoff true) Runs.Always s [.bound, .count,
        .fetch (expiredRows cutoff s.rows).length, .fetch 300, .publish] =
      some { s with
        phase := .published maxId
        published := [(expiredRows cutoff s.rows).map minimizeMetric] } := by
  have hPerm : (expiredRows cutoff s.rows).Perm (s.rows.filter fun m => m.collectedAt < cutoff) :=
    List.perm_insertionSort _ _
  have hIds : (s.rows.filter fun m => m.collectedAt < cutoff).map ServerMetric.id ≠ [] := by
    intro hNil
    have hNone := hPerm.length_eq
    rw [List.map_eq_nil_iff.mp hNil] at hNone
    exact hSome (List.length_eq_zero_iff.mp hNone)
  obtain ⟨maxId, hMax⟩ := Option.ne_none_iff_exists'.mp (mt List.max?_eq_none_iff.mp hIds)
  have hAll : archivable cutoff maxId s.rows = s.rows.filter fun m => m.collectedAt < cutoff := by
    refine List.filter_congr fun m hm => ?_
    by_cases hOld : m.collectedAt < cutoff
    · have hLe : m.id ≤ maxId := (List.max?_eq_some_iff.mp hMax).2 m.id
        (List.mem_map_of_mem (List.mem_filter.mpr ⟨hm, decide_eq_true hOld⟩))
      simp [hOld, hLe]
    · simp [hOld]
  have hFirst : nextRows cutoff maxId [] s.rows = expiredRows cutoff s.rows := by
    simp [nextRows, hAll, expiredRows]
  have hLast : nextRows cutoff maxId ((expiredRows cutoff s.rows).map minimizeMetric) s.rows = [] := by
    refine List.eq_nil_iff_forall_not_mem.mpr fun m hm => ?_
    obtain ⟨hRow, hAfter⟩ := mem_nextRows.mp hm
    rw [hAll] at hRow
    exact absurd (hAfter _ (List.mem_map_of_mem (hPerm.mem_iff.mpr hRow))) (lt_irrefl m.id)
  have hCount : (archivable cutoff maxId s.rows).length = (expiredRows cutoff s.rows).length := by
    rw [hAll, hPerm.length_eq]
  have hFetch : (nextRows cutoff maxId [] s.rows).take (expiredRows cutoff s.rows).length =
      expiredRows cutoff s.rows := by rw [hFirst, List.take_length]
  have hPositive : (expiredRows cutoff s.rows).length ≠ 0 := fun hZero =>
    hSome (List.length_eq_zero_iff.mp hZero)
  generalize expiredRows cutoff s.rows = rows at hSome hCount hFetch hPositive hLast ⊢
  obtain ⟨first, rest, rfl⟩ := List.exists_cons_of_ne_nil hSome
  refine ⟨maxId, ?_⟩
  simp only [Runs.exec, Runs.Always, step, h.phase, hMax, hCount, hFetch, hLast, if_neg hPositive,
    if_true, Option.bind_some, List.nil_append, List.take_nil, List.length_map, ne_eq,
    not_true_eq_false, if_false, h.published, OfNat.ofNat_ne_zero]
  exact if_pos trivial

/-! ## What is read -/

theorem readLines_append {line rest : Bytes} (h : '\n' ∉ line) :
    readLines (line ++ '\n' :: rest) = (line ++ ['\n']) :: readLines rest := by
  induction line with
  | nil =>
    rw [List.nil_append, readLines, if_pos rfl]
    rfl
  | cons c line ih =>
    have hc : c ≠ '\n' := fun hEq => h (hEq ▸ List.mem_cons_self)
    rw [List.cons_append, readLines, if_neg hc, ih fun hIn => h (List.mem_cons_of_mem c hIn)]
    rfl

theorem readLines_flatMap {α : Type} {text : α → Bytes} {items : List α}
    (h : ∀ a ∈ items, '\n' ∉ text a) :
    readLines (items.flatMap fun a => text a ++ ['\n']) = items.map fun a => text a ++ ['\n'] := by
  induction items with
  | nil => rfl
  | cons a items ih =>
    rw [List.flatMap_cons, List.append_assoc, List.singleton_append,
      readLines_append (h a List.mem_cons_self), ih fun b hb => h b (List.mem_cons_of_mem a hb),
      List.map_cons]

/-- The line of a record that loads, if it is short enough. -/
theorem jsonlLine_eq {ρ : Type} {loads : Bytes → Option ρ} {line : Bytes} {r : ρ}
    (hBlank : line.all isSpaceByte = false) (hLoads : loads line = some r) :
    jsonlLine loads line = if maxJsonlLineBytes < line.length then .tooLong else .record r := by
  unfold jsonlLine
  rw [hBlank, hLoads]
  split <;> rfl

variable {env : Insertion} {codec : Codec} {opts : Options} {dumps : Dumps} {size : Nat}
  {servers : List Server} {rows : List ServerMetric} {db db' : Database}
  {batch batch' : List PendingRow}

theorem metricLines_archiveOf (hJson : JsonFaithful dumps codec servers rows) :
    (archiveOf dumps size servers rows).metricLines codec = rows.map fun m =>
      if maxJsonlLineBytes < (metricText dumps m).length then .tooLong
      else .record (metricRecord m) := by
  change (readLines (rows.flatMap fun m => dumps.metric (minimizeMetric m) ++ ['\n'])).map _ = _
  rw [readLines_flatMap hJson.metricNewline, List.map_map]
  exact List.map_congr_left fun m hm =>
    jsonlLine_eq (hJson.metricBlank m hm) (hJson.metricLoads m hm)

theorem serverLines_archiveOf (hJson : JsonFaithful dumps codec servers rows) :
    (archiveOf dumps size servers rows).serverLines codec = servers.map fun s =>
      if maxJsonlLineBytes < (serverText dumps s).length then .tooLong
      else .record (serverRecord s) := by
  change (readLines (servers.flatMap fun s => dumps.server s ++ ['\n'])).map _ = _
  rw [readLines_flatMap hJson.serverNewline, List.map_map]
  exact List.map_congr_left fun s hs =>
    jsonlLine_eq (hJson.serverBlank s hs) (hJson.serverLoads s hs)

/-! ## Exactness -/

/-- The restore completes, and adds exactly the minimized rows, up to their ids. -/
def Recreates (env : Insertion) (codec : Codec) (opts : Options) (archive : Archive)
    (db : Database) (rows : List ServerMetric) : Prop :=
  ∃ db', restore env codec opts archive db = .ok db' ∧
    ∃ added, db'.metrics = db.metrics ++ added ∧
      (added.map eraseId).Perm (rows.map fun m => eraseId (minimizeMetric m))

/-- Rows of one server and one time are in the same 300 of the archive. -/
def SameBlock (rows : List ServerMetric) : Prop :=
  ∀ i j a b, rows[i]? = some a → rows[j]? = some b → a.serverId = b.serverId →
    a.collectedAt = b.collectedAt → i / 300 = j / 300

/-- The archive is within the limits of the reader. -/
structure Restorable (dumps : Dumps) (opts : Options) (size : Nat) (servers : List Server)
    (rows : List ServerMetric) : Prop where
  size_le : size ≤ maxArchiveBytes
  metrics_le : (rows.flatMap (metricText dumps)).length ≤ maxMetricsBytes
  servers_le : (servers.flatMap (serverText dumps)).length ≤ maxServersBytes
  metric_le : ∀ m ∈ rows, (metricText dumps m).length ≤ maxJsonlLineBytes
  server_le : opts.createDisabledServers = true →
    ∀ s ∈ servers, (serverText dumps s).length ≤ maxJsonlLineBytes
  sameBlock : SameBlock rows

theorem archiveOf_rejected : (archiveOf dumps size servers rows).rejected opts = false ↔
    size ≤ maxArchiveBytes ∧ (rows.flatMap (metricText dumps)).length ≤ maxMetricsBytes ∧
      (servers.flatMap (serverText dumps)).length ≤ maxServersBytes := by
  change (decide (maxArchiveBytes < size) || false ||
    decide (maxMetricsBytes < (rows.flatMap (metricText dumps)).length) ||
      decide (maxServersBytes < (servers.flatMap (serverText dumps)).length)) = false ↔ _
  simp only [Bool.or_false, Bool.or_eq_false_iff, decide_eq_false_iff_not, not_lt, and_assoc]

/-! ### The servers -/

/-- A record of a server is never refused, and leaves the metrics alone. -/
theorem foldlM_serverRecords (sources : List ServerRecord) (db : Database) :
    ∃ db', (sources.map Line.record).foldlM serverLine db = .ok db' ∧ db'.metrics = db.metrics ∧
      ∀ serverId, db.knows serverId = true → db'.knows serverId = true := by
  induction sources generalizing db with
  | nil => exact ⟨db, rfl, rfl, fun _ h => h⟩
  | cons source sources ih =>
    rw [List.map_cons, List.foldlM_cons, serverLine]
    split
    · exact ih db
    · obtain ⟨db', hRun, hMetrics, hKnows⟩ :=
        ih { db with servers := db.servers ++ [restoredServer db source] }
      refine ⟨db', hRun, hMetrics, fun serverId hKnown => hKnows serverId ?_⟩
      rw [Database.knows, List.any_append, Bool.or_eq_true]
      exact .inl hKnown

theorem restoreServers_archiveOf (hJson : JsonFaithful dumps codec servers rows)
    (hShort : opts.createDisabledServers = true →
      ∀ s ∈ servers, (serverText dumps s).length ≤ maxJsonlLineBytes) :
    ∃ db', restoreServers codec opts (archiveOf dumps size servers rows) db = .ok db' ∧
      db'.metrics = db.metrics ∧
        ∀ serverId, db.knows serverId = true → db'.knows serverId = true := by
  unfold restoreServers
  split
  · rename_i hCreate
    have hLines : (archiveOf dumps size servers rows).serverLines codec =
        (servers.map serverRecord).map Line.record := by
      rw [serverLines_archiveOf hJson, List.map_map]
      exact List.map_congr_left fun s hs => if_neg (not_lt.mpr (hShort hCreate s hs))
    rw [hLines]
    exact foldlM_serverRecords _ db
  · exact ⟨db, rfl, rfl, fun _ h => h⟩

theorem server_le_of_ok (hJson : JsonFaithful dumps codec servers rows)
    (h : restoreServers codec opts (archiveOf dumps size servers rows) db = .ok db')
    (hCreate : opts.createDisabledServers = true) :
    ∀ s ∈ servers, (serverText dumps s).length ≤ maxJsonlLineBytes := by
  rw [restoreServers, if_pos hCreate, serverLines_archiveOf hJson] at h
  intro s hs
  by_contra hLong
  obtain ⟨d, d', hLine⟩ := exists_ok_of_foldlM h _ (List.mem_map_of_mem hs)
  rw [if_pos (not_le.mp hLong)] at hLine
  cases hLine

/-! ### The metrics -/

def pendingRow (m : ServerMetric) : PendingRow where
  serverId := m.serverId
  collectedAt := some m.collectedAt
  columns := minimizeMetric m
  storable := true

/-- The table after a batch of such rows. -/
def storeRows (env : Insertion) (db : Database) (rows : List ServerMetric) : Database :=
  { db with metrics := (rows.map pendingRow).foldl (insertRow env) db.metrics }

theorem commitBatch_pendingRows :
    commitBatch env db (rows.map pendingRow) = .ok (storeRows env db rows) := by
  have hAll : (rows.map pendingRow).all PendingRow.storable = true := by
    simp [List.all_map, pendingRow]
  rw [commitBatch, if_pos hAll, storeRows]

theorem storeRows_append (rows' : List ServerMetric) :
    storeRows env (storeRows env db rows) rows' = storeRows env db (rows ++ rows') := by
  simp [storeRows]

/-- The rows are added as they were minimized. -/
theorem exists_storeRows (env : Insertion) (db : Database) (rows : List ServerMetric) :
    ∃ added, (storeRows env db rows).metrics = db.metrics ++ added ∧
      added.map eraseId = rows.map fun m => eraseId (minimizeMetric m) := by
  induction rows generalizing db with
  | nil => exact ⟨[], (List.append_nil _).symm, rfl⟩
  | cons m rows ih =>
    obtain ⟨added, hRows, hErase⟩ := ih (storeRows env db [m])
    obtain ⟨row, hRow, hRowErase⟩ : ∃ row, (storeRows env db [m]).metrics = db.metrics ++ [row] ∧
        eraseId row = eraseId (minimizeMetric m) := ⟨_, rfl, rfl⟩
    refine ⟨row :: added, ?_, ?_⟩
    · rw [← List.singleton_append, ← storeRows_append, hRows, hRow, List.append_assoc,
        List.singleton_append]
    · rw [List.map_cons, List.map_cons, hErase, hRowErase]

theorem length_storeRows : (storeRows env db rows).metrics.length =
    db.metrics.length + rows.length := by
  obtain ⟨added, hRows, hErase⟩ := exists_storeRows env db rows
  have hLength := congrArg List.length hErase
  rw [List.length_map, List.length_map] at hLength
  rw [hRows, List.length_append, hLength]

theorem holds_storeRows {serverId : Nat} {time : Int} :
    (storeRows env db rows).holds serverId time = true ↔ db.holds serverId time = true ∨
      ∃ m ∈ rows, m.serverId = serverId ∧ m.collectedAt = time := by
  obtain ⟨added, hRows, hErase⟩ := exists_storeRows env db rows
  have hSame : (∃ m ∈ added, m.serverId = serverId ∧ m.collectedAt = time) ↔
      ∃ m ∈ rows, m.serverId = serverId ∧ m.collectedAt = time := by
    have hKeys := congrArg (List.map fun m : ServerMetric => (m.serverId, m.collectedAt)) hErase
    rw [List.map_map, List.map_map] at hKeys
    have hMem : (serverId, time) ∈ added.map (fun m => (m.serverId, m.collectedAt)) ↔
        (serverId, time) ∈ rows.map fun m => (m.serverId, m.collectedAt) := iff_of_eq
      (congrArg (fun keys => (serverId, time) ∈ keys) hKeys)
    simpa [List.mem_map] using hMem
  rw [holds_iff, holds_iff, hRows, ← hSame]
  simp [or_and_right, exists_or]

/-! ### Batches -/

def rowLine (m : ServerMetric) : Line MetricRecord := .record (metricRecord m)

/-- The restore after `n` rows of which it skipped none. -/
def afterRows (env : Insertion) (db : Database) (rows : List ServerMetric) (n : Nat) :
    Database × List PendingRow :=
  (storeRows env db (rows.take (300 * (n / 300))),
    ((rows.take n).drop (300 * (n / 300))).map pendingRow)

/-- Row `n` is not among those that are committed when it is read. -/
def Fresh (env : Insertion) (db : Database) (rows : List ServerMetric) (n : Nat) : Prop :=
  ∀ m ∈ rows[n]?, (storeRows env db (rows.take (300 * (n / 300)))).holds m.serverId
    m.collectedAt = false

theorem metricLine_row {m : ServerMetric} (hKnown : db.knows m.serverId = true) :
    metricLine env (db, batch) (rowLine m) =
      if db.holds m.serverId m.collectedAt = true then .ok (db, batch)
      else addRow env db batch (pendingRow m) := by
  have hServer : (some m.serverId).filter db.knows = some m.serverId := by
    rw [Option.filter_some, if_pos hKnown]
  simp only [rowLine, metricRecord, metricLine, hServer]
  rfl

theorem afterRows_succ {n : Nat} (hn : n < rows.length) (hKnown : db.knows rows[n].serverId = true)
    (hFresh : Fresh env db rows n) :
    metricLine env (afterRows env db rows n) (rowLine rows[n]) =
      .ok (afterRows env db rows (n + 1)) := by
  have hNew := hFresh rows[n] (List.getElem?_eq_getElem hn)
  have hKnown : (storeRows env db (rows.take (300 * (n / 300)))).knows rows[n].serverId = true :=
    hKnown
  have hFull : 300 * (n / 300) ≤ n := Nat.mul_div_le n 300
  have hBatch : ((rows.take n).drop (300 * (n / 300))).map pendingRow ++ [pendingRow rows[n]] =
      ((rows.take (n + 1)).drop (300 * (n / 300))).map pendingRow := by
    have hLe : 300 * (n / 300) ≤ (rows.take n).length := by
      rw [List.length_take]
      omega
    rw [List.take_succ_eq_append_getElem hn, List.drop_append_of_le_length hLe, List.map_append]
    rfl
  have hLength : (((rows.take (n + 1)).drop (300 * (n / 300))).map pendingRow).length =
      n + 1 - 300 * (n / 300) := by
    rw [List.length_map, List.length_drop, List.length_take]
    omega
  rw [afterRows, metricLine_row hKnown, hNew, if_neg Bool.false_ne_true, addRow, hBatch, hLength]
  split
  · -- the batch is full, so `n + 1` is a multiple of 300
    have hNext : 300 * ((n + 1) / 300) = n + 1 := by omega
    have hRows : rows.take (300 * (n / 300)) ++ (rows.take (n + 1)).drop (300 * (n / 300)) =
        rows.take (n + 1) := by
      have hTake : rows.take (300 * (n / 300)) =
          (rows.take (n + 1)).take (300 * (n / 300)) := by
        rw [List.take_take, Nat.min_eq_left (by omega)]
      rw [hTake, List.take_append_drop]
    rw [commitBatch_pendingRows, storeRows_append, hRows, afterRows, hNext,
      List.drop_eq_nil_of_le (List.length_take_le _ _)]
    rfl
  · have hSame : (n + 1) / 300 = n / 300 := by omega
    rw [afterRows, hSame]

/-- Without a skip, the rows are read as `afterRows` says. -/
theorem foldlM_rows {n : Nat} (hn : n ≤ rows.length)
    (hKnown : ∀ m ∈ rows, db.knows m.serverId = true) (hFresh : ∀ k < n, Fresh env db rows k) :
    ((rows.take n).map rowLine).foldlM (metricLine env) (db, []) = .ok (afterRows env db rows n) := by
  induction n with
  | zero => rfl
  | succ n ih =>
    rw [List.take_succ_eq_append_getElem hn, List.map_append, List.map_singleton, foldlM_concat,
      ih (by omega) fun k hk => hFresh k (by omega)]
    exact afterRows_succ hn (hKnown _ (List.getElem_mem hn)) (hFresh n (by omega))

/-! ### Counting -/

/-- The rows that are stored or wait. -/
def weight (s : Database × List PendingRow) : Nat := s.1.metrics.length + s.2.length

theorem weight_commitBatch (h : commitBatch env db batch = .ok db') :
    db'.metrics.length = db.metrics.length + batch.length := by
  have hFold : ∀ (batch : List PendingRow) (rows : List ServerMetric),
      (batch.foldl (insertRow env) rows).length = rows.length + batch.length := by
    intro batch
    induction batch with
    | nil => exact fun rows => rfl
    | cons p batch ih =>
      intro rows
      rw [List.foldl_cons, ih, insertRow, List.length_append, List.length_singleton,
        List.length_cons]
      omega
  unfold commitBatch at h
  split at h
  · cases h
    exact hFold batch db.metrics
  · cases h

theorem weight_addRow {p : PendingRow} (h : addRow env db batch p = .ok (db', batch')) :
    weight (db', batch') = weight (db, batch) + 1 := by
  rcases addRow_cases h with ⟨rfl, rfl⟩ | ⟨hCommit, rfl⟩
  · simp only [weight, List.length_append, List.length_singleton]
    omega
  · have := weight_commitBatch hCommit
    simp only [weight, List.length_append, List.length_singleton, List.length_nil] at this ⊢
    omega

theorem weight_metricLine {line : Line MetricRecord}
    (h : metricLine env (db, batch) line = .ok (db', batch')) :
    weight (db', batch') ≤ weight (db, batch) + 1 := by
  cases line with
  | tooLong | malformed => cases h
  | blank =>
    cases h
    exact Nat.le_succ _
  | record obj =>
    simp only [metricLine] at h
    split at h
    · cases h
      exact Nat.le_succ _
    · split at h
      · cases h
      · exact (weight_addRow h).le
      · split at h
        · cases h
          exact Nat.le_succ _
        · exact (weight_addRow h).le

/-- A line adds at most one row. -/
theorem weight_foldlM {lines : List (Line MetricRecord)} {s s' : Database × List PendingRow}
    (h : lines.foldlM (metricLine env) s = .ok s') : weight s' ≤ weight s + lines.length := by
  induction lines generalizing s with
  | nil =>
    cases h
    exact Nat.le_refl _
  | cons line lines ih =>
    rw [List.foldlM_cons] at h
    obtain ⟨next, hFirst, hRest⟩ := ok_of_bind h
    have hLine : weight next ≤ weight s + 1 := weight_metricLine hFirst
    have := ih hRest
    rw [List.length_cons]
    omega

theorem weight_afterRows {n : Nat} (hn : n ≤ rows.length) :
    weight (afterRows env db rows n) = db.metrics.length + n := by
  simp only [weight, afterRows, length_storeRows, List.length_map, List.length_drop,
    List.length_take]
  omega

/-- A restore that added a row for every line skipped none. -/
theorem fresh_of_weight {s : Database × List PendingRow}
    (hServers : ∀ m ∈ rows, db.knows m.serverId = true)
    (h : (rows.map rowLine).foldlM (metricLine env) (db, []) = .ok s)
    (hWeight : weight s = db.metrics.length + rows.length) :
    ∀ n ≤ rows.length, ∀ k < n, Fresh env db rows k := by
  intro n
  induction n with
  | zero =>
    intro _ k hk
    omega
  | succ n ih =>
    intro hn k hk
    have hBefore := ih (by omega)
    rcases Nat.lt_succ_iff_lt_or_eq.mp hk with hOld | rfl
    · exact hBefore k hOld
    intro m hm
    by_contra hHeld
    have hHeld : (storeRows env db (rows.take (300 * (k / 300)))).holds m.serverId m.collectedAt =
        true := by simpa using hHeld
    obtain ⟨hLt, rfl⟩ := List.getElem?_eq_some_iff.mp hm
    -- row `k` is skipped, and the rows after it cannot make up for it
    have hRows : rows.map rowLine = (rows.take k).map rowLine ++
        rowLine rows[k] :: (rows.drop (k + 1)).map rowLine := by
      rw [← List.map_cons, ← List.map_append, List.cons_getElem_drop_succ, List.take_append_drop]
    have hKnown : (storeRows env db (rows.take (300 * (k / 300)))).knows rows[k].serverId = true :=
      hServers _ (List.getElem_mem hLt)
    have hSkip : metricLine env (afterRows env db rows k) (rowLine rows[k]) =
        .ok (afterRows env db rows k) := by
      rw [afterRows, metricLine_row hKnown, if_pos hHeld]
    rw [hRows, List.foldlM_append, foldlM_rows (by omega) hServers hBefore] at h
    have h : (rowLine rows[k] :: (rows.drop (k + 1)).map rowLine).foldlM (metricLine env)
        (afterRows env db rows k) = .ok s := h
    rw [List.foldlM_cons, hSkip] at h
    have hRest : weight s ≤ weight (afterRows env db rows k) +
        ((rows.drop (k + 1)).map rowLine).length := weight_foldlM h
    rw [weight_afterRows (by omega), List.length_map, List.length_drop] at hRest
    omega

/-! ### The equivalence -/

theorem fresh_iff_sameBlock (hNew : ∀ m ∈ rows, db.holds m.serverId m.collectedAt = false) :
    (∀ k < rows.length, Fresh env db rows k) ↔ SameBlock rows := by
  constructor
  · intro hFresh i j a b ha hb hServer hTime
    have hLe : ∀ {i j : Nat} {a b : ServerMetric}, rows[i]? = some a → rows[j]? = some b →
        a.serverId = b.serverId → a.collectedAt = b.collectedAt → j / 300 ≤ i / 300 := by
      intro i j a b ha hb hServer hTime
      by_contra hLater
      obtain ⟨hi, rfl⟩ := List.getElem?_eq_some_iff.mp ha
      obtain ⟨hj, rfl⟩ := List.getElem?_eq_some_iff.mp hb
      have hBefore : i < 300 * (j / 300) := by omega
      have hMem : rows[i] ∈ rows.take (300 * (j / 300)) :=
        List.mem_take_iff_getElem.mpr ⟨i, by omega, rfl⟩
      have hHeld : (storeRows env db (rows.take (300 * (j / 300)))).holds rows[j].serverId
          rows[j].collectedAt = true := holds_storeRows.mpr (.inr ⟨_, hMem, hServer, hTime⟩)
      rw [hFresh j hj _ hb] at hHeld
      cases hHeld
    exact le_antisymm (hLe hb ha hServer.symm hTime.symm) (hLe ha hb hServer hTime)
  · intro hBlock k hk m hm
    by_contra hHeld
    have hHeld : (storeRows env db (rows.take (300 * (k / 300)))).holds m.serverId m.collectedAt =
        true := by simpa using hHeld
    rcases holds_storeRows.mp hHeld with hOld | ⟨a, ha, hServer, hTime⟩
    · rw [hNew m (List.mem_of_getElem? hm)] at hOld
      cases hOld
    · obtain ⟨i, hi, rfl⟩ := List.mem_take_iff_getElem.mp ha
      have := hBlock i k _ m (List.getElem?_eq_getElem (by omega)) hm hServer hTime
      omega

/-- The restore of rows that all fit the line limit. -/
theorem restoreMetrics_rows (hKnown : ∀ m ∈ rows, db.knows m.serverId = true)
    (hNew : ∀ m ∈ rows, db.holds m.serverId m.collectedAt = false) {archive : Archive}
    (hLines : archive.metricLines codec = rows.map rowLine) :
    (∃ db', restoreMetrics env codec archive db = .ok db' ∧
      ∃ added, db'.metrics = db.metrics ++ added ∧
        (added.map eraseId).Perm (rows.map fun m => eraseId (minimizeMetric m))) ↔
      SameBlock rows := by
  rw [restoreMetrics_eq, hLines]
  constructor
  · rintro ⟨db', hRun, added, hAdded, hPerm⟩
    obtain ⟨s, hLoop, hEnd⟩ := ok_of_bind hRun
    have hTotal : db'.metrics.length = weight s := by
      split at hEnd
      · rename_i hEmpty
        cases hEnd
        rw [weight, hEmpty, List.length_nil, Nat.add_zero]
      · exact weight_commitBatch hEnd
    have hCount := hPerm.length_eq
    rw [List.length_map, List.length_map] at hCount
    rw [hAdded, List.length_append, hCount] at hTotal
    exact (fresh_iff_sameBlock hNew).mp
      (fresh_of_weight hKnown hLoop hTotal.symm rows.length le_rfl)
  · intro hBlock
    have hFresh : ∀ k < rows.length, Fresh env db rows k := (fresh_iff_sameBlock hNew).mpr hBlock
    have hLoop := foldlM_rows le_rfl hKnown hFresh
    rw [List.take_length] at hLoop
    obtain ⟨added, hAdded, hErase⟩ := exists_storeRows env db rows
    refine ⟨storeRows env db rows, ?_, added, hAdded, .of_eq hErase⟩
    have hWhole : storeRows env (afterRows env db rows rows.length).1
        ((rows.take rows.length).drop (300 * (rows.length / 300))) = storeRows env db rows := by
      rw [afterRows, storeRows_append, List.take_length, List.take_append_drop]
    rw [hLoop, ← hWhole]
    change (if (afterRows env db rows rows.length).2 = [] then _ else _) = _
    split
    · rename_i hEmpty
      rw [List.map_eq_nil_iff.mp hEmpty]
      rfl
    · exact commitBatch_pendingRows

theorem not_tooLong_of_ok {env : Insertion} (hJson : JsonFaithful dumps codec servers rows)
    (h : restoreMetrics env codec (archiveOf dumps size servers rows) db = .ok db') :
    ∀ m ∈ rows, (metricText dumps m).length ≤ maxJsonlLineBytes := by
  rw [restoreMetrics_eq, metricLines_archiveOf hJson] at h
  obtain ⟨s, hLoop, -⟩ := ok_of_bind h
  intro m hm
  by_contra hLong
  obtain ⟨d, d', hLine⟩ := exists_ok_of_foldlM hLoop _ (List.mem_map_of_mem hm)
  rw [if_pos (not_le.mp hLong)] at hLine
  cases hLine

theorem recreates_iff (hJson : JsonFaithful dumps codec servers rows)
    (hKnown : ∀ m ∈ rows, db.knows m.serverId = true)
    (hNew : ∀ m ∈ rows, db.holds m.serverId m.collectedAt = false) :
    Recreates env codec opts (archiveOf dumps size servers rows) db rows ↔
      Restorable dumps opts size servers rows := by
  -- with all lines short, the servers are restored and the rows are what counts
  have hRows : (opts.createDisabledServers = true →
        ∀ s ∈ servers, (serverText dumps s).length ≤ maxJsonlLineBytes) →
      (∀ m ∈ rows, (metricText dumps m).length ≤ maxJsonlLineBytes) →
      (archiveOf dumps size servers rows).rejected opts = false →
      (Recreates env codec opts (archiveOf dumps size servers rows) db rows ↔ SameBlock rows) := by
    intro hServers hMetrics hAccepted
    obtain ⟨db₁, hRun, hSame, hKnows⟩ :
        ∃ db', restoreServers codec opts (archiveOf dumps size servers rows) db = .ok db' ∧
          db'.metrics = db.metrics ∧
            ∀ serverId, db.knows serverId = true → db'.knows serverId = true :=
      restoreServers_archiveOf hJson hServers
    have hLines : (archiveOf dumps size servers rows).metricLines codec = rows.map rowLine := by
      rw [metricLines_archiveOf hJson]
      exact List.map_congr_left fun m hm => if_neg (not_lt.mpr (hMetrics m hm))
    have hNew₁ : ∀ m ∈ rows, db₁.holds m.serverId m.collectedAt = false := by
      intro m hm
      rw [Database.holds, hSame]
      exact hNew m hm
    rw [Recreates, restore_eq hAccepted, hRun, ← hSame]
    exact restoreMetrics_rows (fun m hm => hKnows _ (hKnown m hm)) hNew₁ hLines
  constructor
  · intro hRecreates
    obtain ⟨db', hRestore, -⟩ := id hRecreates
    have hAccepted := not_rejected_of_restore hRestore
    rw [restore_eq hAccepted] at hRestore
    obtain ⟨db₁, hServers, hMetrics⟩ := ok_of_bind hRestore
    obtain ⟨hSize, hMetricsSize, hServersSize⟩ := archiveOf_rejected.mp hAccepted
    have hServerLines := server_le_of_ok hJson hServers
    have hMetricLines := not_tooLong_of_ok hJson hMetrics
    exact ⟨hSize, hMetricsSize, hServersSize, hMetricLines, hServerLines,
      (hRows hServerLines hMetricLines hAccepted).mp hRecreates⟩
  · rintro ⟨hSize, hMetricsSize, hServersSize, hMetricLines, hServerLines, hBlock⟩
    exact (hRows hServerLines hMetricLines
      (archiveOf_rejected.mpr ⟨hSize, hMetricsSize, hServersSize⟩)).mpr hBlock

/-- The expired rows of a table, archived and restored: they are recreated exactly when the
archive is within the limits of the reader and no two of equal server and time are apart. -/
theorem restore_recreates_iff (table : List ServerMetric) (cutoff : Int) (size : Nat)
    (hJson : JsonFaithful dumps codec servers (expiredRows cutoff table))
    (hKnown : ∀ m ∈ table, m.collectedAt < cutoff → db.knows m.serverId = true)
    (hNew : ∀ m ∈ table, m.collectedAt < cutoff →
      db.holds m.serverId m.collectedAt = false) :
    Recreates env codec opts (archiveOf dumps size servers (expiredRows cutoff table)) db
        (table.filter fun m => m.collectedAt < cutoff) ↔
      Restorable dumps opts size servers (expiredRows cutoff table) := by
  have hPerm : (expiredRows cutoff table).Perm (table.filter fun m => m.collectedAt < cutoff) :=
    List.perm_insertionSort _ _
  have hMem : ∀ m ∈ expiredRows cutoff table, m ∈ table ∧ m.collectedAt < cutoff := by
    intro m hm
    simpa using hPerm.mem_iff.mp hm
  rw [← recreates_iff hJson (fun m hm => hKnown m (hMem m hm).1 (hMem m hm).2)
    fun m hm => hNew m (hMem m hm).1 (hMem m hm).2]
  constructor <;> rintro ⟨db', hRestore, added, hAdded, hSame⟩
  · exact ⟨db', hRestore, added, hAdded, hSame.trans (hPerm.symm.map _)⟩
  · exact ⟨db', hRestore, added, hAdded, hSame.trans (hPerm.map _)⟩

/-! ## 301 rows

One server, one row a microsecond, all columns at their defaults. The last row has the time of
the first. -/

def sampleMicros (i : Nat) : Nat := if i = 300 then 1 else i + 1

def sampleRow (i : Nat) : ServerMetric where
  id := i + 1
  serverId := 1
  collectedAt := seconds 1767225600 + sampleMicros i

def microsText (n : Nat) : Text := List.replicate (6 - (PyText.natText n).length) '0' ++ PyText.natText n

def defaultsText : Text :=
  ("+00:00\", \"sample_interval_seconds\": null, \"hostname\": \"\", \"os\": \"\", " ++
  "\"kernel\": \"\", \"uptime_seconds\": 0, \"boot_id\": \"\", \"cpu_model\": \"\", " ++
  "\"cpu_count\": 0, \"cpu_percent\": 0.0, \"cpu_iowait\": 0.0, \"cpu_freq_avg\": 0.0, " ++
  "\"cpu_temp_package\": 0.0, \"cores\": [], \"load1\": 0.0, \"load5\": 0.0, " ++
  "\"load15\": 0.0, \"mem_total_mb\": 0.0, \"mem_used_mb\": 0.0, " ++
  "\"mem_available_mb\": 0.0, \"mem_cached_mb\": 0.0, \"swap_total_mb\": 0.0, " ++
  "\"swap_used_mb\": 0.0, \"disk_total_gb\": 0.0, \"disk_used_gb\": 0.0, \"disks\": [], " ++
  "\"inodes\": [], \"disk_io\": [], \"net_rx_bytes\": 0.0, \"net_tx_bytes\": 0.0, " ++
  "\"net_ifaces\": [], \"users\": [], \"sock_estab\": 0, \"sock_timewait\": 0, " ++
  "\"fd_allocated\": 0, \"fd_max\": 0, \"gpu_count\": 0, \"gpu_driver\": \"\", " ++
  "\"gpus\": [], \"processes\": [], \"duration\": 0.0, \"ssh_latency\": 0.0, " ++
  "\"status\": \"ok\", \"error_code\": \"OK\", \"error\": \"\"\x7d").toList

def sampleText (id micros : Nat) : Bytes :=
  "\x7b\"id\": ".toList ++ PyText.natText id ++
    ", \"server_id\": 1, \"collected_at\": \"2026-01-01 00:00:00.".toList ++ microsText micros ++
    defaultsText

def sampleDumps : Dumps where
  metric m := sampleText m.id (m.collectedAt - seconds 1767225600).toNat
  server _ := "\x7b\"id\": 1, \"name\": \"gpu-01\", \"server_type\": \"gpu\", \"tags\": []\x7d".toList

def sampleServer : Server where
  id := 1
  name := "gpu-01"

/-- Reads the sample rows, by the id in their text. -/
def sampleCodec : Codec where
  loadServer line := if line = serverText sampleDumps sampleServer then
      some (serverRecord sampleServer)
    else none
  loadMetric line :=
    let m := sampleRow (PyText.parseNat ((line.drop 7).takeWhile Char.isDigit) - 1)
    if line = metricText sampleDumps m then some (metricRecord m) else none

def sampleTable (n : Nat) : List ServerMetric := (List.range n).map sampleRow

theorem sampleRow_text (i : Nat) :
    metricText sampleDumps (sampleRow i) = sampleText (i + 1) (sampleMicros i) ++ ['\n'] := by
  have hMicros : (sampleRow i).collectedAt - seconds 1767225600 = sampleMicros i := by
    simp [sampleRow]
  change sampleText (i + 1) ((sampleRow i).collectedAt - seconds 1767225600).toNat ++ ['\n'] = _
  rw [hMicros, Int.toNat_natCast]

theorem comma_text : ", \"server_id\": 1, \"collected_at\": \"2026-01-01 00:00:00.".toList =
    ',' :: " \"server_id\": 1, \"collected_at\": \"2026-01-01 00:00:00.".toList := by
  decide +kernel

theorem exists_sampleText (id micros : Nat) : ∃ tail, sampleText id micros =
    "\x7b\"id\": ".toList ++ (PyText.natText id ++ ',' :: tail) := by
  refine ⟨" \"server_id\": 1, \"collected_at\": \"2026-01-01 00:00:00.".toList ++
    (microsText micros ++ defaultsText), ?_⟩
  unfold sampleText
  generalize defaultsText = defaults
  generalize microsText micros = fraction
  rw [comma_text]
  simp only [List.append_assoc, List.cons_append]

theorem newline_append {a b : Bytes} (ha : '\n' ∉ a) (hb : '\n' ∉ b) : '\n' ∉ a ++ b :=
  fun hIn => (List.mem_append.mp hIn).elim ha hb

theorem newline_natText (n : Nat) : '\n' ∉ PyText.natText n := by
  intro hIn
  cases PyText.isDigit_of_mem_natText hIn

theorem newline_microsText (n : Nat) : '\n' ∉ microsText n := by
  refine newline_append (fun hPad => ?_) (newline_natText n)
  cases List.eq_of_mem_replicate hPad

/-- A literal is compared with its characters, without decoding its bytes. -/
theorem newline_literal {s : String} {chars : List Char} (h : s = String.ofList chars)
    (hChars : '\n' ∉ chars) : '\n' ∉ s.toList := by
  rw [h, String.toList_ofList]
  exact hChars

theorem newline_defaultsText : '\n' ∉ defaultsText := by
  unfold defaultsText
  simp only [String.toList_append, List.mem_append, not_or]
  and_intros <;> exact newline_literal rfl (by decide)

theorem newline_literals : '\n' ∉ "\x7b\"id\": ".toList ∧
    '\n' ∉ ", \"server_id\": 1, \"collected_at\": \"2026-01-01 00:00:00.".toList ∧
      '\n' ∉ defaultsText :=
  ⟨newline_literal rfl (by decide), newline_literal rfl (by decide), newline_defaultsText⟩

theorem newline_sampleText (id micros : Nat) : '\n' ∉ sampleText id micros := by
  obtain ⟨hFront, hComma, hDefaults⟩ := newline_literals
  unfold sampleText
  generalize defaultsText = defaults at hDefaults ⊢
  exact newline_append (newline_append (newline_append
    (newline_append hFront (newline_natText id)) hComma) (newline_microsText micros)) hDefaults

theorem sampleRow_loads (i : Nat) : sampleCodec.loadMetric (metricText sampleDumps (sampleRow i)) =
    some (metricRecord (sampleRow i)) := by
  have hId : PyText.parseNat (((metricText sampleDumps (sampleRow i)).drop 7).takeWhile
      Char.isDigit) - 1 = i := by
    obtain ⟨tail, hTail⟩ := exists_sampleText (i + 1) (sampleMicros i)
    have hDrop : (metricText sampleDumps (sampleRow i)).drop 7 =
        PyText.natText (i + 1) ++ ',' :: (tail ++ ['\n']) := by
      rw [sampleRow_text, hTail]
      simp only [List.append_assoc, List.cons_append]
      rfl
    have hTake : (',' :: (tail ++ ['\n'])).takeWhile Char.isDigit = [] :=
      List.takeWhile_cons_of_neg (by decide)
    rw [hDrop, List.takeWhile_append_of_pos fun c hc => PyText.isDigit_of_mem_natText hc, hTake,
      List.append_nil, PyText.parseNat_natText, Nat.add_sub_cancel]
  simp only [sampleCodec, hId, if_true]

theorem sample_faithful {rows : List ServerMetric} (h : ∀ m ∈ rows, ∃ i, m = sampleRow i) :
    JsonFaithful sampleDumps sampleCodec [sampleServer] rows where
  metricNewline := by
    intro m hm
    obtain ⟨i, rfl⟩ := h m hm
    exact newline_sampleText _ _
  metricBlank := by
    intro m hm
    obtain ⟨i, rfl⟩ := h m hm
    obtain ⟨tail, hTail⟩ := exists_sampleText (i + 1) (sampleMicros i)
    rw [sampleRow_text, hTail]
    rfl
  metricLoads := by
    intro m hm
    obtain ⟨i, rfl⟩ := h m hm
    exact sampleRow_loads i
  serverNewline := by
    intro s hs
    rw [List.mem_singleton.mp hs]
    decide +kernel
  serverBlank := by
    intro s hs
    rw [List.mem_singleton.mp hs]
    decide +kernel
  serverLoads := by
    intro s hs
    rw [List.mem_singleton.mp hs]
    simp only [sampleCodec, if_true]

/-- The sample rows are all expired, and in the order of their ids. -/
theorem expiredRows_sampleTable {n : Nat} (hn : n ≤ 301) :
    expiredRows (seconds 1767225601) (sampleTable n) = sampleTable n := by
  have hAll : (sampleTable n).filter (fun m => m.collectedAt < seconds 1767225601) =
      sampleTable n := by
    refine List.filter_eq_self.mpr fun m hm => ?_
    obtain ⟨i, hi, rfl⟩ := List.mem_map.mp hm
    have hLt := List.mem_range.mp hi
    have hMicros : sampleMicros i ≤ 301 := by
      unfold sampleMicros
      split <;> omega
    refine decide_eq_true ?_
    change seconds 1767225600 + (sampleMicros i : Int) < seconds 1767225601
    unfold seconds
    omega
  have hSorted : (sampleTable n).Pairwise fun a b => a.id ≤ b.id := by
    rw [sampleTable, List.pairwise_map]
    refine List.pairwise_lt_range.imp fun {i j} hLt => ?_
    simp only [sampleRow]
    omega
  rw [expiredRows, hAll, List.Pairwise.insertionSort_eq hSorted]

theorem exists_sampleRow {n : Nat} : ∀ m ∈ sampleTable n, ∃ i, m = sampleRow i := by
  intro m hm
  obtain ⟨i, -, rfl⟩ := List.mem_map.mp hm
  exact ⟨i, rfl⟩

/-- A database with the server of the sample rows and none of its rows. -/
def sampleDatabase : Database := ⟨[sampleServer], []⟩

theorem sampleDatabase_knows {n : Nat} : ∀ m ∈ sampleTable n,
    sampleDatabase.knows m.serverId = true := by
  intro m hm
  obtain ⟨i, rfl⟩ := exists_sampleRow m hm
  rfl

/-- Two rows are restored exactly when two rows are within the limits. -/
theorem restore_recreates_iff_two :
    Recreates ⟨fun n => n + 1, fun _ => 0⟩ sampleCodec {}
        (archiveOf sampleDumps 4096 [sampleServer] (expiredRows (seconds 1767225601) (sampleTable 2)))
        sampleDatabase ((sampleTable 2).filter fun m => m.collectedAt < seconds 1767225601) ↔
      Restorable sampleDumps {} 4096 [sampleServer]
        (expiredRows (seconds 1767225601) (sampleTable 2)) := by
  have hJson : JsonFaithful sampleDumps sampleCodec [sampleServer]
      (expiredRows (seconds 1767225601) (sampleTable 2)) := by
    rw [expiredRows_sampleTable (by decide)]
    exact sample_faithful exists_sampleRow
  exact restore_recreates_iff (sampleTable 2) (seconds 1767225601) 4096 hJson
    (fun m hm _ => sampleDatabase_knows m hm) fun m _ _ => rfl

/-- The first 300 rows are committed when the last one is read, which has the time of the first
and is skipped. -/
theorem straddling_rows_lost :
    JsonFaithful sampleDumps sampleCodec [sampleServer]
        (expiredRows (seconds 1767225601) (sampleTable 301)) ∧
      (∀ m ∈ sampleTable 301, sampleDatabase.knows m.serverId = true) ∧
      (∀ m ∈ sampleTable 301, sampleDatabase.holds m.serverId m.collectedAt = false) ∧
      ¬ Recreates ⟨fun n => n + 1, fun _ => 0⟩ sampleCodec {}
        (archiveOf sampleDumps 4096 [sampleServer]
          (expiredRows (seconds 1767225601) (sampleTable 301)))
        sampleDatabase (expiredRows (seconds 1767225601) (sampleTable 301)) := by
  rw [expiredRows_sampleTable (by decide)]
  have hJson : JsonFaithful sampleDumps sampleCodec [sampleServer] (sampleTable 301) :=
    sample_faithful exists_sampleRow
  have hNew : ∀ m ∈ sampleTable 301, sampleDatabase.holds m.serverId m.collectedAt = false :=
    fun m _ => rfl
  refine ⟨hJson, sampleDatabase_knows, hNew, fun hRecreates => ?_⟩
  have hRestorable := (recreates_iff hJson sampleDatabase_knows hNew).mp hRecreates
  have hRow : ∀ i, i < 301 → (sampleTable 301)[i]? = some (sampleRow i) := by
    intro i hi
    rw [sampleTable, List.getElem?_map, List.getElem?_range hi]
    rfl
  have hBlock := hRestorable.sameBlock 0 300 _ _ (hRow 0 (by decide)) (hRow 300 (by decide)) rfl rfl
  omega

end GpuMon.Retention

import GpuMon.Library.BatchLoop
import GpuMon.Retention.Restore

/-!
# Interrupted restores

The duplicate check of a restore sees committed rows and not the batch, so what is restored
depends on where the batches end. A restore that is run again finds the batches of the first
run committed, skips their lines and goes on with the same batches.

* `restore_resumes`: if every record carries its key, a restore that was interrupted anywhere
  and is run again ends like one uninterrupted restore, and a second one changes nothing.
* `keyless_restored_twice`: records without their keys are restored every time.
-/

namespace GpuMon.Retention

open BatchLoop

/-! ## Records with keys -/

/-- The records name what the duplicate checks look for: a server its id, a metric its time. -/
structure Archive.Keyed (codec : Codec) (opts : Options) (archive : Archive) : Prop where
  servers : opts.createDisabledServers = true →
    ∀ source, Line.record source ∈ archive.serverLines codec → source.id ≠ none
  metrics : ∀ obj, Line.record obj ∈ archive.metricLines codec → obj.collectedAt ≠ .missing

/-! ### Servers -/

variable {env env' : Insertion} {codec : Codec} {opts : Options} {archive : Archive}
  {db db' : Database} {batch batch' : List PendingRow}

/-- The line needs no further work. -/
def ServerSettled (db : Database) : Line ServerRecord → Prop
  | .blank => True
  | .record source => source.id.any db.knows = true
  | _ => False

theorem serverLine_settled {line : Line ServerRecord} (h : ServerSettled db line) :
    serverLine db line = .ok db := by
  cases line with
  | blank => rfl
  | record source => exact if_pos h
  | tooLong | malformed => cases h

theorem knows_append {s : Server} {serverId : Nat} :
    ({ db with servers := db.servers ++ [s] } : Database).knows serverId =
      (db.knows serverId || decide (s.id = serverId)) := by
  simp [Database.knows]

theorem serverSettled_append {s : Server} {line : Line ServerRecord} (h : ServerSettled db line) :
    ServerSettled { db with servers := db.servers ++ [s] } line := by
  cases line with
  | blank => exact h
  | record source =>
    obtain ⟨id, hId, hKnown⟩ := (Option.any_eq_true _ _).mp h
    refine (Option.any_eq_true _ _).mpr ⟨id, hId, ?_⟩
    rw [knows_append, hKnown, Bool.true_or]
  | tooLong | malformed => exact h

theorem restoredServer_id {source : ServerRecord} {id : Nat} (h : source.id = some id) :
    (restoredServer db source).id = id := by
  change source.id.getD _ = id
  rw [h, Option.getD_some]

/-- What a line of the servers member does. -/
theorem serverLine_spec {line : Line ServerRecord}
    (hKeyed : ∀ source, line = .record source → source.id ≠ none)
    (h : serverLine db line = .ok db') :
    ServerSettled db' line ∧ ∀ other, ServerSettled db other → ServerSettled db' other := by
  cases line with
  | tooLong | malformed => cases h
  | blank =>
    cases h
    exact ⟨trivial, fun _ hOther => hOther⟩
  | record source =>
    simp only [serverLine] at h
    split at h
    · rename_i hKnown
      cases h
      exact ⟨hKnown, fun _ hOther => hOther⟩
    · cases h
      refine ⟨?_, fun _ hOther => serverSettled_append hOther⟩
      obtain ⟨id, hId⟩ := Option.ne_none_iff_exists'.mp (hKeyed source rfl)
      refine (Option.any_eq_true _ _).mpr ⟨id, hId, ?_⟩
      rw [knows_append, restoredServer_id hId, decide_eq_true rfl, Bool.or_true]

theorem foldlM_serverLine_settled {read : List (Line ServerRecord)}
    (hKeyed : ∀ source, Line.record source ∈ read → source.id ≠ none)
    (h : read.foldlM serverLine db = .ok db') : ∀ line ∈ read, ServerSettled db' line := by
  induction read using List.reverseRecOn generalizing db' with
  | nil =>
    intro line hLine
    cases hLine
  | append_singleton read line ih =>
    rw [foldlM_concat] at h
    obtain ⟨t, hRead, hItem⟩ := ok_of_bind h
    obtain ⟨hLine, hKeep⟩ := serverLine_spec
      (fun source hSource => hKeyed source (hSource ▸ List.mem_concat_self)) hItem
    intro other hOther
    rcases List.mem_append.mp hOther with hOld | hNew
    · exact hKeep other (ih (fun s hs => hKeyed s (List.mem_append_left _ hs)) hRead other hOld)
    · rw [List.mem_singleton.mp hNew]
      exact hLine

theorem foldlM_serverLine_resume {read rest : List (Line ServerRecord)}
    (hKeyed : ∀ source, Line.record source ∈ read → source.id ≠ none)
    (h : read.foldlM serverLine db = .ok db') :
    (read ++ rest).foldlM serverLine db' = (read ++ rest).foldlM serverLine db := by
  rw [List.foldlM_append, List.foldlM_append, h, foldlM_fixed fun line hLine =>
    serverLine_settled (foldlM_serverLine_settled hKeyed h line hLine)]

/-! ### Metrics -/

/-- The line needs no further work: its server is unknown or its row is stored. -/
def MetricSettled (db : Database) : Line MetricRecord → Prop
  | .blank => True
  | .record obj => ∀ serverId, obj.serverId = some serverId → db.knows serverId = true →
      ∃ time, obj.collectedAt = .at time ∧ db.holds serverId time = true
  | _ => False

/-- The row of the line waits in the batch. -/
def Waits (batch : List PendingRow) (line : Line MetricRecord) : Prop :=
  ∃ obj, line = .record obj ∧ ∃ p ∈ batch, obj.serverId = some p.serverId ∧
    ∃ time, obj.collectedAt = .at time ∧ p.collectedAt = some time

theorem metricLine_settled {line : Line MetricRecord} (h : MetricSettled db line) :
    metricLine env (db, batch) line = .ok (db, batch) := by
  cases line with
  | blank => rfl
  | tooLong | malformed => cases h
  | record obj =>
    simp only [metricLine]
    split
    · rfl
    · rename_i serverId hServer
      obtain ⟨hId, hKnown⟩ := Option.filter_eq_some_iff.mp hServer
      obtain ⟨time, hTime, hHolds⟩ := h serverId hId hKnown
      rw [hTime]
      exact if_pos hHolds

/-- What a batch leaves in the table. -/
theorem foldl_insertRow (env : Insertion) (rows : List ServerMetric) (batch : List PendingRow) :
    (∀ m ∈ rows, m ∈ batch.foldl (insertRow env) rows) ∧
      ∀ p ∈ batch, ∀ time, p.collectedAt = some time →
        ∃ m ∈ batch.foldl (insertRow env) rows, m.serverId = p.serverId ∧ m.collectedAt = time := by
  induction batch generalizing rows with
  | nil => exact ⟨fun m hm => hm, fun p hp => (List.not_mem_nil hp).elim⟩
  | cons q batch ih =>
    obtain ⟨hRows, hBatch⟩ := ih (insertRow env rows q)
    refine ⟨fun m hm => hRows m (List.mem_append_left _ hm), ?_⟩
    intro p hp time hTime
    rcases List.mem_cons.mp hp with rfl | hp
    · refine ⟨_, hRows _ List.mem_concat_self, rfl, ?_⟩
      dsimp only
      rw [hTime, Option.getD_some]
    · exact hBatch p hp time hTime

/-- What a commit does. -/
theorem commitBatch_spec (h : commitBatch env db batch = .ok db') :
    db'.servers = db.servers ∧
      (∀ serverId time, db.holds serverId time = true → db'.holds serverId time = true) ∧
        ∀ p ∈ batch, ∀ time, p.collectedAt = some time → db'.holds p.serverId time = true := by
  unfold commitBatch at h
  split at h
  · cases h
    obtain ⟨hRows, hBatch⟩ := foldl_insertRow env db.metrics batch
    refine ⟨rfl, ?_, fun p hp time hTime => holds_iff.mpr (hBatch p hp time hTime)⟩
    intro serverId time hHolds
    obtain ⟨m, hm, hKey⟩ := holds_iff.mp hHolds
    exact holds_iff.mpr ⟨m, hRows m hm, hKey⟩
  · cases h

theorem metricSettled_commit {line : Line MetricRecord} (h : commitBatch env db batch = .ok db')
    (hSettled : MetricSettled db line) : MetricSettled db' line := by
  obtain ⟨hServers, hKeep, -⟩ := commitBatch_spec h
  cases line with
  | record obj =>
    intro serverId hId hKnown
    unfold Database.knows at hKnown
    rw [hServers] at hKnown
    obtain ⟨time, hTime, hHolds⟩ := hSettled serverId hId hKnown
    exact ⟨time, hTime, hKeep serverId time hHolds⟩
  | blank | tooLong | malformed => exact hSettled

theorem metricSettled_of_waits {line : Line MetricRecord} (h : commitBatch env db batch = .ok db')
    (hWaits : Waits batch line) : MetricSettled db' line := by
  obtain ⟨-, -, hBatch⟩ := commitBatch_spec h
  obtain ⟨obj, rfl, p, hp, hServer, time, hTime, hRow⟩ := hWaits
  intro serverId hId _
  cases hServer.symm.trans hId
  exact ⟨time, hTime, hBatch p hp time hRow⟩

theorem metricLine_effect {line : Line MetricRecord}
    (hKeyed : ∀ obj, line = .record obj → obj.collectedAt ≠ .missing)
    (h : metricLine env (db, batch) line = .ok (db', batch')) :
    Effect MetricSettled Waits db batch line db' batch' := by
  cases line with
  | tooLong | malformed => cases h
  | blank =>
    cases h
    exact .stay rfl (.inl trivial) fun _ hWaits => hWaits
  | record obj =>
    simp only [metricLine] at h
    split at h
    · rename_i hUnknown
      cases h
      refine .stay rfl (.inl fun serverId hId hKnown => ?_) fun _ hWaits => hWaits
      rw [hId, Option.filter_some, if_pos hKnown] at hUnknown
      cases hUnknown
    · rename_i serverId hServer
      obtain ⟨hId, hKnown⟩ := Option.filter_eq_some_iff.mp hServer
      split at h
      · cases h
      · rename_i hMissing
        exact absurd hMissing (hKeyed obj rfl)
      · rename_i time hTime
        split at h
        · rename_i hHolds
          cases h
          refine .stay rfl (.inl fun serverId' hId' _ => ⟨time, hTime, ?_⟩) fun _ hWaits => hWaits
          cases hId.symm.trans hId'
          exact hHolds
        · -- the row joins the batch, which may be full then
          have hOwn : Waits (batch ++ [⟨serverId, some time, obj.columns, obj.storable⟩])
              (.record obj) :=
            ⟨obj, rfl, _, List.mem_concat_self, hId, time, hTime, rfl⟩
          have hOld : ∀ other, Waits batch other →
              Waits (batch ++ [⟨serverId, some time, obj.columns, obj.storable⟩]) other := by
            rintro other ⟨obj', hObj, p, hp, hKey⟩
            exact ⟨obj', hObj, p, List.mem_append_left _ hp, hKey⟩
          rcases addRow_cases h with ⟨rfl, rfl⟩ | ⟨hCommit, rfl⟩
          · exact .stay rfl (.inr hOwn) hOld
          · exact .commit rfl (metricSettled_of_waits hCommit hOwn)
              (fun _ => metricSettled_commit hCommit)
              fun other hOther => metricSettled_of_waits hCommit (hOld other hOther)

/-! ## Interrupted restores -/

/-- What a restore of `db` may have committed when it is interrupted, or has ended. -/
inductive Interrupted (env : Insertion) (codec : Codec) (opts : Options) (archive : Archive)
    (db : Database) : Database → Prop
  | atStart : Interrupted env codec opts archive db db
  | amongServers {read rest : List (Line ServerRecord)} {db' : Database} :
      archive.rejected opts = false → opts.createDisabledServers = true →
      archive.serverLines codec = read ++ rest → read.foldlM serverLine db = .ok db' →
      Interrupted env codec opts archive db db'
  | amongMetrics {read rest : List (Line MetricRecord)} {db₁ db' : Database}
      {batch : List PendingRow} :
      archive.rejected opts = false → restoreServers codec opts archive db = .ok db₁ →
      archive.metricLines codec = read ++ rest →
      read.foldlM (metricLine env) (db₁, []) = .ok (db', batch) →
      Interrupted env codec opts archive db db'
  | finished {db' : Database} : restore env codec opts archive db = .ok db' →
      Interrupted env codec opts archive db db'

/-- The servers that a restore has created are skipped when it runs again. -/
theorem restoreServers_again {db₁ : Database} (hKeyed : archive.Keyed codec opts)
    (h : restoreServers codec opts archive db = .ok db₁) (hServers : db'.servers = db₁.servers) :
    restoreServers codec opts archive db' = .ok db' := by
  unfold restoreServers at h ⊢
  split
  · rename_i hCreate
    rw [if_pos hCreate] at h
    have hSettled := foldlM_serverLine_settled (hKeyed.servers hCreate) h
    refine foldlM_fixed fun line hLine => serverLine_settled ?_
    have hLine := hSettled line hLine
    cases line with
    | record source =>
      obtain ⟨id, hId, hKnown⟩ := (Option.any_eq_true _ _).mp hLine
      refine (Option.any_eq_true _ _).mpr ⟨id, hId, ?_⟩
      rwa [Database.knows, hServers]
    | blank | tooLong | malformed => exact hLine
  · rfl

theorem addRow_servers {p : PendingRow} (h : addRow env db batch p = .ok (db', batch')) :
    db'.servers = db.servers := by
  rcases addRow_cases h with ⟨rfl, -⟩ | ⟨hCommit, -⟩
  · rfl
  · exact (commitBatch_spec hCommit).1

theorem metricLine_servers {line : Line MetricRecord}
    (h : metricLine env (db, batch) line = .ok (db', batch')) : db'.servers = db.servers := by
  cases line with
  | tooLong | malformed => cases h
  | blank =>
    cases h
    rfl
  | record obj =>
    simp only [metricLine] at h
    split at h
    · cases h
      rfl
    · split at h
      · cases h
      · exact addRow_servers h
      · split at h
        · cases h
          rfl
        · exact addRow_servers h

/-- The loop over the metrics leaves the servers alone. -/
theorem foldlM_metricLine_servers {read : List (Line MetricRecord)}
    (h : read.foldlM (metricLine env) (db, batch) = .ok (db', batch')) :
    db'.servers = db.servers := by
  induction read generalizing db batch with
  | nil =>
    cases h
    rfl
  | cons line read ih =>
    rw [List.foldlM_cons] at h
    obtain ⟨⟨dbNext, batchNext⟩, hFirst, hRest⟩ := ok_of_bind h
    exact (ih hRest).trans (metricLine_servers hFirst)

theorem effect_of_keyed (hKeyed : archive.Keyed codec opts) {line : Line MetricRecord}
    (hLine : line ∈ archive.metricLines codec) (d : Database) (b : List PendingRow)
    (d' : Database) (b' : List PendingRow) (h : metricLine env (d, b) line = .ok (d', b')) :
    Effect MetricSettled Waits d b line d' b' :=
  metricLine_effect (fun obj hObj => hKeyed.metrics obj (hObj ▸ hLine)) h

/-- A metrics member that was read up to a commit and is read again from the start. -/
theorem restoreMetrics_resume {read rest : List (Line MetricRecord)}
    (hKeyed : archive.Keyed codec opts) (hLines : archive.metricLines codec = read ++ rest)
    (h : read.foldlM (metricLine env) (db, []) = .ok (db', batch)) :
    restoreMetrics env codec archive db' = restoreMetrics env codec archive db := by
  have hEffect : ∀ line ∈ read, ∀ d b d' b', metricLine env (d, b) line = .ok (d', b') →
      Effect MetricSettled Waits d b line d' b' := by
    intro line hLine
    refine effect_of_keyed hKeyed ?_
    rw [hLines]
    exact List.mem_append_left _ hLine
  rw [restoreMetrics_eq, restoreMetrics_eq, hLines,
    resume (fun d b line => metricLine_settled) hEffect h]

/-- A completed loop over the metrics has nothing left to do. -/
theorem restoreMetrics_again (hKeyed : archive.Keyed codec opts)
    (h : restoreMetrics env codec archive db = .ok db') (env' : Insertion) :
    restoreMetrics env' codec archive db' = .ok db' ∧ db'.servers = db.servers := by
  rw [restoreMetrics_eq] at h
  obtain ⟨⟨dbEnd, batch⟩, hRun, hEnd⟩ := ok_of_bind h
  have hServers := foldlM_metricLine_servers hRun
  obtain ⟨done, pending, hBound⟩ := exists_boundary (fun line => effect_of_keyed hKeyed) hRun
  have hSettled : ∀ line ∈ archive.metricLines codec, MetricSettled db' line := by
    intro line hLine
    rw [hBound.read_eq] at hLine
    have hRead : MetricSettled dbEnd line ∨ Waits batch line :=
      (List.mem_append.mp hLine).elim (fun h => .inl (hBound.done_settled line h))
        (hBound.pending_waits line)
    dsimp only at hEnd
    split at hEnd
    · rename_i hEmpty
      cases hEnd
      rcases hRead with hSettled | ⟨obj, -, p, hp, -⟩
      · exact hSettled
      · rw [hEmpty] at hp
        cases hp
    · exact hRead.elim (metricSettled_commit hEnd) (metricSettled_of_waits hEnd)
  constructor
  · rw [restoreMetrics_eq, foldlM_fixed fun line hLine => metricLine_settled (hSettled line hLine)]
    rfl
  · dsimp only at hEnd
    split at hEnd
    · cases hEnd
      exact hServers
    · exact (commitBatch_spec hEnd).1.trans hServers

/-- A completed restore has nothing left to do. -/
theorem restore_again (hKeyed : archive.Keyed codec opts)
    (h : restore env codec opts archive db = .ok db') (env' : Insertion) :
    restore env' codec opts archive db' = .ok db' := by
  have hAccepted := not_rejected_of_restore h
  rw [restore_eq hAccepted] at h ⊢
  obtain ⟨db₁, hServers, hMetrics⟩ := ok_of_bind h
  obtain ⟨hAgain, hKept⟩ := restoreMetrics_again hKeyed hMetrics env'
  rw [restoreServers_again hKeyed hServers hKept]
  exact hAgain

/-- Run again on what it has left behind, a restore ends as it would have. -/
theorem restore_interrupted (hKeyed : archive.Keyed codec opts)
    (h : Interrupted env codec opts archive db db') :
    restore env codec opts archive db' = restore env codec opts archive db := by
  cases h with
  | atStart => rfl
  | amongServers hAccepted hCreate hLines hRead =>
    have hResume : restoreServers codec opts archive db' = restoreServers codec opts archive db := by
      rw [restoreServers, restoreServers, if_pos hCreate, if_pos hCreate, hLines]
      refine foldlM_serverLine_resume (fun source hSource => ?_) hRead
      refine hKeyed.servers hCreate source ?_
      rw [hLines]
      exact List.mem_append_left _ hSource
    rw [restore_eq hAccepted, restore_eq hAccepted, hResume]
  | amongMetrics hAccepted hServers hLines hRead =>
    have hKept := foldlM_metricLine_servers hRead
    rw [restore_eq hAccepted, restore_eq hAccepted, hServers,
      restoreServers_again hKeyed hServers hKept]
    exact restoreMetrics_resume hKeyed hLines hRead
  | finished hDone => rw [hDone, restore_again hKeyed hDone env]

/-! ## Ids do not matter -/

/-- The same tables, up to the ids of the metrics. -/
structure SameTables (d d' : Database) : Prop where
  servers : d.servers = d'.servers
  metrics : d.metrics.map eraseId = d'.metrics.map eraseId

theorem SameTables.knows_eq {d d' : Database} (h : SameTables d d') (serverId : Nat) :
    d.knows serverId = d'.knows serverId := by
  rw [Database.knows, h.servers, Database.knows]

theorem SameTables.holds_eq {d d' : Database} (h : SameTables d d') (serverId : Nat) (time : Int) :
    d.holds serverId time = d'.holds serverId time := by
  have hErase : ∀ e : Database, e.holds serverId time =
      (e.metrics.map eraseId).any fun m => m.serverId = serverId && m.collectedAt = time := by
    intro e
    rw [List.any_map]
    rfl
  rw [hErase, hErase, h.metrics]

theorem foldl_insertRow_erase {rows rows' : List ServerMetric}
    (h : rows.map eraseId = rows'.map eraseId)
    (hTimes : ∀ p ∈ batch, p.collectedAt.isSome = true) :
    (batch.foldl (insertRow env) rows).map eraseId =
      (batch.foldl (insertRow env') rows').map eraseId := by
  induction batch generalizing rows rows' with
  | nil => exact h
  | cons p batch ih =>
    refine ih ?_ fun q hq => hTimes q (List.mem_cons_of_mem p hq)
    obtain ⟨time, hTime⟩ := Option.isSome_iff_exists.mp (hTimes p List.mem_cons_self)
    rw [insertRow, insertRow, List.map_append, List.map_append, h, hTime]
    rfl

/-- Both runs have the same tables and the same batch, whose rows have times. -/
structure SameState (s s' : Database × List PendingRow) : Prop where
  tables : SameTables s.1 s'.1
  batch : s.2 = s'.2
  times : ∀ p ∈ s.2, p.collectedAt.isSome = true

theorem commitBatch_agrees (h : SameTables db db')
    (hTimes : ∀ p ∈ batch, p.collectedAt.isSome = true) :
    Agrees SameTables SameTables (commitBatch env db batch) (commitBatch env' db' batch) := by
  unfold commitBatch
  split
  · exact .ok ⟨h.servers, foldl_insertRow_erase h.metrics hTimes⟩
  · exact .error h

theorem addRow_agrees {p : PendingRow} (h : SameTables db db')
    (hTimes : ∀ p ∈ batch, p.collectedAt.isSome = true) (hTime : p.collectedAt.isSome = true) :
    Agrees SameTables SameState (addRow env db batch p) (addRow env' db' batch p) := by
  have hAll : ∀ q ∈ batch ++ [p], q.collectedAt.isSome = true := by
    intro q hq
    rcases List.mem_append.mp hq with hOld | hNew
    · exact hTimes q hOld
    · rw [List.mem_singleton.mp hNew]
      exact hTime
  unfold addRow
  split
  · exact (commitBatch_agrees h hAll).bind fun d d' hTables =>
      .ok ⟨hTables, rfl, fun q hq => (List.not_mem_nil hq).elim⟩
  · exact .ok ⟨h, rfl, hAll⟩

theorem metricLine_agrees {s s' : Database × List PendingRow} {line : Line MetricRecord}
    (hKeyed : ∀ obj, line = .record obj → obj.collectedAt ≠ .missing) (h : SameState s s') :
    Agrees SameTables SameState (metricLine env s line) (metricLine env' s' line) := by
  obtain ⟨d, b⟩ := s
  obtain ⟨d', b'⟩ := s'
  obtain ⟨hTables, hBatch, hTimes⟩ := h
  cases hBatch
  cases line with
  | tooLong | malformed => exact .error hTables
  | blank => exact .ok ⟨hTables, rfl, hTimes⟩
  | record obj =>
    have hKnows : d.knows = d'.knows := funext hTables.knows_eq
    simp only [metricLine]
    rw [← hKnows]
    split
    · exact .ok ⟨hTables, rfl, hTimes⟩
    · split
      · exact .error hTables
      · rename_i hMissing
        exact absurd hMissing (hKeyed obj rfl)
      · rw [← hTables.holds_eq]
        split
        · exact .ok ⟨hTables, rfl, hTimes⟩
        · exact addRow_agrees hTables hTimes rfl

theorem serverLine_agrees {line : Line ServerRecord} (h : SameTables db db') :
    Agrees SameTables SameTables (serverLine db line) (serverLine db' line) := by
  have hKnows : db.knows = db'.knows := funext h.knows_eq
  cases line with
  | tooLong | malformed => exact .error h
  | blank => exact .ok h
  | record source =>
    simp only [serverLine]
    rw [← hKnows]
    split
    · exact .ok h
    · refine .ok ⟨?_, h.metrics⟩
      dsimp only [restoredServer]
      rw [h.servers]

/-- Restores that get other ids and run at other times end alike. -/
theorem restore_agrees (hKeyed : archive.Keyed codec opts) (h : SameTables db db') :
    Agrees SameTables SameTables (restore env codec opts archive db)
      (restore env' codec opts archive db') := by
  unfold restore
  split
  · exact .error h
  have hServers : Agrees SameTables SameTables (restoreServers codec opts archive db)
      (restoreServers codec opts archive db') := by
    unfold restoreServers
    split
    · refine foldlM_agrees ?_ h
      exact fun line _ d d' hTables => serverLine_agrees hTables
    · exact .ok h
  refine hServers.bind fun d d' hTables => ?_
  rw [restoreMetrics_eq, restoreMetrics_eq]
  have hStart : SameState (d, []) (d', []) :=
    ⟨hTables, rfl, fun p hp => (List.not_mem_nil hp).elim⟩
  have hLoop : Agrees SameTables SameState
      ((archive.metricLines codec).foldlM (metricLine env) (d, []))
      ((archive.metricLines codec).foldlM (metricLine env') (d', [])) := by
    refine foldlM_agrees ?_ hStart
    intro line hLine s s' hState
    exact metricLine_agrees (fun obj hObj => hKeyed.metrics obj (hObj ▸ hLine)) hState
  refine hLoop.bind ?_
  rintro ⟨e, b⟩ ⟨e', b'⟩ ⟨hSame, hBatch, hTimes⟩
  cases hBatch
  dsimp only
  split
  · exact .ok hSame
  · exact commitBatch_agrees hSame hTimes

/-- A restore that was interrupted and is run again ends with the tables of one uninterrupted
restore, or at the same exception, and a second complete restore changes nothing. -/
theorem restore_resumes (env' env'' : Insertion) (hKeyed : archive.Keyed codec opts)
    (h : Interrupted env codec opts archive db db') :
    Agrees SameTables SameTables (restore env' codec opts archive db')
        (restore env'' codec opts archive db) ∧
      ∀ done, restore env codec opts archive db = .ok done →
        restore env' codec opts archive done = .ok done := by
  refine ⟨?_, fun done hDone => restore_again hKeyed hDone env'⟩
  have hSame : ∀ d : Database, SameTables d d := fun d => ⟨rfl, rfl⟩
  have hRerun : Agrees SameTables SameTables (restore env' codec opts archive db')
      (restore env codec opts archive db') := restore_agrees hKeyed (hSame db')
  have hWhole : Agrees SameTables SameTables (restore env codec opts archive db)
      (restore env'' codec opts archive db) := restore_agrees hKeyed (hSame db)
  rw [restore_interrupted hKeyed h] at hRerun
  exact .trans (fun h₁ h₂ => ⟨h₁.1.trans h₂.1, h₁.2.trans h₂.2⟩)
    (fun h₁ h₂ => ⟨h₁.1.trans h₂.1, h₁.2.trans h₂.2⟩) hRerun hWhole

/-! An archive of one server and one of its samples. -/

def keyedServerText : Bytes := "\x7b\"id\": 2, \"name\": \"gpu-02\"\x7d\n".toList

def keyedMetricText : Bytes := "\x7b\"server_id\": 2, \"collected_at\": \"1970-01-01 00:01:40\"\x7d\n".toList

/-- The columns of a row of defaults. -/
def defaultColumns : ServerMetric := { id := 0, serverId := 0, collectedAt := 0 }

def keyedCodec : Codec where
  loadServer line := if line = keyedServerText then some { id := some 2, name := some "gpu-02" } else none
  loadMetric line := if line = keyedMetricText then
      some { serverId := some 2, collectedAt := .at (seconds 100), columns := defaultColumns }
    else none

def keyedArchive : Archive where
  servers := some keyedServerText
  metrics := keyedMetricText

def emptyDatabase : Database := ⟨[], []⟩

/-- Ids from 1 on, and a clock that stands still. -/
def plainInsertion (now : Int) : Insertion := ⟨fun n => n + 1, fun _ => now⟩

def withServer2 : Database where
  servers := [restoredServer emptyDatabase { id := some 2, name := some "gpu-02" }]
  metrics := []

theorem keyedLines :
    keyedArchive.serverLines keyedCodec =
        [.record { id := some 2, name := some "gpu-02" }] ∧
      keyedArchive.metricLines keyedCodec = [.record {
        serverId := some 2, collectedAt := .at (seconds 100), columns := defaultColumns }] := by
  decide +kernel

theorem keyedArchive_keyed : keyedArchive.Keyed keyedCodec { createDisabledServers := true } where
  servers := by
    intro _ source hSource
    rw [keyedLines.1] at hSource
    cases List.mem_singleton.mp hSource
    exact Option.some_ne_none _
  metrics := by
    intro obj hObj
    rw [keyedLines.2] at hObj
    cases List.mem_singleton.mp hObj
    exact Stamp.noConfusion

/-- The restore is interrupted between its server and its sample. -/
theorem restore_resumes_interrupted :
    withServer2 ≠ emptyDatabase ∧
      (Agrees SameTables SameTables
          (restore (plainInsertion 0) keyedCodec { createDisabledServers := true } keyedArchive
            withServer2)
          (restore (plainInsertion 60) keyedCodec { createDisabledServers := true } keyedArchive
            emptyDatabase) ∧
        ∀ done, restore (plainInsertion 30) keyedCodec { createDisabledServers := true }
            keyedArchive emptyDatabase = .ok done →
          restore (plainInsertion 0) keyedCodec { createDisabledServers := true } keyedArchive
            done = .ok done) := by
  have hCrash : Interrupted (plainInsertion 30) keyedCodec { createDisabledServers := true }
      keyedArchive emptyDatabase withServer2 :=
    .amongServers (by decide +kernel) rfl (keyedLines.1.trans (List.append_nil _).symm) rfl
  exact ⟨by decide, restore_resumes (plainInsertion 0) (plainInsertion 60) keyedArchive_keyed
    hCrash⟩

/-! A server without an id and a sample without a time. -/

def keylessServerText : Bytes := "\x7b\"name\": \"gpu-02\"\x7d\n".toList

def keylessMetricText : Bytes := "\x7b\"server_id\": 1\x7d\n".toList

def keylessCodec : Codec where
  loadServer line := if line = keylessServerText then some { name := some "gpu-02" } else none
  loadMetric line := if line = keylessMetricText then
      some { serverId := some 1, columns := defaultColumns }
    else none

def keylessArchive : Archive where
  servers := some keylessServerText
  metrics := keylessMetricText

/-- Every restore creates the server under a new id and stores the sample at the current time. -/
theorem keyless_restored_twice :
    ∃ first second,
      restore (plainInsertion 0) keylessCodec { createDisabledServers := true } keylessArchive
        ⟨[{ id := 1 }], []⟩ = .ok first ∧
      restore (plainInsertion 60) keylessCodec { createDisabledServers := true } keylessArchive
        first = .ok second ∧
      first.servers.map Server.id = [1, 2] ∧ second.servers.map Server.id = [1, 2, 3] ∧
      first.metrics.map ServerMetric.collectedAt = [0] ∧
      second.metrics.map ServerMetric.collectedAt = [0, 60] ∧ ¬ SameTables second first := by
  refine ⟨_, _, rfl, rfl, by decide, by decide, by decide, by decide, fun hSame => ?_⟩
  exact absurd (congrArg (List.map Server.id) hSame.servers) (by decide)

end GpuMon.Retention

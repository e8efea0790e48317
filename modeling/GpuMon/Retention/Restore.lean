import GpuMon.Library.PyText
import GpuMon.Models

/-!
# Restoring an archive (`scripts/restore_archive.py`)

`restore` reads the servers and then the metrics of an archive. A server is committed by
itself; metrics wait in a batch of 300. Rows that are in the database are skipped: a server by
its id, a metric by its server and time. A metric that only waits in the batch is not seen.
-/

namespace GpuMon.Retention

/-! ## The archive -/

/-- Bytes, as one character each. -/
abbrev Bytes := List Char

def maxArchiveBytes : Nat := 25 * 1024 * 1024 * 1024

def maxMetricsBytes : Nat := 20 * 1024 * 1024 * 1024

def maxServersBytes : Nat := 256 * 1024 * 1024

def maxJsonlLineBytes : Nat := 8 * 1024 * 1024

/-- A record of the servers member; a missing key is `none`. -/
structure ServerRecord where
  id : Option Nat := none
  name : Option Text := none
  serverType : Option Text := none
  tags : Option (List Text) := none
  deriving DecidableEq

/-- `_parse_dt(obj.get("collected_at"))`; `invalid` is a value the database cannot compare with
a time. -/
inductive Stamp
  | missing
  | at (time : Int)
  | invalid
  deriving DecidableEq

/-- A record of the metrics member. `columns` holds the columns but the id, the server and the
time, and `storable` tells whether the database takes them. -/
structure MetricRecord where
  serverId : Option Nat := none
  collectedAt : Stamp := .missing
  columns : ServerMetric
  storable : Bool := true
  deriving DecidableEq

/-- `json.loads` of a line, as far as the loops of `main` can use the result. -/
structure Codec where
  loadServer : Bytes → Option ServerRecord
  loadMetric : Bytes → Option MetricRecord

/-- An archive after decryption: its size on disk, whether it was encrypted, and its members. -/
structure Archive where
  size : Nat := 0
  encrypted : Bool := true
  servers : Option Bytes := none
  metrics : Bytes := []

structure Options where
  createDisabledServers : Bool := false
  allowLegacyUnencrypted : Bool := false

/-- What a loop of `main` makes of a line. -/
inductive Line (ρ : Type)
  | tooLong
  | blank
  | malformed
  | record (r : ρ)
  deriving DecidableEq

/-- `fh.readline()` until the end; a line keeps its newline. -/
def readLines : Bytes → List Bytes
  | [] => []
  | c :: rest =>
    if c = '\n' then ['\n'] :: readLines rest
    else match readLines rest with
      | [] => [[c]]
      | line :: lines => (c :: line) :: lines

/-- The whitespace of `bytes.strip`. -/
def isSpaceByte (c : Char) : Bool := c ∈ [' ', '\t', '\n', '\r', '\x0b', '\x0c']

/-- A line of `_bounded_lines`. -/
def jsonlLine {ρ : Type} (loads : Bytes → Option ρ) (line : Bytes) : Line ρ :=
  if maxJsonlLineBytes < line.length then .tooLong
  else if line.all isSpaceByte then .blank
  else match loads line with
    | none => .malformed
    | some r => .record r

def jsonlLines {ρ : Type} (loads : Bytes → Option ρ) (content : Bytes) : List (Line ρ) :=
  (readLines content).map (jsonlLine loads)

def Archive.serverLines (codec : Codec) (archive : Archive) : List (Line ServerRecord) :=
  jsonlLines codec.loadServer (archive.servers.getD [])

def Archive.metricLines (codec : Codec) (archive : Archive) : List (Line MetricRecord) :=
  jsonlLines codec.loadMetric archive.metrics

/-- The archives that `main` and `_safe_members` turn down. -/
def Archive.rejected (opts : Options) (archive : Archive) : Bool :=
  maxArchiveBytes < archive.size || (!archive.encrypted && !opts.allowLegacyUnencrypted) ||
    maxMetricsBytes < archive.metrics.length ||
      archive.servers.any fun content => maxServersBytes < content.length

/-! ## The restore -/

structure Database where
  servers : List Server
  metrics : List ServerMetric
  deriving DecidableEq

/-- A row up to its id. -/
def eraseId (m : ServerMetric) : ServerMetric := { m with id := 0 }

/-- The ids and default times that the database gives to new metric rows, by their place. -/
structure Insertion where
  id : Nat → Nat
  now : Nat → Int

/-- A row of `batch`. -/
structure PendingRow where
  serverId : Nat
  collectedAt : Option Int
  columns : ServerMetric
  storable : Bool
  deriving DecidableEq

/-- `db.get(Server, server_id) is not None`. -/
def Database.knows (db : Database) (serverId : Nat) : Bool :=
  db.servers.any fun s => s.id = serverId

/-- The query `dup`. -/
def Database.holds (db : Database) (serverId : Nat) (time : Int) : Bool :=
  db.metrics.any fun m => m.serverId = serverId && m.collectedAt = time

theorem holds_iff {db : Database} {serverId : Nat} {time : Int} : db.holds serverId time = true ↔
    ∃ m ∈ db.metrics, m.serverId = serverId ∧ m.collectedAt = time := by
  simp [Database.holds]

/-- The row of a server that is created; a row without an id gets the next one. -/
def restoredServer (db : Database) (source : ServerRecord) : Server where
  id := source.id.getD ((db.servers.map Server.id).foldr max 0 + 1)
  name :=
    let fallback := "restored-".toList ++ source.id.elim "None".toList PyText.natText
    let name := source.name.getD []
    (if name = [] then fallback else name).take 128
  authType := "key"
  enabled := false
  serverType :=
    let serverType := source.serverType.getD []
    if serverType = "gpu".toList ∨ serverType = "cpu".toList then serverType else "gpu"
  tags := source.tags.getD []
  note := "Restored metadata; configure and review before enabling"

/-- The body of the loop over the servers. An exception leaves what is committed. -/
def serverLine (db : Database) : Line ServerRecord → Except Database Database
  | .tooLong => .error db
  | .blank => .ok db
  | .malformed => .error db
  | .record source =>
    if source.id.any db.knows then .ok db
    else .ok { db with servers := db.servers ++ [restoredServer db source] }

def insertRow (env : Insertion) (rows : List ServerMetric) (p : PendingRow) : List ServerMetric :=
  rows ++ [{ p.columns with
    id := env.id rows.length
    serverId := p.serverId
    collectedAt := p.collectedAt.getD (env.now rows.length) }]

/-- `db.bulk_save_objects(batch)` and its commit. -/
def commitBatch (env : Insertion) (db : Database) (batch : List PendingRow) :
    Except Database Database :=
  if batch.all PendingRow.storable then
    .ok { db with metrics := batch.foldl (insertRow env) db.metrics }
  else .error db

/-- `batch.append`, and the commit of a full batch. -/
def addRow (env : Insertion) (db : Database) (batch : List PendingRow) (p : PendingRow) :
    Except Database (Database × List PendingRow) :=
  if 300 ≤ (batch ++ [p]).length then (commitBatch env db (batch ++ [p])).map (·, [])
  else .ok (db, batch ++ [p])

/-- What `addRow` does: the row waits, or a full batch is committed. -/
theorem addRow_cases {env : Insertion} {db db' : Database} {batch batch' : List PendingRow}
    {p : PendingRow} (h : addRow env db batch p = .ok (db', batch')) :
    (db' = db ∧ batch' = batch ++ [p]) ∨
      (commitBatch env db (batch ++ [p]) = .ok db' ∧ batch' = []) := by
  unfold addRow at h
  split at h
  · cases hCommit : commitBatch env db (batch ++ [p]) with
    | error e =>
      rw [hCommit] at h
      cases h
    | ok dbNew =>
      rw [hCommit] at h
      cases h
      exact .inr ⟨rfl, rfl⟩
  · cases h
    exact .inl ⟨rfl, rfl⟩

/-- The body of the loop over the metrics. A missing time matches no row, and the column's
default fills it in. -/
def metricLine (env : Insertion) (s : Database × List PendingRow) :
    Line MetricRecord → Except Database (Database × List PendingRow)
  | .tooLong => .error s.1
  | .blank => .ok s
  | .malformed => .error s.1
  | .record obj => match obj.serverId.filter s.1.knows with
    | none => .ok s
    | some serverId => match obj.collectedAt with
      | .invalid => .error s.1
      | .missing => addRow env s.1 s.2 ⟨serverId, none, obj.columns, obj.storable⟩
      | .at time =>
        if s.1.holds serverId time then .ok s
        else addRow env s.1 s.2 ⟨serverId, some time, obj.columns, obj.storable⟩

/-- The loop over the servers member. -/
def restoreServers (codec : Codec) (opts : Options) (archive : Archive) (db : Database) :
    Except Database Database :=
  if opts.createDisabledServers then (archive.serverLines codec).foldlM serverLine db else .ok db

/-- The loop over the metrics member, with the batch that remains at its end. -/
def restoreMetrics (env : Insertion) (codec : Codec) (archive : Archive) (db : Database) :
    Except Database Database := do
  let (db, batch) ← (archive.metricLines codec).foldlM (metricLine env) (db, [])
  if batch = [] then .ok db else commitBatch env db batch

theorem restoreMetrics_eq {env : Insertion} {codec : Codec} {archive : Archive} {db : Database} :
    restoreMetrics env codec archive db =
      ((archive.metricLines codec).foldlM (metricLine env) (db, [])).bind fun s =>
        if s.2 = [] then .ok s.1 else commitBatch env s.1 s.2 := rfl

/-- `main`. -/
def restore (env : Insertion) (codec : Codec) (opts : Options) (archive : Archive)
    (db : Database) : Except Database Database := do
  if archive.rejected opts then .error db
  else
    let db ← restoreServers codec opts archive db
    restoreMetrics env codec archive db

theorem restore_eq {env : Insertion} {codec : Codec} {opts : Options} {archive : Archive}
    {db : Database} (h : archive.rejected opts = false) : restore env codec opts archive db =
      (restoreServers codec opts archive db).bind (restoreMetrics env codec archive) := by
  rw [restore, h]
  rfl

theorem not_rejected_of_restore {env : Insertion} {codec : Codec} {opts : Options}
    {archive : Archive} {db db' : Database} (h : restore env codec opts archive db = .ok db') :
    archive.rejected opts = false := by
  by_contra hRejected
  rw [restore, if_pos (by simpa using hRejected)] at h
  cases h

end GpuMon.Retention

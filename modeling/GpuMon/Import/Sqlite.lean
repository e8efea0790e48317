import GpuMon.Library.BatchLoop
import GpuMon.Library.Dict
import GpuMon.Library.PyFloat
import GpuMon.Library.Stages

/-!
# The import of a SQLite database (`import_sqlite.py`)

The tables are copied one after another, each in a transaction, the metrics in several. MySQL is a
parameter: how it compares texts, which moment it stores for the text of a timestamp, and which
rows it accepts. Rows carry the columns that identify them as typed keys.

* `settles_master`: settings, users, servers and alert rules are found by their keys.
* `not_isExistingEvent`, `not_isExistingMetric`: a text is never among the timestamps that the
  target yields.
* `reimport_unchanged_iff`: so the log tables are copied again.
-/

namespace GpuMon.Import

open Stages

/-! ## Values -/

/-- A value of SQLite, as `sqlite3` yields it. -/
inductive Cell
  | null
  | integer (n : Int)
  | real (x : PyFloat)
  | text (t : Text)
  | blob (bytes : List UInt8)
  deriving DecidableEq

/-- `bool(value)`. -/
def Cell.truthy : Cell → Bool
  | .null => false
  | .integer n => n ≠ 0
  | .real x => x ≠ 0
  | .text t => t ≠ []
  | .blob bytes => bytes ≠ []

/-- `value or default`. -/
def Cell.orElse (c default : Cell) : Cell := if c.truthy then c else default

/-- What a column of the target is given; `J` are the values of `json.loads`. -/
inductive Value (J : Type)
  | cell (c : Cell)
  | flag (b : Bool)
  | document (d : J)
  | emptyList
  deriving DecidableEq

/-- How a column is read from a row. -/
inductive Convert
  /-- `row[name]` -/
  | required
  /-- `row[name] or default` -/
  | requiredOr (default : Cell)
  /-- `row.get(name)` -/
  | optional
  /-- `row.get(name) or default` -/
  | orElse (default : Cell)
  /-- `bool(row.get(name, default))` -/
  | flag (default : Cell)
  /-- `json.loads(row[name]) if row.get(name) else []` -/
  | document

variable {J : Type}

/-- Nothing for a `KeyError`, or an error of `json.loads`, which takes a text or bytes. -/
def Convert.read (loads : Text ⊕ List UInt8 → Option J) (cell : Option Cell) :
    Convert → Option (Value J)
  | .required => cell.map .cell
  | .requiredOr d => cell.map fun c => .cell (c.orElse d)
  | .optional => some (.cell (cell.getD .null))
  | .orElse d => some (.cell ((cell.getD .null).orElse d))
  | .flag d => some (.flag (cell.getD d).truthy)
  | .document =>
    let c := cell.getD .null
    if c.truthy then
      match c with
      | .text t => (loads (.inl t)).map .document
      | .blob bytes => (loads (.inr bytes)).map .document
      | _ => none
    else some .emptyList

abbrev Columns := List (Text × Convert)

def noText : Cell := .text []

def zero : Cell := .integer 0

def one : Cell := .integer 1

def settingColumns : Columns := [("value", .requiredOr noText)]

def userColumns : Columns :=
  [("password_hash", .required), ("display_name", .orElse noText), ("email", .orElse noText),
    ("role", .orElse (.text "viewer")), ("is_active", .flag one)]

def serverColumns : Columns :=
  [("name", .required), ("host", .required), ("port", .required),
    ("auth_type", .orElse (.text "password")), ("username", .required),
    ("password", .orElse noText), ("private_key", .orElse noText),
    ("passphrase", .orElse noText), ("enabled", .flag one), ("tags", .document),
    ("note", .orElse noText)]

def alertRuleColumns : Columns :=
  [("name", .required), ("metric", .required), ("op", .required), ("threshold", .required),
    ("duration_minutes", .orElse zero), ("server_id", .optional), ("enabled", .flag one)]

def alertEventColumns : Columns :=
  [("rule_id", .optional), ("rule_name", .orElse noText), ("server_name", .orElse noText),
    ("value", .orElse zero), ("threshold", .orElse zero), ("message", .orElse noText),
    ("recovered_at", .optional), ("notified", .flag zero)]

def auditLogColumns : Columns :=
  [("username", .orElse noText), ("action", .orElse noText), ("detail", .orElse noText)]

def hostColumns : Columns :=
  [("hostname", .orElse noText), ("os", .orElse noText), ("kernel", .orElse noText),
    ("uptime_seconds", .orElse zero), ("cpu_model", .orElse noText), ("cpu_count", .orElse zero),
    ("cpu_percent", .orElse zero), ("cpu_freq_avg", .orElse zero),
    ("cpu_temp_package", .orElse zero), ("cores", .document), ("load1", .orElse zero),
    ("load5", .orElse zero), ("load15", .orElse zero)]

def memoryColumns : Columns :=
  [("mem_total_mb", .orElse zero), ("mem_used_mb", .orElse zero),
    ("mem_available_mb", .orElse zero), ("mem_cached_mb", .orElse zero),
    ("swap_total_mb", .orElse zero), ("swap_used_mb", .orElse zero),
    ("disk_total_gb", .orElse zero), ("disk_used_gb", .orElse zero), ("disks", .document),
    ("disk_io", .document)]

def deviceColumns : Columns :=
  [("net_rx_bytes", .orElse zero), ("net_tx_bytes", .orElse zero), ("net_ifaces", .document),
    ("users", .document), ("gpu_count", .orElse zero), ("gpu_driver", .orElse noText),
    ("gpus", .document), ("processes", .document), ("duration", .orElse zero),
    ("status", .orElse (.text "ok")), ("error", .orElse noText)]

def serverMetricColumns : Columns := hostColumns ++ memoryColumns ++ deviceColumns

/-! ## Rows -/

/-- A row of the source: the columns that identify it, and the others. -/
structure Row (κ : Type) where
  key : κ
  cells : Dict Text Cell := Dict.empty

/-- The tables of the source; one that is missing makes its query fail. -/
structure Source where
  settings : Option (List (Row Text))
  users : Option (List (Row (Int × Text)))
  servers : Option (List (Row Int))
  alertRules : Option (List (Row Int))
  alertEvents : Option (List (Row (Int × Text × Text)))
  auditLogs : Option (List (Row Text))
  /-- `ORDER BY id` -/
  serverMetrics : Option (List (Row (Int × Text)))

/-- A row of the target, with timestamps in `τ`: texts until it is stored, moments from then on. -/
inductive Entry (τ J : Type)
  | setting (key : Text) (values : List (Text × Value J))
  | user (key : Int × Text) (values : List (Text × Value J))
  | server (id : Int) (values : List (Text × Value J))
  | alertRule (id : Int) (values : List (Text × Value J))
  | alertEvent (key : Int × Text × τ) (values : List (Text × Value J))
  | auditLog (ts : τ) (values : List (Text × Value J))
  | serverMetric (key : Int × τ) (values : List (Text × Value J))
  deriving DecidableEq

/-- The rows of tables that have no key but the one they are given. -/
def Entry.isLog {τ : Type} : Entry τ J → Bool
  | .alertEvent .. | .auditLog .. | .serverMetric .. => true
  | _ => false

def Entry.store (moment : Text → Option Int) : Entry Text J → Option (Entry Int J)
  | .setting key vs => some (.setting key vs)
  | .user key vs => some (.user key vs)
  | .server id vs => some (.server id vs)
  | .alertRule id vs => some (.alertRule id vs)
  | .alertEvent (host, metric, t) vs => (moment t).map fun d => .alertEvent (host, metric, d) vs
  | .auditLog t vs => (moment t).map fun d => .auditLog d vs
  | .serverMetric (host, t) vs => (moment t).map fun d => .serverMetric (host, d) vs

/-- The rows of the seven tables. -/
abbrev Target (J : Type) := List (Entry Int J)

/-- The database that is written to. -/
structure Mysql (J : Type) where
  /-- equality in the collation of a column -/
  sameText : Text → Text → Bool
  /-- the `DATETIME` that a text is stored as -/
  moment : Text → Option Int
  /-- whether the rows of a transaction can be stored -/
  accepts : Target J → List (Entry Int J) → Bool
  sameText_refl : ∀ t, sameText t t = true
  /-- Only keys of the other tables decide over rows of the log tables. -/
  accepts_again : ∀ {s more rows}, (∀ e ∈ rows, Entry.isLog e) → (∀ e ∈ more, Entry.isLog e) →
    accepts s rows = true → accepts (s ++ more) rows = true

/-- `db.add(…)` for each row and `db.commit()`; nothing is stored where a row cannot be read
or is refused. -/
def Mysql.stored? (db : Mysql J) (s : Target J) (batch : Option (List (Entry Text J))) :
    Option (Target J) := do
  let pending ← batch
  let rows ← pending.mapM (Entry.store db.moment)
  if rows = [] ∨ db.accepts s rows then some (s ++ rows) else none

/-! ## The tables -/

variable {κ : Type} (db : Mysql J) (loads : Text ⊕ List UInt8 → Option J)

/-- The new row that a row of the source becomes. -/
def readRow (entry : κ → List (Text × Value J) → Entry Text J) (columns : Columns) (row : Row κ) :
    Option (Entry Text J) :=
  (columns.mapM fun p : Text × Convert =>
    (p.2.read loads (row.cells.get? p.1)).map (p.1, ·)).map (entry row.key)

def readNew (found : κ → Bool) (entry : κ → List (Text × Value J) → Entry Text J)
    (columns : Columns) (table : Option (List (Row κ))) : Option (List (Entry Text J)) :=
  table.bind fun rows => (rows.filter fun row => !found row.key).mapM (readRow loads entry columns)

/-- `db.get(Setting, key)`. -/
def isSetting (key : Text) : Entry Int J → Bool
  | .setting k _ => db.sameText k key
  | _ => false

/-- `db.query(User).filter(User.username == username)`. -/
def isUser (key : Int × Text) : Entry Int J → Bool
  | .user k _ => db.sameText k.2 key.2
  | _ => false

/-- `db.get(Server, id)`. -/
def isServer (id : Int) : Entry Int J → Bool
  | .server k _ => k = id
  | _ => false

/-- `db.get(AlertRule, id)`. -/
def isAlertRule (id : Int) : Entry Int J → Bool
  | .alertRule k _ => k = id
  | _ => false

/-- A timestamp in Python: the source yields a `str`, the target a `datetime`. -/
inductive Stamp
  | text (t : Text)
  | datetime (d : Int)
  deriving DecidableEq

def existingEvents (s : Target J) : List (Int × Text × Stamp) :=
  s.filterMap fun
    | .alertEvent (server, metric, d) _ => some (server, metric, .datetime d)
    | _ => none

def existingMetrics (s : Target J) : List (Int × Stamp) :=
  s.filterMap fun
    | .serverMetric (server, d) _ => some (server, .datetime d)
    | _ => none

def isExistingEvent (s : Target J) (key : Int × Text × Text) : Bool :=
  (key.1, key.2.1, Stamp.text key.2.2) ∈ existingEvents s

def isExistingMetric (existing : List (Int × Stamp)) (key : Int × Text) : Bool :=
  (key.1, Stamp.text key.2) ∈ existing

def importSettings (source : Source) (s : Target J) : Option (Target J) :=
  db.stored? s
    (readNew loads (fun k => s.any (isSetting db k)) .setting settingColumns source.settings)

def importUsers (source : Source) (s : Target J) : Option (Target J) :=
  db.stored? s (readNew loads (fun k => s.any (isUser db k)) .user userColumns source.users)

def importServers (source : Source) (s : Target J) : Option (Target J) :=
  db.stored? s (readNew loads (fun k => s.any (isServer k)) .server serverColumns source.servers)

def importAlertRules (source : Source) (s : Target J) : Option (Target J) :=
  db.stored? s
    (readNew loads (fun k => s.any (isAlertRule k)) .alertRule alertRuleColumns source.alertRules)

def importAlertEvents (source : Source) (s : Target J) : Option (Target J) :=
  db.stored? s
    (readNew loads (isExistingEvent s) .alertEvent alertEventColumns source.alertEvents)

def importAuditLogs (source : Source) (s : Target J) : Option (Target J) :=
  db.stored? s (readNew loads (fun _ => false) .auditLog auditLogColumns source.auditLogs)

def chunk : Nat := 200

/-- The loop over the metrics, with the rows of its `buffer`. -/
def importChunks (existing : List (Int × Stamp)) :
    List (Row (Int × Text)) → List (Entry Text J) → Target J → Outcome (Target J)
  | [], buffer, s => attempt (fun s => db.stored? s (some buffer)) s
  | row :: rows, buffer, s =>
    if isExistingMetric existing row.key then importChunks existing rows buffer s
    else
      match readRow loads .serverMetric serverMetricColumns row with
      | none => raise s
      | some m =>
        if chunk ≤ (buffer ++ [m]).length then
          (attempt (fun s => db.stored? s (some (buffer ++ [m]))) s).next
            (importChunks existing rows [])
        else importChunks existing rows (buffer ++ [m]) s

def importMetrics (source : Source) (withHistory : Bool) (s : Target J) : Outcome (Target J) :=
  if withHistory then
    match source.serverMetrics with
    | none => raise s
    | some rows => importChunks db loads (existingMetrics s) rows [] s
  else passed s

def masterTables (source : Source) : List (Target J → Option (Target J)) :=
  [importSettings db loads source, importUsers db loads source, importServers db loads source,
    importAlertRules db loads source]

def logTables (source : Source) (withHistory : Bool) : List (Target J → Outcome (Target J)) :=
  [attempt (importAlertEvents db loads source), attempt (importAuditLogs db loads source),
    importMetrics db loads source withHistory]

/-- `import_from_sqlite` into a MySQL database; for any other it raises at once. -/
def importFromSqlite (source : Source) (withHistory : Bool) : Target J → Outcome (Target J) :=
  pipeline ((masterTables db loads source).map attempt ++ logTables db loads source withHistory)

/-! ## Transactions -/

variable {db loads}

theorem stored?_eq_some_iff {s t : Target J} {batch : Option (List (Entry Text J))} :
    db.stored? s batch = some t ↔ ∃ pending rows, batch = some pending ∧
      pending.mapM (Entry.store db.moment) = some rows ∧
      (rows = [] ∨ db.accepts s rows = true) ∧ t = s ++ rows := by
  simp only [Mysql.stored?, Option.bind_eq_bind, Option.bind_eq_some_iff,
    Option.ite_none_right_eq_some, Option.some.injEq]
  constructor
  · rintro ⟨pending, hBatch, rows, hRows, hAccepts, hState⟩
    exact ⟨pending, rows, hBatch, hRows, hAccepts, hState.symm⟩
  · rintro ⟨pending, rows, hBatch, hRows, hAccepts, hState⟩
    exact ⟨pending, hBatch, rows, hRows, hAccepts, hState.symm⟩

/-- A transaction without rows passes. -/
@[simp] theorem stored?_nil (s : Target J) : db.stored? s (some []) = some s := by
  rw [stored?_eq_some_iff]
  exact ⟨[], [], rfl, rfl, .inl rfl, (List.append_nil s).symm⟩

theorem mem_of_mapM {α β : Type} {f : α → Option β} {l : List α} {r : List β}
    (h : l.mapM f = some r) {a : α} (ha : a ∈ l) : ∃ b ∈ r, f a = some b := by
  rw [BatchLoop.mapM_eq_some_iff] at h
  have hImage : f a ∈ r.map some := h ▸ List.mem_map_of_mem ha
  obtain ⟨b, hb, hEq⟩ := List.mem_map.mp hImage
  exact ⟨b, hb, hEq.symm⟩

theorem exists_of_mem_mapM {α β : Type} {f : α → Option β} {l : List α} {r : List β}
    (h : l.mapM f = some r) {b : β} (hb : b ∈ r) : ∃ a ∈ l, f a = some b := by
  rw [BatchLoop.mapM_eq_some_iff] at h
  have hImage : some b ∈ l.map f := h ▸ List.mem_map_of_mem hb
  exact List.mem_map.mp hImage

theorem readRow_eq_some {entry : κ → List (Text × Value J) → Entry Text J} {columns : Columns}
    {row : Row κ} {e : Entry Text J} (h : readRow loads entry columns row = some e) :
    ∃ values, e = entry row.key values := by
  rw [readRow, Option.map_eq_some_iff] at h
  obtain ⟨values, -, hEntry⟩ := h
  exact ⟨values, hEntry.symm⟩

/-! ## The master tables -/

/-- A row that was stored is found again, so a table that went in has nothing left to store. -/
theorem settles_master {isSame : κ → Entry Int J → Bool}
    {entry : κ → List (Text × Value J) → Entry Text J} {columns : Columns}
    {table : Option (List (Row κ))}
    (hSame : ∀ k values e, (entry k values).store db.moment = some e → isSame k e = true) :
    Settles (fun s t : Target J => s ⊆ t) (attempt fun s =>
      db.stored? s (readNew loads (fun k => s.any (isSame k)) entry columns table)) where
  grows s := by
    unfold attempt
    split
    · rename_i t hStored
      obtain ⟨pending, rows, -, -, -, rfl⟩ := stored?_eq_some_iff.mp hStored
      exact List.subset_append_left s rows
    · exact List.Subset.refl s
  unchanged s hRaised := by
    unfold attempt at hRaised ⊢
    split at hRaised
    · cases hRaised
    · rfl
  settled s t hPassed hGrows := by
    unfold attempt at hPassed hGrows
    split at hPassed
    · rename_i s' hStored
      rw [hStored] at hGrows
      obtain ⟨pending, stored, hRead, hStore, -, rfl⟩ := stored?_eq_some_iff.mp hStored
      obtain ⟨rows, hTable, hPending⟩ := Option.bind_eq_some_iff.mp hRead
      have hFound : ∀ row ∈ rows, t.any (isSame row.key) = true := by
        intro row hRow
        rw [List.any_eq_true]
        by_cases hOld : s.any (isSame row.key) = true
        · obtain ⟨e, he, hKey⟩ := List.any_eq_true.mp hOld
          exact ⟨e, hGrows (List.mem_append_left _ he), hKey⟩
        · have hNew : row ∈ rows.filter fun row => !s.any (isSame row.key) :=
            List.mem_filter.mpr ⟨hRow, by simpa using hOld⟩
          obtain ⟨e, he, hEntry⟩ := mem_of_mapM hPending hNew
          obtain ⟨e', he', hStored'⟩ := mem_of_mapM hStore he
          obtain ⟨values, rfl⟩ := readRow_eq_some hEntry
          exact ⟨e', hGrows (List.mem_append_right _ he'), hSame _ _ _ hStored'⟩
      have hNone : readNew loads (fun k => t.any (isSame k)) entry columns table = some [] := by
        have hFilter : rows.filter (fun row => !t.any (isSame row.key)) = [] :=
          List.filter_eq_nil_iff.mpr fun row hRow => by simp [hFound row hRow]
        rw [readNew, hTable, Option.bind_some, hFilter]
        rfl
      exact attempt_of_some (by rw [hNone, stored?_nil])
    · cases hPassed

theorem settles_of_mem_masterTables {source : Source} {f : Target J → Outcome (Target J)}
    (h : f ∈ (masterTables db loads source).map attempt) :
    Settles (fun s t : Target J => s ⊆ t) f := by
  simp only [masterTables, List.map_cons, List.map_nil, List.mem_cons, List.not_mem_nil,
    or_false] at h
  rcases h with rfl | rfl | rfl | rfl
  · refine settles_master fun k values e h => ?_
    cases h
    exact db.sameText_refl k
  · refine settles_master fun k values e h => ?_
    cases h
    exact db.sameText_refl k.2
  · refine settles_master fun k values e h => ?_
    cases h
    exact decide_eq_true rfl
  · refine settles_master fun k values e h => ?_
    cases h
    exact decide_eq_true rfl

/-! ## The log tables -/

/-- `t` has some more rows in the log tables than `s`. -/
def Extends (s t : Target J) : Prop := ∃ more : Target J, (∀ e ∈ more, e.isLog) ∧ t = s ++ more

theorem Extends.refl (s : Target J) : Extends s s :=
  ⟨[], fun _ he => (List.not_mem_nil he).elim, (List.append_nil s).symm⟩

theorem Extends.trans {s t u : Target J} (hst : Extends s t) (htu : Extends t u) :
    Extends s u := by
  obtain ⟨first, hFirst, rfl⟩ := hst
  obtain ⟨second, hSecond, rfl⟩ := htu
  refine ⟨first ++ second, fun e he => ?_, List.append_assoc s first second⟩
  rcases List.mem_append.mp he with h | h
  · exact hFirst e h
  · exact hSecond e h

theorem Extends.subset {s t : Target J} (h : Extends s t) : s ⊆ t := by
  obtain ⟨more, -, rfl⟩ := h
  exact List.subset_append_left s more

theorem Extends.length_le {s t : Target J} (h : Extends s t) : s.length ≤ t.length := by
  obtain ⟨more, -, rfl⟩ := h
  simp

/-- The source yields timestamps as texts, the target as moments. -/
theorem not_isExistingEvent (s : Target J) (key : Int × Text × Text) :
    isExistingEvent s key = false := by
  refine decide_eq_false fun h => ?_
  obtain ⟨e, -, hKey⟩ := List.mem_filterMap.mp h
  cases e <;> simp at hKey

theorem not_isExistingMetric (s : Target J) (key : Int × Text) :
    isExistingMetric (existingMetrics s) key = false := by
  refine decide_eq_false fun h => ?_
  obtain ⟨e, -, hKey⟩ := List.mem_filterMap.mp h
  cases e <;> simp at hKey

def AllLogs (batch : Option (List (Entry Text J))) : Prop :=
  ∀ pending, batch = some pending → ∀ e ∈ pending, e.isLog

theorem isLog_store {moment : Text → Option Int} {e : Entry Text J} {e' : Entry Int J}
    (h : e.store moment = some e') : e'.isLog = e.isLog := by
  cases e <;> simp only [Entry.store, Option.map_eq_some_iff, Option.some.injEq] at h
  case setting | user | server | alertRule =>
    rw [← h]
    rfl
  case alertEvent | auditLog | serverMetric =>
    obtain ⟨d, -, rfl⟩ := h
    rfl

/-- A batch for the log tables that was stored once is stored again. -/
theorem stored?_again {s t : Target J} {batch : Option (List (Entry Text J))}
    (hLogs : AllLogs batch) (h : db.stored? s batch = some t) :
    ∃ rows : Target J, (∀ e ∈ rows, e.isLog) ∧ (rows = [] → batch = some []) ∧ t = s ++ rows ∧
      ∀ s', Extends s s' → db.stored? s' batch = some (s' ++ rows) := by
  obtain ⟨pending, rows, hBatch, hStore, hAccepts, rfl⟩ := stored?_eq_some_iff.mp h
  have hRows : ∀ e ∈ rows, e.isLog := by
    intro e he
    obtain ⟨e', he', hEntry⟩ := exists_of_mem_mapM hStore he
    rw [isLog_store hEntry]
    exact hLogs pending hBatch e' he'
  refine ⟨rows, hRows, ?_, rfl, ?_⟩
  · rintro rfl
    rw [BatchLoop.mapM_eq_some_iff] at hStore
    rw [hBatch, List.map_eq_nil_iff.mp hStore]
  · rintro _ ⟨more, hMore, rfl⟩
    refine stored?_eq_some_iff.mpr ⟨pending, rows, hBatch, hStore, ?_, rfl⟩
    exact hAccepts.imp_right (db.accepts_again hRows hMore)

/-- A stage that stores the batch, and goes on from there. -/
structure StartsWith (db : Mysql J) (batch : Option (List (Entry Text J)))
    (f : Target J → Outcome (Target J)) : Prop where
  logs : AllLogs batch
  idle : batch = some [] → ∀ s, f s = passed s
  refused : ∀ s, db.stored? s batch = none → f s = raise s
  stored : ∀ s t, batch ≠ some [] → db.stored? s batch = some t → Extends t (f s).state

variable {batch : Option (List (Entry Text J))} {f : Target J → Outcome (Target J)}

theorem StartsWith.length_lt (h : StartsWith db batch f) (hBatch : batch ≠ some [])
    {s t s' : Target J} (hStored : db.stored? s batch = some t) (hExtends : Extends s s') :
    s'.length < (f s').state.length := by
  obtain ⟨rows, -, hNil, -, hAgain⟩ := stored?_again h.logs hStored
  have hLength := (h.stored s' _ hBatch (hAgain s' hExtends)).length_le
  have hRows : 0 < rows.length := List.length_pos_iff.mpr fun hRows => hBatch (hNil hRows)
  rw [List.length_append] at hLength
  omega

theorem StartsWith.keeps (h : StartsWith db batch f) (s : Target J) : Extends s (f s).state := by
  by_cases hBatch : batch = some []
  · rw [h.idle hBatch]
    exact .refl s
  · cases hStored : db.stored? s batch with
    | none =>
      rw [h.refused s hStored]
      exact .refl s
    | some t =>
      obtain ⟨rows, hRows, -, rfl, -⟩ := stored?_again h.logs hStored
      exact Extends.trans ⟨rows, hRows, rfl⟩ (h.stored s _ hBatch hStored)

theorem StartsWith.appends (h : StartsWith db batch f) (hBatch : batch ≠ some []) :
    Appends List.length Extends f where
  keeps := h.keeps
  grows s := (h.keeps s).length_le
  again s := by
    cases hStored : db.stored? s batch with
    | none => exact .inl (h.refused s hStored)
    | some t => exact .inr fun s' hExtends => h.length_lt hBatch hStored hExtends

/-- A table that is copied in one transaction. -/
theorem startsWith_attempt (hLogs : AllLogs batch) :
    StartsWith db batch (attempt fun s => db.stored? s batch) where
  logs := hLogs
  idle hBatch s := attempt_of_some (by rw [hBatch, stored?_nil])
  refused _ hRefused := attempt_of_none hRefused
  stored s t _ hStored := by
    rw [attempt_of_some (t := t) hStored]
    exact .refl t

/-! ## Batches of metrics -/

variable {existing : List (Int × Stamp)}

/-- The buffer is filled up to a chunk or to the last row, and stored. -/
theorem importChunks_eq (hExisting : ∀ key, isExistingMetric existing key = false)
    (rows : List (Row (Int × Text))) {buffer : List (Entry Text J)} (hRoom : buffer.length < chunk)
    (hWork : rows ≠ [] ∨ buffer ≠ []) (s : Target J) :
    importChunks db loads existing rows buffer s =
      (attempt (fun s => db.stored? s (((rows.take (chunk - buffer.length)).mapM
        (readRow loads .serverMetric serverMetricColumns)).map (buffer ++ ·))) s).next
        (importChunks db loads existing (rows.drop (chunk - buffer.length)) []) := by
  induction rows generalizing buffer with
  | nil =>
    have hDone : ∀ t, importChunks db loads existing [] [] t = passed t := fun t =>
      attempt_of_some (stored?_nil t)
    simp only [List.take_nil, List.drop_nil, List.mapM_nil, Option.pure_def, Option.map_some,
      List.append_nil]
    rw [importChunks]
    cases hStored : db.stored? s (some buffer) with
    | none => rw [attempt_of_none hStored, next_raise]
    | some t => rw [attempt_of_some hStored, next_passed, hDone]
  | cons row rows ih =>
    obtain ⟨n, hn⟩ : ∃ n, chunk - buffer.length = n + 1 := ⟨chunk - buffer.length - 1, by omega⟩
    rw [importChunks, if_neg (by simp [hExisting]), hn, List.take_succ_cons, List.drop_succ_cons,
      List.mapM_cons]
    cases hRead : readRow loads .serverMetric serverMetricColumns row with
    | none => rfl
    | some m =>
      have hSplit : ∀ r : Option (List (Entry Text J)),
          ((some m >>= fun b => do let bs ← r; pure (b :: bs)).map (buffer ++ ·)) =
            r.map (buffer ++ [m] ++ ·) := by
        rintro (_ | bs) <;> simp
      dsimp only
      rw [hSplit]
      split
      · -- the buffer is full
        rename_i hFull
        rw [List.length_append, List.length_singleton] at hFull
        obtain rfl : n = 0 := by omega
        simp only [List.take_zero, List.drop_zero, List.mapM_nil, Option.pure_def,
          Option.map_some, List.append_nil]
      · rename_i hFull
        rw [List.length_append, List.length_singleton] at hFull
        have hRest : chunk - (buffer ++ [m]).length = n := by
          rw [List.length_append, List.length_singleton]
          omega
        rw [ih (by rw [List.length_append, List.length_singleton]; omega) (.inr (by simp)), hRest]

theorem allLogs_readNew {found : κ → Bool} {entry : κ → List (Text × Value J) → Entry Text J}
    {columns : Columns} {table : Option (List (Row κ))}
    (hEntry : ∀ k values, (entry k values).isLog = true) :
    AllLogs (readNew loads found entry columns table) := by
  intro pending hRead e he
  obtain ⟨rows, -, hPending⟩ := Option.bind_eq_some_iff.mp hRead
  obtain ⟨row, -, hRow⟩ := exists_of_mem_mapM hPending he
  obtain ⟨values, rfl⟩ := readRow_eq_some hRow
  exact hEntry row.key values

theorem extends_attempt {s : Target J} (hLogs : AllLogs batch) :
    Extends s (attempt (fun s => db.stored? s batch) s).state := by
  cases hStored : db.stored? s batch with
  | none =>
    rw [attempt_of_none hStored]
    exact .refl s
  | some t =>
    obtain ⟨rows, hRows, -, rfl, -⟩ := stored?_again hLogs hStored
    rw [attempt_of_some hStored]
    exact ⟨rows, hRows, rfl⟩

theorem extends_importChunks (existing : List (Int × Stamp)) (rows : List (Row (Int × Text)))
    {buffer : List (Entry Text J)} (hLogs : AllLogs (some buffer)) (s : Target J) :
    Extends s (importChunks db loads existing rows buffer s).state := by
  induction rows generalizing buffer s with
  | nil => exact extends_attempt hLogs
  | cons row rows ih =>
    rw [importChunks]
    split
    · exact ih hLogs s
    · split
      · exact .refl s
      · rename_i m hRead
        obtain ⟨values, rfl⟩ := readRow_eq_some hRead
        have hMore : AllLogs (some (buffer ++ [Entry.serverMetric row.key values])) := by
          rintro _ ⟨⟩ e he
          rcases List.mem_append.mp he with hOld | hNew
          · exact hLogs buffer rfl e hOld
          · rw [List.mem_singleton.mp hNew]
            rfl
        split
        · rw [Outcome.next]
          split
          · exact extends_attempt hMore
          · refine (extends_attempt hMore).trans (ih ?_ _)
            rintro _ ⟨⟩ e he
            exact (List.not_mem_nil he).elim
        · exact ih hMore s

theorem readNew_all {entry : κ → List (Text × Value J) → Entry Text J} {columns : Columns}
    (rows : List (Row κ)) : readNew loads (fun _ => false) entry columns (some rows) =
      rows.mapM (readRow loads entry columns) := by
  simp [readNew]

theorem readNew_all_eq_nil {entry : κ → List (Text × Value J) → Entry Text J} {columns : Columns}
    {table : Option (List (Row κ))}
    (h : readNew loads (fun _ => false) entry columns table = some []) : table = some [] := by
  cases table with
  | none => cases h
  | some rows =>
    rw [readNew_all, BatchLoop.mapM_eq_some_iff] at h
    rw [List.map_eq_nil_iff.mp h]

theorem startsWith_importMetrics (source : Source) (withHistory : Bool) :
    StartsWith db (if withHistory then
      readNew loads (fun _ => false) .serverMetric serverMetricColumns
        (source.serverMetrics.map (List.take chunk)) else some [])
      (importMetrics db loads source withHistory) := by
  cases withHistory with
  | false =>
    simp only [Bool.false_eq_true, if_false]
    refine ⟨?_, fun _ s => rfl, fun s h => ?_, fun s t h => (h rfl).elim⟩
    · rintro _ ⟨⟩ e he
      exact (List.not_mem_nil he).elim
    · rw [stored?_nil] at h
      cases h
  | true =>
    simp only [if_true]
    cases hTable : source.serverMetrics with
    | none =>
      refine ⟨fun _ h => (nomatch h), fun h => (nomatch h), fun s _ => ?_,
        fun s t _ h => (nomatch h)⟩
      simp only [importMetrics, hTable, if_true]
    | some rows =>
      have hRun : ∀ s : Target J, importMetrics db loads source true s =
          importChunks db loads (existingMetrics s) rows [] s := fun s => by
        simp only [importMetrics, hTable, if_true]
      have hFirst : ∀ s : Target J, rows ≠ [] →
          importChunks db loads (existingMetrics s) rows [] s =
            (attempt (fun s => db.stored? s (readNew loads (fun _ => false) .serverMetric
              serverMetricColumns (some (rows.take chunk)))) s).next
              (importChunks db loads (existingMetrics s) (rows.drop chunk) []) := fun s hRows => by
        rw [importChunks_eq (not_isExistingMetric s) rows (by simp [chunk]) (.inl hRows), readNew_all]
        simp
      rw [Option.map_some]
      refine ⟨allLogs_readNew fun _ _ => rfl, fun hNil s => ?_, fun s hRefused => ?_,
        fun s t hBatch hStored => ?_⟩
      · have hTake : rows.take chunk = [] := by simpa using readNew_all_eq_nil hNil
        obtain rfl : rows = [] := by simpa [chunk] using hTake
        rw [hRun, importChunks]
        exact attempt_of_some (stored?_nil s)
      · have hRows : rows ≠ [] := by
          rintro rfl
          rw [List.take_nil, readNew_all, List.mapM_nil, Option.pure_def, stored?_nil] at hRefused
          cases hRefused
        rw [hRun, hFirst s hRows, attempt_of_none hRefused, next_raise]
      · have hRows : rows ≠ [] := by
          rintro rfl
          exact hBatch (by rw [List.take_nil, readNew_all]; rfl)
        rw [hRun, hFirst s hRows, attempt_of_some hStored, next_passed]
        refine extends_importChunks _ _ ?_ t
        rintro _ ⟨⟩ e he
        exact (List.not_mem_nil he).elim

/-! ## The import, run again -/

/-- The rows that the three log tables are begun with. -/
def logBatches (loads : Text ⊕ List UInt8 → Option J) (source : Source) (withHistory : Bool) :
    List (Option (List (Entry Text J))) :=
  [readNew loads (fun _ => false) .alertEvent alertEventColumns source.alertEvents,
    readNew loads (fun _ => false) .auditLog auditLogColumns source.auditLogs,
    if withHistory then
      readNew loads (fun _ => false) .serverMetric serverMetricColumns
        (source.serverMetrics.map (List.take chunk))
    else some []]

/-- None of the batches has a row, or the first that has one is refused. -/
def NothingLogged (db : Mysql J) (s : Target J) : List (Option (List (Entry Text J))) → Prop
  | [] => True
  | some [] :: batches => NothingLogged db s batches
  | batch :: _ => db.stored? s batch = none

/-- The target once the master tables are imported. -/
def mastersImported (db : Mysql J) (loads : Text ⊕ List UInt8 → Option J) (source : Source)
    (target : Target J) : Option (Target J) :=
  (masterTables db loads source).foldlM (fun s table => table s) target

theorem startsWith_logTables (db : Mysql J) (loads : Text ⊕ List UInt8 → Option J) (source : Source)
    (withHistory : Bool) : List.Forall₂ (StartsWith db) (logBatches loads source withHistory)
      (logTables db loads source withHistory) := by
  have hEvents : importAlertEvents db loads source = fun s => db.stored? s
      (readNew loads (fun _ => false) .alertEvent alertEventColumns source.alertEvents) := by
    funext s
    have hNone : isExistingEvent s = fun _ => false := funext (not_isExistingEvent s)
    rw [importAlertEvents, hNone]
  refine .cons ?_ (.cons ?_ (.cons (startsWith_importMetrics source withHistory) .nil))
  · rw [hEvents]
    exact startsWith_attempt (allLogs_readNew fun _ _ => rfl)
  · exact startsWith_attempt (allLogs_readNew fun _ _ => rfl)

theorem raisesFirst_iff {batches : List (Option (List (Entry Text J)))}
    {fs : List (Target J → Outcome (Target J))} (h : List.Forall₂ (StartsWith db) batches fs)
    (s : Target J) : RaisesFirst s fs ↔ NothingLogged db s batches := by
  induction h with
  | nil => exact Iff.rfl
  | @cons batch f batches fs hf _ ih =>
    rw [RaisesFirst]
    by_cases hBatch : batch = some []
    · have hIdle := hf.idle hBatch
      subst hBatch
      rw [NothingLogged, ← ih, hIdle s]
      simp only [hIdle, implies_true, true_and, (raise_ne_passed s).symm, or_false]
    · have hMatch : NothingLogged db s (batch :: batches) ↔ db.stored? s batch = none := by
        cases batch with
        | none => exact Iff.rfl
        | some pending =>
          cases pending with
          | nil => exact (hBatch rfl).elim
          | cons => exact Iff.rfl
      rw [hMatch]
      cases hStored : db.stored? s batch with
      | none => exact iff_of_true (.inr (hf.refused s hStored)) rfl
      | some t =>
        have hMore := hf.length_lt hBatch hStored (.refl s)
        refine iff_of_false ?_ (by simp)
        rintro (⟨hIdle, -⟩ | hRaise)
        · rw [hIdle] at hMore
          exact lt_irrefl _ hMore
        · rw [hRaise] at hMore
          exact lt_irrefl _ hMore

/-- After an import another one finds the master tables done, or meets what made it raise. -/
theorem masters_settled {source : Source} {s t : Target J}
    (hGrows : (pipeline ((masterTables db loads source).map attempt) s).state ⊆ t)
    (hRaised : (pipeline ((masterTables db loads source).map attempt) s).raised = true →
      t = (pipeline ((masterTables db loads source).map attempt) s).state) :
    pipeline ((masterTables db loads source).map attempt) t =
      ⟨t, (pipeline ((masterTables db loads source).map attempt) s).raised⟩ :=
  pipeline_settled List.Subset.refl List.Subset.trans
    (fun _ hf => settles_of_mem_masterTables hf) hGrows hRaised

theorem idle_or_appends_of_mem_logTables {source : Source} {withHistory : Bool}
    {f : Target J → Outcome (Target J)} (hf : f ∈ logTables db loads source withHistory) :
    (∀ t, f t = passed t) ∨ Appends List.length Extends f := by
  obtain ⟨batch, -, hStarts⟩ :=
    BatchLoop.exists_of_mem_results (startsWith_logTables db loads source withHistory) hf
  by_cases hBatch : batch = some []
  · exact .inl (hStarts.idle hBatch)
  · exact .inr (hStarts.appends hBatch)

theorem importFromSqlite_of_raised {source : Source} {withHistory : Bool} {t : Target J}
    (h : (pipeline ((masterTables db loads source).map attempt) t).raised = true) :
    importFromSqlite db loads source withHistory t =
      pipeline ((masterTables db loads source).map attempt) t := by
  rw [importFromSqlite, pipeline_append, Outcome.next, if_pos h]

theorem importFromSqlite_of_passed {source : Source} {withHistory : Bool} {s t : Target J}
    (h : pipeline ((masterTables db loads source).map attempt) t = passed s) :
    importFromSqlite db loads source withHistory t =
      pipeline (logTables db loads source withHistory) s := by
  rw [importFromSqlite, pipeline_append, h, next_passed]

/-- Another import leaves the target as it is unless a row of the log tables was stored. -/
theorem reimport_unchanged_iff (db : Mysql J) (loads : Text ⊕ List UInt8 → Option J)
    (source : Source) (withHistory : Bool) (target : Target J) :
    (importFromSqlite db loads source withHistory
        (importFromSqlite db loads source withHistory target).state).state =
      (importFromSqlite db loads source withHistory target).state ↔
    ∀ s, mastersImported db loads source target = some s →
      NothingLogged db s (logBatches loads source withHistory) := by
  obtain hPassed | hRaise :=
    outcome_cases (pipeline ((masterTables db loads source).map attempt) target)
  · generalize (pipeline ((masterTables db loads source).map attempt) target).state = s at hPassed
    have hMasters : mastersImported db loads source target = some s :=
      pipeline_attempt_eq_passed_iff.mp hPassed
    have hStages : ∀ f ∈ logTables db loads source withHistory,
        (∀ t, f t = passed t) ∨ Appends List.length Extends f :=
      fun f hf => idle_or_appends_of_mem_logTables hf
    have hExtends : Extends s (pipeline (logTables db loads source withHistory) s).state :=
      pipeline_rel Extends.refl Extends.trans (fun f hf t => (hStages f hf).elim
        (fun hIdle => by rw [hIdle]; exact .refl t) fun hAppends => hAppends.keeps t) s
    have hAgain : pipeline ((masterTables db loads source).map attempt)
        (pipeline (logTables db loads source withHistory) s).state =
          passed (pipeline (logTables db loads source withHistory) s).state := by
      have hSettled := masters_settled (s := target)
        (by rw [hPassed]; exact hExtends.subset) (by rw [hPassed]; exact fun h => nomatch h)
      rw [hPassed] at hSettled
      exact hSettled
    rw [importFromSqlite_of_passed hPassed, importFromSqlite_of_passed hAgain,
      rerun_appending_iff Extends.refl Extends.trans hStages,
      raisesFirst_iff (startsWith_logTables db loads source withHistory)]
    simp [hMasters]
  · have hRaised : (pipeline ((masterTables db loads source).map attempt) target).raised = true := by
      rw [hRaise]
      rfl
    have hAgain := masters_settled (List.Subset.refl
      (pipeline ((masterTables db loads source).map attempt) target).state) fun _ => rfl
    refine iff_of_true ?_ fun s hMasters => ?_
    · rw [importFromSqlite_of_raised hRaised,
        importFromSqlite_of_raised (by rw [hAgain]; exact hRaised), hAgain]
    · rw [pipeline_attempt_eq_passed_iff.mpr hMasters] at hRaised
      cases hRaised

/-- A database that knows one timestamp and accepts every row. -/
def plainMysql : Mysql Unit where
  sameText t u := t = u
  moment t := if t = ("2024-05-01 08:00:00.000000" : Text) then some 1714550400000000 else none
  accepts _ _ := true
  sameText_refl _ := decide_eq_true rfl
  accepts_again _ _ _ := rfl

def oneEvent : Source where
  settings := some []
  users := some []
  servers := some []
  alertRules := some []
  alertEvents := some [⟨(1, "gpu_temp", "2024-05-01 08:00:00.000000"), Dict.empty⟩]
  auditLogs := some []
  serverMetrics := some []

/-- The only alert event of the source is there twice. -/
theorem reimport_duplicates_event :
    let first := (importFromSqlite plainMysql (fun _ => none) oneEvent true []).state
    let second := (importFromSqlite plainMysql (fun _ => none) oneEvent true first).state
    first.length = 1 ∧ second = first ++ first ∧ second ≠ first := by
  decide

end GpuMon.Import

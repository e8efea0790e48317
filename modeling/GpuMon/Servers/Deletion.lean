import GpuMon.Alerts.Stranded
import GpuMon.IdleState
import GpuMon.Servers.Credentials

/-!
# Deletion of a server (`api/servers.py`, `models.py`)

What belongs to a server is kept in its own tables, in the events, and in one document of the
settings. Some tables have a foreign key that cascades, most are emptied by a list of models in
`delete_server`, and a few are in neither. A new server takes the key after the greatest one in
use, so it may be that of a server which was deleted.

* `delete_forgets_iff`: after the commit nothing refers to the server exactly if there were no IPMI
  snapshots, open events and idle GPUs of it before.
* `deleted_server_inherited`: the next server inherits the others.
-/

namespace GpuMon.Servers

open PyText

/-! ## The tables -/

/-- The tables with a `server_id`, apart from metrics, rules and events. -/
inductive ServerTable
  | metricsHourly
  | kernelEvents
  | slowHealth
  | inventory
  | baselines
  | notes
  | processes
  | ipmi
  deriving DecidableEq

/-- A row of such a table, with the columns that a deletion looks at. -/
structure ServerData where
  id : Nat
  serverId : Nat
  deriving DecidableEq

structure AuditLog where
  username : Text
  action : Text
  detail : Text
  deriving DecidableEq

structure Database extends Alerts.Store where
  rows : ServerTable → List ServerData
  /-- The setting `gpu_idle_state`. -/
  idleState : Option IdleState.Doc := none
  audits : List AuditLog := []

/-- The models that `delete_server` lists, apart from `ServerMetric`. -/
def listedTables : List ServerTable :=
  [.metricsHourly, .kernelEvents, .slowHealth, .inventory, .baselines, .notes]

/-- The tables with `ON DELETE CASCADE`, apart from metrics and rules. -/
def cascadingTables : List ServerTable := [.processes]

/-- What a deletion leaves of a table. -/
def keptRows (db : Database) (serverId : Nat) (table : ServerTable) : List ServerData :=
  if table ∈ listedTables ++ cascadingTables then
    (db.rows table).filter fun row => row.serverId ≠ serverId
  else db.rows table

/-- `delete_server`, up to its commit. -/
def deleteServer (env : Env) (admin : Text) (db : Database) (serverId : Nat) :
    Except RequestError Database :=
  match db.servers.get? serverId with
  | none => .error (.http 404 "Server not found")
  | some server =>
    if env.storageReady = false then .error .storage
    else
      match Alerts.deleteServer db.toStore serverId with
      | .error e => .error (.http e.status e.detail)
      | .ok store =>
        if env.commits = false then .error .commit
        else .ok
          { store with
            rows := keptRows db serverId
            idleState := db.idleState
            audits := db.audits ++
              [⟨admin, "server.delete", ("deleted server " : Text) ++ server.name⟩] }

/-- Nothing that is kept refers to a server. -/
structure Forgotten (db : Database) (serverId : Nat) : Prop where
  metrics : ∀ m ∈ db.metrics.rows, m.serverId ≠ serverId
  rows : ∀ table, ∀ row ∈ db.rows table, row.serverId ≠ serverId
  events : ∀ ev ∈ db.events.rows, ev.isOpen = true → ev.serverId ≠ serverId
  idle : ∀ key ∈ (db.idleState.getD .empty).keys,
    startsWith key (IdleState.keyPrefix serverId) = false

/-- What `delete_server` does not look at is not there. -/
structure NothingOverlooked (db : Database) (serverId : Nat) : Prop where
  ipmi : ∀ row ∈ db.rows .ipmi, row.serverId ≠ serverId
  events : ∀ ev ∈ db.events.rows, ev.isOpen = true → ev.serverId ≠ serverId
  idle : ∀ key ∈ (db.idleState.getD .empty).keys,
    startsWith key (IdleState.keyPrefix serverId) = false

section Spec

variable {env : Env} {admin : Text} {db db' : Database} {serverId : Nat}

theorem deleteServer_ok (h : deleteServer env admin db serverId = .ok db') :
    db'.metrics = (db.metrics.filter fun m => m.serverId ≠ serverId) ∧
      db'.events = db.events.map (Alerts.detachRules (Alerts.rulesOfServer db.toStore serverId))
        (Alerts.key_detachRules (Alerts.rulesOfServer db.toStore serverId)) ∧
      db'.rows = keptRows db serverId ∧ db'.idleState = db.idleState := by
  unfold deleteServer at h
  split at h
  · cases h
  split at h
  · cases h
  split at h
  · cases h
  rename_i store hStore
  split at h
  · cases h
  cases h
  unfold Alerts.deleteServer at hStore
  split at hStore
  · cases hStore
  · cases hStore
    exact ⟨rfl, rfl, rfl, rfl⟩

/-- An event keeps its server and stays as open as it was. -/
theorem detachRules_keeps (rules : List AlertRule) (ev : AlertEvent) :
    (Alerts.detachRules rules ev).serverId = ev.serverId ∧
      (Alerts.detachRules rules ev).isOpen = ev.isOpen := by
  unfold Alerts.detachRules
  split
  · exact ⟨rfl, rfl⟩
  · exact ⟨rfl, rfl⟩

/-- Every table but that of the IPMI snapshots loses the rows of the server. -/
theorem serverId_ne_of_mem_keptRows {table : ServerTable} {row : ServerData}
    (hTable : table ≠ .ipmi) (h : row ∈ keptRows db serverId table) : row.serverId ≠ serverId := by
  have hListed : table ∈ listedTables ++ cascadingTables := by
    cases table with
    | ipmi => exact absurd rfl hTable
    | _ => decide
  rw [keptRows, if_pos hListed] at h
  exact of_decide_eq_true (List.mem_filter.mp h).2

theorem keptRows_ipmi : keptRows db serverId .ipmi = db.rows .ipmi := rfl

theorem delete_forgets_iff (h : deleteServer env admin db serverId = .ok db') :
    Forgotten db' serverId ↔ NothingOverlooked db serverId := by
  obtain ⟨hMetrics, hEvents, hRows, hIdle⟩ := deleteServer_ok h
  constructor
  · intro hForgotten
    refine ⟨fun row hMem => ?_, fun ev hMem hOpen => ?_, fun key hMem => ?_⟩
    · refine hForgotten.rows .ipmi row ?_
      rw [hRows]
      exact hMem
    · obtain ⟨hServer, hSame⟩ := detachRules_keeps (Alerts.rulesOfServer db.toStore serverId) ev
      rw [← hServer]
      refine hForgotten.events _ ?_ (hSame.trans hOpen)
      rw [hEvents]
      exact Table.mem_map.mpr ⟨ev, hMem, rfl⟩
    · refine hForgotten.idle key ?_
      rw [hIdle]
      exact hMem
  · intro hNothing
    refine ⟨fun m hMem => ?_, fun table row hMem => ?_, fun ev hMem hOpen => ?_,
      fun key hMem => ?_⟩
    · rw [hMetrics] at hMem
      exact of_decide_eq_true (Table.mem_filter.mp hMem).2
    · rw [hRows] at hMem
      by_cases hTable : table = .ipmi
      · rw [hTable, keptRows_ipmi] at hMem
        exact hNothing.ipmi row hMem
      · exact serverId_ne_of_mem_keptRows hTable hMem
    · rw [hEvents] at hMem
      obtain ⟨old, hOld, rfl⟩ := Table.mem_map.mp hMem
      obtain ⟨hServer, hSame⟩ := detachRules_keeps (Alerts.rulesOfServer db.toStore serverId) old
      rw [hServer]
      exact hNothing.events old hOld (hSame.symm.trans hOpen)
    · rw [hIdle] at hMem
      exact hNothing.idle key hMem

end Spec

section Example

/-- A server with a row in each table but that of the IPMI snapshots. -/
def plainDatabase : Database where
  rules := Table.empty
  servers := ⟨[{ id := 1, name := "gpu-01" }, { id := 2, name := "gpu-02" }], by decide⟩
  metrics := Table.empty
  events := ⟨[{ id := 1, serverId := 2, metric := "SSH_UNREACHABLE", recoveredAt := some 5 }],
    List.nodup_singleton _⟩
  rows table := if table = .ipmi then [⟨1, 1⟩] else [⟨1, 1⟩, ⟨2, 2⟩]

theorem delete_forgets_iff_plain :
    ∃ db, deleteServer { primary := "k" } "admin" plainDatabase 2 = .ok db ∧ Forgotten db 2 := by
  have hDone : ∃ db, deleteServer { primary := "k" } "admin" plainDatabase 2 = .ok db := ⟨_, rfl⟩
  obtain ⟨db, hRun⟩ := hDone
  refine ⟨db, hRun, (delete_forgets_iff hRun).mpr ⟨?_, ?_, ?_⟩⟩
  · decide
  · decide
  · decide

/-- The same with a snapshot, an open event and an idle GPU. -/
def monitoredDatabase : Database :=
  { plainDatabase with
    events := ⟨[{ id := 1, serverId := 2, metric := "GPU_MISSING" }], List.nodup_singleton _⟩
    rows := fun _ => [⟨1, 1⟩, ⟨2, 2⟩]
    idleState := some (Dict.empty.set "2:GPU-a" 0) }

theorem deleted_server_inherited :
    ∃ db, deleteServer { primary := "k" } "admin" monitoredDatabase 2 = .ok db ∧
      (⟨2, 2⟩ : ServerData) ∈ db.rows .ipmi ∧ (∃ ev ∈ db.events.rows, ev.isOpen = true ∧
        ev.serverId = 2) ∧ ("2:GPU-a" : Text) ∈ (db.idleState.getD .empty).keys ∧
      db.servers.nextKey = 2 := by
  refine ⟨_, rfl, ?_, ?_, ?_, ?_⟩
  · decide
  · decide
  · decide
  · decide

end Example

end GpuMon.Servers

import GpuMon.Rollup

/-!
# Rolling an hour up again

`rollHour` deletes the rows of its hour and servers and writes new ones, except for the rows whose
raw samples are gone. `rolledRow` is the one row it leaves for a server, `IsRollup` what a call
does to the tables as a whole.

* `rolled_isRollup`: a call over distinct servers is one.
* `rolledRow_rerun`: rolling the same hour up again arrives at the same row.
* `rollHour_rerun`: so a second call changes nothing.
-/

namespace GpuMon.Rollup

/-! ## The row of a server -/

/-- A row of this hour and one of these servers. -/
def ofHour (hourStart : Int) (serverIds : List Nat) (row : ServerMetricHourly) : Bool :=
  decide (row.serverId ∈ serverIds) && row.hour = hourStart

/-- The row of a server after a call. -/
def rolledRow (db : Store) (hourStart hourEnd : Int) (serverIds : List Nat) (interval : Int)
    (sid : Nat) : ServerMetricHourly :=
  match hourRows db hourStart hourEnd sid, (existingByServer db hourStart serverIds).get? sid with
  | [], some row => keepRow row
  | serverRows, _ => aggregate hourStart hourEnd interval sid serverRows
      ((previousByServer db hourStart serverIds).get? sid)

section Rows

variable {db db' : Store} {hourStart hourEnd : Int} {serverIds : List Nat} {interval : Int}
  {sid : Nat} {row : ServerMetricHourly}

theorem existing_eq_some_iff (hsid : sid ∈ serverIds) :
    (existingByServer db hourStart serverIds).get? sid = some row ↔
      row ∈ db.hourly ∧ row.serverId = sid ∧ row.hour = hourStart := by
  refine ⟨existing_some, fun h => ?_⟩
  obtain ⟨other, hOther⟩ := Option.isSome_iff_exists.mp ((existing_isSome hsid).mpr ⟨row, h⟩)
  obtain ⟨hMem, hServer, hHour⟩ := existing_some hOther
  have hKey : (other.serverId, other.hour) = (row.serverId, row.hour) := by
    rw [hServer, hHour, h.2.1, h.2.2]
  rw [hOther, List.inj_on_of_nodup_map db.hourlyKeys hMem h.1 hKey]

theorem rolledRow_of_kept (hRows : hourRows db hourStart hourEnd sid = [])
    (hRow : (existingByServer db hourStart serverIds).get? sid = some row) :
    rolledRow db hourStart hourEnd serverIds interval sid = keepRow row := by
  simp only [rolledRow, hRows, hRow]

theorem rolledRow_of_not_kept
    (h : ¬ keepsRow db hourStart hourEnd (existingByServer db hourStart serverIds) sid) :
    rolledRow db hourStart hourEnd serverIds interval sid =
      aggregate hourStart hourEnd interval sid (hourRows db hourStart hourEnd sid)
        ((previousByServer db hourStart serverIds).get? sid) := by
  unfold rolledRow
  split
  · rename_i row hRows hRow
    exact absurd ⟨hRows, by rw [hRow]; rfl⟩ h
  · rfl

theorem rolledRow_key (db : Store) (hourStart hourEnd : Int) (serverIds : List Nat)
    (interval : Int) (sid : Nat) :
    (rolledRow db hourStart hourEnd serverIds interval sid).serverId = sid ∧
      (rolledRow db hourStart hourEnd serverIds interval sid).hour = hourStart := by
  rw [← Prod.mk.injEq]
  by_cases h : keepsRow db hourStart hourEnd (existingByServer db hourStart serverIds) sid
  · obtain ⟨row, hRow⟩ := Option.isSome_iff_exists.mp h.2
    obtain ⟨-, hServer, hHour⟩ := existing_some hRow
    rw [rolledRow_of_kept h.1 hRow, keepRow_key, hServer, hHour]
  · rw [rolledRow_of_not_kept h, aggregate_key]

/-- A call leaves one row for each listed server. -/
theorem Rolled.row_iff (h : Rolled db hourStart hourEnd serverIds interval db')
    (hsid : sid ∈ serverIds) :
    (row ∈ db'.hourly ∧ row.serverId = sid ∧ row.hour = hourStart) ↔
      row = rolledRow db hourStart hourEnd serverIds interval sid := by
  have hMem : rolledRow db hourStart hourEnd serverIds interval sid ∈ db'.hourly := by
    rw [h.hourly]
    by_cases hKeep : keepsRow db hourStart hourEnd (existingByServer db hourStart serverIds) sid
    · obtain ⟨row, hRow⟩ := Option.isSome_iff_exists.mp hKeep.2
      rw [rolledRow_of_kept hKeep.1 hRow]
      refine List.mem_append_left _ (List.mem_append_right _ (List.mem_filterMap.mpr ⟨sid, ?_, ?_⟩))
      · exact List.mem_filter.mpr ⟨hsid, decide_eq_true hKeep⟩
      · rw [hRow]
        rfl
    · rw [rolledRow_of_not_kept hKeep]
      refine List.mem_append_right _ (List.mem_map_of_mem ?_)
      exact List.mem_filter.mpr ⟨hsid, decide_eq_true hKeep⟩
  obtain ⟨hServer, hHour⟩ := rolledRow_key db hourStart hourEnd serverIds interval sid
  constructor
  · rintro ⟨hRow, rfl, rfl⟩
    exact List.inj_on_of_nodup_map db'.hourlyKeys hRow hMem (by rw [hServer, hHour])
  · rintro rfl
    exact ⟨hMem, hServer, hHour⟩

/-- The rows of other hours and other servers stay as they are. -/
theorem Rolled.others (h : Rolled db hourStart hourEnd serverIds interval db') :
    (db'.hourly.filter fun r => !ofHour hourStart serverIds r) =
      db.hourly.filter fun r => !ofHour hourStart serverIds r := by
  rw [h.hourly, List.append_assoc, List.filter_append]
  have hOwn : ∀ rows : List ServerMetricHourly,
      (rows.map fun r => (r.serverId, r.hour)).Perm (serverIds.map fun s => (s, hourStart)) →
      (rows.filter fun r => !ofHour hourStart serverIds r) = [] := by
    intro rows hKeys
    rw [List.filter_eq_nil_iff]
    intro r hr
    have hKey := hKeys.mem_iff.mp (List.mem_map_of_mem hr)
    obtain ⟨sid, hsid, hEq⟩ := List.mem_map.mp hKey
    obtain ⟨hServer, hHour⟩ := Prod.mk.inj hEq
    simp [ofHour, ← hServer, hsid, ← hHour]
  rw [hOwn _ (rolled_keys db hourStart hourEnd serverIds interval), List.append_nil,
    List.filter_filter]
  exact List.filter_congr fun r _ => Bool.and_self _

end Rows

/-! ## The whole call -/

/-- What a call may do: write one row for each listed server and its hour, and where the raw
samples are gone, keep the row or withdraw the request to rebuild it. -/
structure IsRollup (db : Store) (hourStart hourEnd : Int) (serverIds : List Nat)
    (db' : Store) : Prop where
  servers : db'.servers = db.servers
  metrics : db'.metrics = db.metrics
  others : (db'.hourly.filter fun r => !ofHour hourStart serverIds r) =
    db.hourly.filter fun r => !ofHour hourStart serverIds r
  one : ∀ sid ∈ serverIds, ∃ row,
    (db'.hourly.filter fun r => r.serverId = sid && r.hour = hourStart) = [row]
  kept : ∀ row ∈ db.hourly, ofHour hourStart serverIds row = true →
    hourRows db hourStart hourEnd row.serverId = [] →
    row ∈ db'.hourly ∨
      row.gpuSampleMinutes = none ∧ { row with gpuTimeEstimated := false } ∈ db'.hourly

section Calls

variable {db db' db'' : Store} {hourStart hourEnd : Int} {serverIds : List Nat} {interval : Int}
  {sid : Nat}

theorem nodup_hourly (db : Store) : db.hourly.Nodup := .of_map _ db.hourlyKeys

theorem rolled_isRollup (h : Rolled db hourStart hourEnd serverIds interval db') :
    IsRollup db hourStart hourEnd serverIds db' := by
  refine ⟨h.servers, h.metrics, h.others, fun sid hsid => ?_, fun row hRow hOf hRows => ?_⟩
  · refine ⟨rolledRow db hourStart hourEnd serverIds interval sid, List.perm_singleton.mp ?_⟩
    rw [List.perm_ext_iff_of_nodup ((nodup_hourly db').filter _) (List.nodup_singleton _)]
    intro row
    rw [List.mem_singleton, ← h.row_iff hsid]
    simp
  · obtain ⟨hsid, hHour⟩ := Bool.and_eq_true_iff.mp hOf
    have hsid : row.serverId ∈ serverIds := of_decide_eq_true hsid
    have hExisting : (existingByServer db hourStart serverIds).get? row.serverId = some row :=
      (existing_eq_some_iff hsid).mpr ⟨hRow, rfl, of_decide_eq_true hHour⟩
    obtain ⟨hMem, -, -⟩ := (h.row_iff hsid).mpr (rolledRow_of_kept hRows hExisting).symm
    unfold keepRow at hMem
    split at hMem
    · rename_i hNone
      exact .inr ⟨hNone, hMem⟩
    · exact .inl hMem

theorem keepRow_keepRow (row : ServerMetricHourly) : keepRow (keepRow row) = keepRow row := by
  unfold keepRow
  by_cases h : row.gpuSampleMinutes = none <;> simp [h]

/-- A computed row has a card time, so nothing is withdrawn from it later. -/
theorem keepRow_aggregate (serverRows : List ServerMetric) (previous : Option ServerMetric) :
    keepRow (aggregate hourStart hourEnd interval sid serverRows previous) =
      aggregate hourStart hourEnd interval sid serverRows previous := by
  have hSome : (aggregate hourStart hourEnd interval sid serverRows previous).gpuSampleMinutes ≠
      none := by
    unfold aggregate withAverages
    dsimp only
    split <;> exact Option.some_ne_none _
  exact if_neg hSome

theorem keepRow_rolledRow (hRows : hourRows db hourStart hourEnd sid = []) :
    keepRow (rolledRow db hourStart hourEnd serverIds interval sid) =
      rolledRow db hourStart hourEnd serverIds interval sid := by
  by_cases h : keepsRow db hourStart hourEnd (existingByServer db hourStart serverIds) sid
  · obtain ⟨row, hRow⟩ := Option.isSome_iff_exists.mp h.2
    rw [rolledRow_of_kept hRows hRow, keepRow_keepRow]
  · rw [rolledRow_of_not_kept h, keepRow_aggregate]

/-- Rolling the hour up again arrives at the row that is there. -/
theorem rolledRow_rerun (h : Rolled db hourStart hourEnd serverIds interval db')
    (hsid : sid ∈ serverIds) :
    rolledRow db' hourStart hourEnd serverIds interval sid =
      rolledRow db hourStart hourEnd serverIds interval sid := by
  have hRowsSame : hourRows db' hourStart hourEnd sid = hourRows db hourStart hourEnd sid := by
    unfold hourRows
    rw [h.metrics]
  have hExisting : (existingByServer db' hourStart serverIds).get? sid =
      some (rolledRow db hourStart hourEnd serverIds interval sid) :=
    (existing_eq_some_iff hsid).mpr ((h.row_iff hsid).mpr rfl)
  by_cases hRows : hourRows db hourStart hourEnd sid = []
  · rw [rolledRow_of_kept (hRowsSame.trans hRows) hExisting, keepRow_rolledRow hRows]
  · have hPrevious : previousByServer db' hourStart serverIds =
        previousByServer db hourStart serverIds := by
      unfold previousByServer previousId
      rw [h.metrics, h.servers]
    rw [rolledRow_of_not_kept fun hKeep => hRows hKeep.1,
      rolledRow_of_not_kept fun hKeep => hRows (hRowsSame ▸ hKeep.1), hRowsSame, hPrevious]

theorem perm_of_rolled_rolled (h : Rolled db hourStart hourEnd serverIds interval db')
    (h' : Rolled db' hourStart hourEnd serverIds interval db'') :
    db''.hourly.Perm db'.hourly := by
  rw [List.perm_ext_iff_of_nodup (nodup_hourly db'') (nodup_hourly db')]
  intro row
  by_cases hOf : ofHour hourStart serverIds row = true
  · -- a row of a listed server: there is one before and after, and it is the same
    obtain ⟨hsid, hHour⟩ := Bool.and_eq_true_iff.mp hOf
    have hsid : row.serverId ∈ serverIds := of_decide_eq_true hsid
    have hHour : row.hour = hourStart := of_decide_eq_true hHour
    have hAfter : (row ∈ db''.hourly ∧ row.serverId = row.serverId ∧ row.hour = hourStart) ↔
        row = rolledRow db' hourStart hourEnd serverIds interval row.serverId := h'.row_iff hsid
    have hBefore : (row ∈ db'.hourly ∧ row.serverId = row.serverId ∧ row.hour = hourStart) ↔
        row = rolledRow db hourStart hourEnd serverIds interval row.serverId := h.row_iff hsid
    simp only [hHour, and_true] at hAfter hBefore
    rw [hAfter, hBefore, rolledRow_rerun h hsid]
  · have hOther := congrArg (row ∈ ·) h'.others
    simpa [hOf] using hOther

end Calls

/-- A call writes one row for each listed server and nothing else, keeps the rows that cannot be
computed again, and a second call leaves the same rows. -/
theorem rollHour_rerun (db : Store) (hourStart hourEnd : Int) (serverIds : List Nat)
    (hNodup : serverIds.Nodup) (interval : Int) :
    ∃ db', rollHour db hourStart hourEnd serverIds interval = .ok db' ∧
      IsRollup db hourStart hourEnd serverIds db' ∧
      ∃ db'', rollHour db' hourStart hourEnd serverIds interval = .ok db'' ∧
        db''.servers = db'.servers ∧ db''.metrics = db'.metrics ∧
        db''.hourly.Perm db'.hourly := by
  obtain ⟨db', hOk, hRolled⟩ := rollHour_ok db hourStart hourEnd interval hNodup
  obtain ⟨db'', hOk', hRolled'⟩ := rollHour_ok db' hourStart hourEnd interval hNodup
  exact ⟨db', hOk, rolled_isRollup hRolled, db'', hOk', hRolled'.servers, hRolled'.metrics,
    perm_of_rolled_rolled hRolled hRolled'⟩

/-- A legacy row, marked to be rebuilt, of an hour without raw samples. -/
def legacyHour : Store where
  servers := [1]
  metrics := []
  hourly := [{ serverId := 1, hour := 0, samples := 60, okSamples := 60, idleHeldMinutes := 480
               gpuTimeEstimated := true }]
  metricIds := List.nodup_nil
  metricServer := fun m hm => absurd hm List.not_mem_nil
  hourlyKeys := by decide

theorem legacyHour_rerun : ∃ db', rollHour legacyHour 0 (minutes 60) [1] 60 = .ok db' ∧
    IsRollup legacyHour 0 (minutes 60) [1] db' ∧
    ∃ db'', rollHour db' 0 (minutes 60) [1] 60 = .ok db'' ∧ db''.servers = db'.servers ∧
      db''.metrics = db'.metrics ∧ db''.hourly.Perm db'.hourly :=
  rollHour_rerun legacyHour 0 (minutes 60) [1] (by decide) 60

end GpuMon.Rollup

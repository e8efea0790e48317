import GpuMon.Rollup

/-!
# Closing the hours (`scheduler._hourly_aggregate`)

Once an hour the scheduler closes the rollup hours from the newest one of all servers up to the
previous full hour, or the whole window of 1080 hours when there is no rollup row. An hour that
lies before the newest row is not looked at again.

* `hasRow_closeHours`: which rows there are after the loop.
* `missing_hours_closed_iff`: every server has a row for every hour of the window with raw samples
  exactly when each of these hours has its row already or comes after the newest row.
* `added_server_keeps_hole`: a server whose samples are older than the newest row of another one.

The worker that rebuilds legacy rows afterwards is not here, only the decision to start it.
-/

namespace GpuMon.Rollup

open PyText

/-- `timedelta(hours=1)`. -/
def oneHour : Int := seconds 3600

def rollupBackfillHours : Nat := 24 * 45

/-- `_load_interval`. -/
def loadInterval (pollIntervalSeconds : Int) : Option Text → Int
  | none => pollIntervalSeconds
  | some value =>
    if value = [] then pollIntervalSeconds
    else match int? value with
      | some n => if 10 ≤ n then n else pollIntervalSeconds
      | none => pollIntervalSeconds

/-- The tables of the rollup, with the enabled servers and the setting of the poll interval. -/
structure HourlyStore extends Store where
  enabled : List Nat
  pollInterval : Option Text := none
  enabledNodup : enabled.Nodup

/-- The full hour before the current one. -/
def prevHour (now : Int) : Int := now / oneHour * oneHour - oneHour

/-- The hour of the newest rollup row. -/
def lastHour (db : Store) : Option Int := (db.hourly.map ServerMetricHourly.hour).max?

/-- The hour with which the loop starts. -/
def firstHour (prev : Int) : Option Int → Int
  | none => prev - (rollupBackfillHours - 1) * oneHour
  | some last => if last < prev then last + oneHour else prev

/-- The loop, with the hours that it may still close. -/
def closeHours (prev : Int) (serverIds : List Nat) (interval : Int) :
    Nat → Int → Store → Except Error Store
  | 0, _, db => .ok db
  | n + 1, hour, db =>
    if hour ≤ prev then do
      let db' ← rollHour db hour (hour + oneHour) serverIds interval
      closeHours prev serverIds interval n (hour + oneHour) db'
    else .ok db

/-- The arguments of the worker for legacy rows. -/
structure LegacyJob where
  serverIds : List Nat
  interval : Int
  beforeHour : Int
  deriving DecidableEq

def legacyJob (prev : Int) (serverIds : List Nat) (interval : Int) (db : Store) :
    Option LegacyJob :=
  if db.hourly.any fun r => r.gpuSampleMinutes = none && r.gpuTimeEstimated &&
      decide (r.serverId ∈ serverIds) && r.hour < prev
  then some ⟨serverIds, interval, prev⟩ else none

/-- `_hourly_aggregate`. -/
def hourlyAggregate (pollIntervalSeconds now : Int) (db : HourlyStore) :
    Except Error (Store × Option LegacyJob) :=
  let prev := prevHour now
  if db.enabled = [] then .ok (db.toStore, none)
  else do
    let interval := loadInterval pollIntervalSeconds db.pollInterval
    let db' ← closeHours prev db.enabled interval rollupBackfillHours
      (firstHour prev (lastHour db.toStore)) db.toStore
    return (db', legacyJob prev db.enabled interval db')

/-! ## Rows after a rollup -/

/-- There is a rollup row of the server for the hour. -/
def HasRow (db : Store) (sid : Nat) (hour : Int) : Prop :=
  ∃ r ∈ db.hourly, r.serverId = sid ∧ r.hour = hour

theorem hasRow_iff_mem_keys {db : Store} {sid : Nat} {hour : Int} :
    HasRow db sid hour ↔ (sid, hour) ∈ db.hourly.map fun r => (r.serverId, r.hour) := by
  simp [HasRow]

/-- A rollup gives every listed server its row for the hour, and no other row comes or goes. -/
theorem Rolled.hasRow_iff {db db' : Store} {hourStart hourEnd : Int} {serverIds : List Nat}
    {interval : Int} (h : Rolled db hourStart hourEnd serverIds interval db') (sid : Nat)
    (hour : Int) :
    HasRow db' sid hour ↔ HasRow db sid hour ∨ (sid ∈ serverIds ∧ hour = hourStart) := by
  have hPut := (rolled_keys db hourStart hourEnd serverIds interval).mem_iff (a := (sid, hour))
  rw [hasRow_iff_mem_keys, h.hourly, List.append_assoc, List.map_append, List.mem_append, hPut]
  simp only [HasRow, List.mem_map, List.mem_filter, Prod.mk.injEq]
  constructor
  · rintro (⟨r, ⟨hr, -⟩, hKey⟩ | ⟨s, hs, rfl, rfl⟩)
    · exact .inl ⟨r, hr, hKey⟩
    · exact .inr ⟨hs, rfl⟩
  · rintro (⟨r, hr, rfl, rfl⟩ | ⟨hs, rfl⟩)
    · by_cases hListed : r.serverId ∈ serverIds ∧ r.hour = hourStart
      · exact .inr ⟨r.serverId, hListed.1, rfl, hListed.2.symm⟩
      · exact .inl ⟨r, ⟨hr, by simpa using not_and_or.mp hListed⟩, rfl, rfl⟩
    · exact .inr ⟨sid, hs, rfl, rfl⟩

theorem exists_hour_succ {n : Nat} {hour h : Int} :
    (∃ i < n + 1, h = hour + i * oneHour) ↔
      h = hour ∨ ∃ i < n, h = hour + oneHour + i * oneHour := by
  rw [Nat.exists_lt_succ_left]
  refine or_congr (by simp) (exists_congr fun i => and_congr_right fun _ => ?_)
  push_cast
  rw [add_mul, one_mul, add_comm _ oneHour, ← add_assoc]

/-- The loop succeeds, and gives every listed server its rows for the hours it goes through. -/
theorem hasRow_closeHours (prev : Int) {serverIds : List Nat} (interval : Int)
    (hNodup : serverIds.Nodup) (n : Nat) (hour : Int) (db : Store) :
    ∃ db', closeHours prev serverIds interval n hour db = .ok db' ∧ db'.metrics = db.metrics ∧
      ∀ sid h, HasRow db' sid h ↔ HasRow db sid h ∨
        (sid ∈ serverIds ∧ h ≤ prev ∧ ∃ i < n, h = hour + i * oneHour) := by
  induction n generalizing hour db with
  | zero => exact ⟨db, rfl, rfl, fun sid h => by simp⟩
  | succ n ih =>
    unfold closeHours
    split
    · rename_i hDue
      obtain ⟨next, hRoll, hRolled⟩ := rollHour_ok db hour (hour + oneHour) interval hNodup
      obtain ⟨db', hRest, hMetrics, hRows⟩ := ih (hour + oneHour) next
      refine ⟨db', ?_, hMetrics.trans hRolled.metrics, fun sid h => ?_⟩
      · rw [hRoll]
        exact hRest
      · rw [hRows, hRolled.hasRow_iff, exists_hour_succ, or_assoc]
        refine or_congr_right ⟨?_, ?_⟩
        · rintro (⟨hs, rfl⟩ | ⟨hs, hPrev, hLater⟩)
          · exact ⟨hs, hDue, .inl rfl⟩
          · exact ⟨hs, hPrev, .inr hLater⟩
        · rintro ⟨hs, hPrev, rfl | hLater⟩
          · exact .inl ⟨hs, rfl⟩
          · exact .inr ⟨hs, hPrev, hLater⟩
    · rename_i hOver
      refine ⟨db, rfl, rfl, fun sid h => (or_iff_left ?_).symm⟩
      rintro ⟨-, hPrev, i, -, rfl⟩
      unfold oneHour seconds at hPrev
      omega

/-! ## Which hours are closed -/

/-- Every enabled server has a row for each of the last 1080 hours with raw samples. -/
def AllClosed (now : Int) (db : HourlyStore) (db' : Store) : Prop :=
  ∀ sid ∈ db.enabled, ∀ k < rollupBackfillHours,
    hourRows db' (prevHour now - k * oneHour) (prevHour now - k * oneHour + oneHour) sid ≠ [] →
      HasRow db' sid (prevHour now - k * oneHour)

/-- There is no rollup row at all, or the hour comes after the newest one by full hours, 1080 at
most, or it is the previous hour and rolled up for some server. -/
def AfterNewest (prev : Int) (db : Store) (hour : Int) : Prop :=
  match lastHour db with
  | none => True
  | some last =>
    (∃ i < rollupBackfillHours, hour = last + (i + 1) * oneHour) ∨ (hour = prev ∧ prev ≤ last)

/-- The hours of the loop, among the last ones. -/
theorem mem_loop_iff {prev : Int} {db : Store} {k : Nat} (hk : k < rollupBackfillHours) :
    (prev - k * oneHour ≤ prev ∧ ∃ i < rollupBackfillHours,
        prev - k * oneHour = firstHour prev (lastHour db) + i * oneHour) ↔
      AfterNewest prev db (prev - k * oneHour) := by
  have hHour : oneHour = 3600000000 := rfl
  have hCap : rollupBackfillHours = 1080 := rfl
  rw [hCap] at hk ⊢
  unfold AfterNewest firstHour
  rw [hHour, hCap]
  cases lastHour db with
  | none =>
    refine iff_of_true ⟨by omega, 1079 - k, by omega, ?_⟩ trivial
    push_cast
    omega
  | some last =>
    dsimp only
    split
    · rename_i hBefore
      constructor
      · rintro ⟨-, i, hi, hEq⟩
        exact .inl ⟨i, hi, by omega⟩
      · rintro (⟨i, hi, hEq⟩ | ⟨-, hOver⟩)
        · exact ⟨by omega, i, hi, by omega⟩
        · omega
    · rename_i hReached
      constructor
      · rintro ⟨-, i, hi, hEq⟩
        exact .inr ⟨by omega, by omega⟩
      · rintro (⟨i, hi, hEq⟩ | ⟨hPrev, -⟩)
        · omega
        · exact ⟨by omega, 0, by omega, by omega⟩

/-- A call succeeds and adds the rows of the hours after the newest one. -/
theorem hourlyAggregate_ok (pollIntervalSeconds now : Int) (db : HourlyStore) :
    ∃ db' job, hourlyAggregate pollIntervalSeconds now db = .ok (db', job) ∧
      db'.metrics = db.metrics ∧ ∀ sid ∈ db.enabled, ∀ k < rollupBackfillHours,
        (HasRow db' sid (prevHour now - k * oneHour) ↔
          HasRow db.toStore sid (prevHour now - k * oneHour) ∨
            AfterNewest (prevHour now) db.toStore (prevHour now - k * oneHour)) := by
  by_cases hNobody : db.enabled = []
  · refine ⟨db.toStore, none, if_pos hNobody, rfl, fun sid hsid => ?_⟩
    rw [hNobody] at hsid
    cases hsid
  · let interval := loadInterval pollIntervalSeconds db.pollInterval
    obtain ⟨db', hLoop, hMetrics, hRows⟩ := hasRow_closeHours (prevHour now) interval
      db.enabledNodup rollupBackfillHours (firstHour (prevHour now) (lastHour db.toStore))
      db.toStore
    refine ⟨db', legacyJob (prevHour now) db.enabled interval db', ?_, hMetrics,
      fun sid hsid k hk => ?_⟩
    · unfold hourlyAggregate
      dsimp only
      rw [if_neg hNobody, hLoop]
      exact rfl
    · rw [hRows, ← mem_loop_iff hk]
      exact or_congr_right (and_iff_right hsid)

/-- The hours that are missing are closed exactly when none of them lies before the newest row. -/
theorem missing_hours_closed_iff (pollIntervalSeconds now : Int) (db : HourlyStore) :
    ∃ db' job, hourlyAggregate pollIntervalSeconds now db = .ok (db', job) ∧
      (AllClosed now db db' ↔ ∀ sid ∈ db.enabled, ∀ k < rollupBackfillHours,
        hourRows db.toStore (prevHour now - k * oneHour)
            (prevHour now - k * oneHour + oneHour) sid ≠ [] →
          HasRow db.toStore sid (prevHour now - k * oneHour) ∨
            AfterNewest (prevHour now) db.toStore (prevHour now - k * oneHour)) := by
  obtain ⟨db', job, hRun, hMetrics, hRows⟩ := hourlyAggregate_ok pollIntervalSeconds now db
  refine ⟨db', job, hRun, forall_congr' fun sid => forall_congr' fun hsid =>
    forall_congr' fun k => forall_congr' fun hk => ?_⟩
  rw [hourRows, hMetrics, hRows sid hsid k hk]
  exact Iff.rfl

/-- Server 1 is rolled up to the previous hour, server 2 was enabled since and has a sample of the
hour before. -/
def addedServer : HourlyStore where
  servers := [1, 2]
  metrics := [{ id := 1, serverId := 2, collectedAt := seconds 3600 }]
  hourly := [{ serverId := 1, hour := seconds 7200 }]
  metricIds := by decide
  metricServer := by decide
  hourlyKeys := by decide
  enabled := [1, 2]
  enabledNodup := by decide

theorem added_server_keeps_hole :
    ∃ db' job, hourlyAggregate 60 (seconds 10920) addedServer = .ok (db', job) ∧
      ¬AllClosed (seconds 10920) addedServer db' := by
  obtain ⟨db', job, hRun, hMetrics, hRows⟩ := hourlyAggregate_ok 60 (seconds 10920) addedServer
  refine ⟨db', job, hRun, fun hClosed => ?_⟩
  have hSample : hourRows db' (prevHour (seconds 10920) - (1 : Nat) * oneHour)
      (prevHour (seconds 10920) - (1 : Nat) * oneHour + oneHour) 2 ≠ [] := by
    rw [hourRows, hMetrics]
    decide
  have hRow := hClosed 2 (by decide) 1 (by decide) hSample
  rw [hRows 2 (by decide) 1 (by decide)] at hRow
  rcases hRow with ⟨r, hr, hServer, -⟩ | ⟨i, -, hEq⟩ | ⟨hEq, -⟩
  · obtain rfl := List.mem_singleton.mp hr
    cases hServer
  · change (3600000000 : Int) = 7200000000 + (i + 1) * 3600000000 at hEq
    omega
  · cases hEq

end GpuMon.Rollup

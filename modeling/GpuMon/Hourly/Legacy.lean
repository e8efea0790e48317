import GpuMon.Hourly.Aggregate
import GpuMon.Hourly.Rerun
import GpuMon.Library.Runs

/-!
# Rebuilding legacy hours (`scheduler._upgrade_legacy_gpu_card_time`)

Rollup rows from before card time was recorded have no `gpu_sample_minutes` and are marked as
estimated. A worker beside the scheduler rebuilds their hours from the raw samples, the newest 96
hours in one pass; the scheduler starts it after it has closed its own hours.

* `successor_of_run`: whatever the scheduler and the worker do, a row stays, loses its mark, or is
  replaced by one that was computed from the samples that its server had in its hour at some moment
  of the run, at least one.
* `waiting_passes`: each pass takes the newest 96 hours off the list of those that wait.
* `hours_apart`: while both run, every hour the worker still rebuilds lies before every hour the
  scheduler still closes.
-/

namespace GpuMon.Rollup

open PyText Runs

/-! ## Rows that wait -/

/-- A row that is to be rebuilt. -/
def waits (r : ServerMetricHourly) : Bool := r.gpuSampleMinutes = none && r.gpuTimeEstimated

/-- `r'` is computed for the server and the hour of `r` from the samples that the store has of them,
at least one, and the newest sample before. -/
def ComputedFrom (r r' : ServerMetricHourly) (db : Store) : Prop :=
  hourRows db r.hour (r.hour + oneHour) r.serverId ≠ [] ∧
    ∃ serverIds interval, r.serverId ∈ serverIds ∧
      r' = aggregate r.hour (r.hour + oneHour) interval r.serverId
        (hourRows db r.hour (r.hour + oneHour) r.serverId)
        ((previousByServer db r.hour serverIds).get? r.serverId)

/-- The row of a later table at the key of `r`: `r` itself, `r` without its mark, or a row that was
computed from the samples of one of the stores. -/
def Successor (stores : List Store) (r r' : ServerMetricHourly) : Prop :=
  (r'.serverId, r'.hour) = (r.serverId, r.hour) ∧
    (r' = r ∨ r' = keepRow r ∨ ∃ db ∈ stores, ComputedFrom r r' db)

theorem Successor.refl (r : ServerMetricHourly) : Successor [] r r := ⟨rfl, .inl rfl⟩

theorem Successor.mono {stores stores' : List Store} {r r' : ServerMetricHourly}
    (h : Successor stores r r') (hSub : stores ⊆ stores') : Successor stores' r r' :=
  ⟨h.1, h.2.imp_right (Or.imp_right fun ⟨db, hdb, hComputed⟩ => ⟨db, hSub hdb, hComputed⟩)⟩

/-- Nothing is lost when the mark of a later row is withdrawn. -/
theorem Successor.keep {stores : List Store} {r r' : ServerMetricHourly}
    (h : Successor stores r r') : Successor stores r (keepRow r') := by
  refine ⟨(keepRow_key r').trans h.1, ?_⟩
  obtain ⟨-, hSame | hKept | ⟨db, hdb, hne, serverIds, interval, hListed, hAggregate⟩⟩ := h
  · exact .inr (.inl (congrArg keepRow hSame))
  · exact .inr (.inl (by rw [hKept, keepRow_keepRow]))
  · exact .inr (.inr ⟨db, hdb, hne, serverIds, interval, hListed, by
      rw [hAggregate, keepRow_aggregate]⟩)

theorem waits_keepRow (r : ServerMetricHourly) : waits (keepRow r) = false := by
  unfold keepRow waits
  split
  · simp
  · rename_i hSome
    simp [hSome]

theorem waits_aggregate (hourStart hourEnd interval : Int) (sid : Nat)
    (serverRows : List ServerMetric) (previous : Option ServerMetric) :
    waits (aggregate hourStart hourEnd interval sid serverRows previous) = false := by
  rw [← keepRow_aggregate]
  exact waits_keepRow _

section Rolled

variable {db db' : Store} {hourStart hourEnd : Int} {serverIds : List Nat} {interval : Int}
  {r : ServerMetricHourly}

theorem waits_rolledRow (sid : Nat) :
    waits (rolledRow db hourStart hourEnd serverIds interval sid) = false := by
  unfold rolledRow
  split
  · exact waits_keepRow _
  · exact waits_aggregate ..

/-- The rows of other hours and servers, one by one. -/
theorem Rolled.mem_other (h : Rolled db hourStart hourEnd serverIds interval db')
    (hOther : ofHour hourStart serverIds r = false) : r ∈ db'.hourly ↔ r ∈ db.hourly := by
  have hMem := congrArg (r ∈ ·) h.others
  simpa [hOther] using hMem

theorem ofHour_iff :
    ofHour hourStart serverIds r = true ↔ r.serverId ∈ serverIds ∧ r.hour = hourStart := by
  simp [ofHour]

/-- After a rollup the rows that wait are those that waited and were not listed. -/
theorem Rolled.waiting_iff (h : Rolled db hourStart hourEnd serverIds interval db') :
    r ∈ db'.hourly ∧ waits r = true ↔
      (r ∈ db.hourly ∧ waits r = true) ∧ ofHour hourStart serverIds r = false := by
  by_cases hOf : ofHour hourStart serverIds r = true
  · obtain ⟨hsid, hHour⟩ := ofHour_iff.mp hOf
    refine iff_of_false ?_ fun hRight => by rw [hOf] at hRight; cases hRight.2
    rintro ⟨hMem, hWaits⟩
    rw [(h.row_iff hsid).mp ⟨hMem, rfl, hHour⟩, waits_rolledRow] at hWaits
    cases hWaits
  · rw [h.mem_other (Bool.not_eq_true _ ▸ hOf)]
    exact (and_iff_left (Bool.not_eq_true _ ▸ hOf)).symm

/-- A rollup leaves every row a successor. -/
theorem Rolled.successor (h : Rolled db hourStart (hourStart + oneHour) serverIds interval db')
    (hRow : r ∈ db.hourly) {stores : List Store} {r₀ : ServerMetricHourly}
    (hBefore : Successor stores r₀ r) : ∃ r' ∈ db'.hourly, Successor (db :: stores) r₀ r' := by
  have hBefore : Successor (db :: stores) r₀ r := hBefore.mono (List.subset_cons_self db stores)
  by_cases hOf : ofHour hourStart serverIds r = true
  · obtain ⟨hsid, hHour⟩ := ofHour_iff.mp hOf
    obtain ⟨hMem, hServer, hHour'⟩ := (h.row_iff hsid).mpr rfl
    refine ⟨_, hMem, ?_⟩
    by_cases hKeep : keepsRow db hourStart (hourStart + oneHour)
      (existingByServer db hourStart serverIds) r.serverId
    · have hExisting : (existingByServer db hourStart serverIds).get? r.serverId = some r :=
        (existing_eq_some_iff hsid).mpr ⟨hRow, rfl, hHour⟩
      rw [rolledRow_of_kept hKeep.1 hExisting]
      exact hBefore.keep
    · have hne : hourRows db hourStart (hourStart + oneHour) r.serverId ≠ [] := fun hNil =>
        hKeep ⟨hNil, (existing_isSome hsid).mpr ⟨r, hRow, rfl, hHour⟩⟩
      obtain ⟨hServer₀, hHour₀⟩ := Prod.mk.inj hBefore.1
      have hKey : r₀.serverId = r.serverId ∧ r₀.hour = hourStart := ⟨hServer₀.symm, hHour₀ ▸ hHour⟩
      refine ⟨by rw [hServer, hHour', hKey.1, hKey.2], .inr (.inr ⟨db, List.mem_cons_self, ?_⟩)⟩
      unfold ComputedFrom
      rw [hKey.1, hKey.2]
      exact ⟨hne, serverIds, interval, hsid, rolledRow_of_not_kept hKeep⟩
  · exact ⟨r, (h.mem_other (Bool.not_eq_true _ ▸ hOf)).mpr hRow, hBefore⟩

end Rolled

/-! ## A pass of the worker -/

/-- The first full hour with raw samples. -/
def fullRawHour (firstRaw : Int) : Int :=
  let hour := firstRaw / oneHour * oneHour
  if firstRaw ≠ hour then hour + oneHour else hour

/-- A row that the worker is to rebuild. -/
def inWindow (job : LegacyJob) (firstRaw : Int) (r : ServerMetricHourly) : Bool :=
  waits r && decide (r.serverId ∈ job.serverIds) && fullRawHour firstRaw ≤ r.hour &&
    r.hour < job.beforeHour

/-- The hours that wait, the newest first. -/
def waitingHours (job : LegacyJob) (db : Store) : List Int :=
  match (db.metrics.map ServerMetric.collectedAt).min? with
  | none => []
  | some firstRaw => (((db.hourly.filter (inWindow job firstRaw)).map
      ServerMetricHourly.hour).dedup).insertionSort fun a b => b ≤ a

def passLimit : Nat := 96

/-- The hours that a pass reads. -/
def legacyHours (job : LegacyJob) (db : Store) : List Int := (waitingHours job db).take passLimit

/-- The loop over the hours. -/
def rebuildHours (job : LegacyJob) : List Int → Store → Except Error Store
  | [], db => .ok db
  | hour :: hours, db => do
    let db' ← rollHour db hour (hour + oneHour) job.serverIds job.interval
    rebuildHours job hours db'

/-- `_upgrade_legacy_gpu_card_time`, when nothing stops it. -/
def upgradeLegacyGpuCardTime (job : LegacyJob) (db : Store) : Except Error Store :=
  rebuildHours job (legacyHours job db) db

def passes (job : LegacyJob) : Nat → Store → Except Error Store
  | 0, db => .ok db
  | n + 1, db => do
    let db' ← upgradeLegacyGpuCardTime job db
    passes job n db'

section Passes

variable {job : LegacyJob} {db db' : Store} {hour : Int}

theorem mem_waitingHours : hour ∈ waitingHours job db ↔
    ∃ firstRaw, (db.metrics.map ServerMetric.collectedAt).min? = some firstRaw ∧
      ∃ r, r ∈ db.hourly ∧ inWindow job firstRaw r = true ∧ r.hour = hour := by
  unfold waitingHours
  split
  · rename_i hNone
    simp [hNone]
  · rename_i firstRaw hSome
    simp only [List.mem_insertionSort, List.mem_dedup, List.mem_map, List.mem_filter, hSome,
      Option.some.injEq, exists_eq_left', and_assoc]

/-- The hours come in falling order, each once. -/
theorem waitingHours_falling (job : LegacyJob) (db : Store) :
    (waitingHours job db).Pairwise fun a b => b < a := by
  unfold waitingHours
  split
  · exact List.Pairwise.nil
  · rename_i firstRaw _
    have hNodup := (List.perm_insertionSort (fun a b : Int => b ≤ a) _).nodup_iff.mpr
      (List.nodup_dedup ((db.hourly.filter (inWindow job firstRaw)).map ServerMetricHourly.hour))
    have hSorted := List.pairwise_insertionSort (fun a b : Int => b ≤ a)
      ((db.hourly.filter (inWindow job firstRaw)).map ServerMetricHourly.hour).dedup
    exact (hSorted.and hNodup).imp fun ⟨hle, hne⟩ => lt_of_le_of_ne hle (Ne.symm hne)

theorem eq_of_falling {as bs : List Int} (ha : as.Pairwise fun a b => b < a)
    (hb : bs.Pairwise fun a b => b < a) (hMem : ∀ x, x ∈ as ↔ x ∈ bs) : as = bs := by
  have hNodup {l : List Int} (h : l.Pairwise fun a b => b < a) : l.Nodup :=
    h.imp fun hlt => hlt.ne'
  have hPerm := (List.perm_ext_iff_of_nodup (hNodup ha) (hNodup hb)).mpr hMem
  exact hPerm.eq_of_pairwise (fun a b _ _ hab hba => absurd hab hba.asymm) ha hb

/-- What the loop over some hours leaves: the samples, every row of another hour, and no row that
waits in one of these. -/
structure Rebuilt (job : LegacyJob) (hours : List Int) (db db' : Store) : Prop where
  servers : db'.servers = db.servers
  metrics : db'.metrics = db.metrics
  others : ∀ r, r.hour ∉ hours → (r ∈ db'.hourly ↔ r ∈ db.hourly)
  waiting : ∀ r, r ∈ db'.hourly ∧ waits r = true ↔
    (r ∈ db.hourly ∧ waits r = true) ∧ ¬(r.serverId ∈ job.serverIds ∧ r.hour ∈ hours)

theorem rebuildHours_concat (hours : List Int) (hour : Int) (db : Store) :
    rebuildHours job (hours ++ [hour]) db = (rebuildHours job hours db).bind fun db' =>
      rollHour db' hour (hour + oneHour) job.serverIds job.interval := by
  induction hours generalizing db with
  | nil =>
    change (rollHour db hour (hour + oneHour) job.serverIds job.interval).bind _ =
      rollHour db hour (hour + oneHour) job.serverIds job.interval
    cases rollHour db hour (hour + oneHour) job.serverIds job.interval <;> rfl
  | cons first hours ih =>
    change (rollHour db first (first + oneHour) job.serverIds job.interval).bind _ =
      ((rollHour db first (first + oneHour) job.serverIds job.interval).bind _).bind _
    cases rollHour db first (first + oneHour) job.serverIds job.interval with
    | error e => rfl
    | ok db' => exact ih db'

/-- The loop succeeds over distinct servers. -/
theorem rebuildHours_ok (hNodup : job.serverIds.Nodup) (hours : List Int) (db : Store) :
    ∃ db', rebuildHours job hours db = .ok db' ∧ Rebuilt job hours db db' := by
  induction hours using List.reverseRecOn with
  | nil =>
    refine ⟨db, rfl, rfl, rfl, fun _ _ => Iff.rfl, fun r => ?_⟩
    simp
  | append_singleton hours hour ih =>
    obtain ⟨mid, hOk, hMid⟩ := ih
    obtain ⟨db', hRoll, hRolled⟩ := rollHour_ok mid hour (hour + oneHour) job.interval hNodup
    refine ⟨db', ?_, hRolled.servers.trans hMid.servers, hRolled.metrics.trans hMid.metrics,
      fun r hr => ?_, fun r => ?_⟩
    · rw [rebuildHours_concat, hOk]
      exact hRoll
    · rw [List.mem_append, not_or, List.mem_singleton] at hr
      have hOther : ofHour hour job.serverIds r = false :=
        Bool.eq_false_of_not_eq_true fun hOf => hr.2 (ofHour_iff.mp hOf).2
      rw [hRolled.mem_other hOther, hMid.others r hr.1]
    · rw [hRolled.waiting_iff, hMid.waiting, and_assoc, List.mem_append, List.mem_singleton,
        ← Bool.not_eq_true, ofHour_iff, ← not_or, ← and_or_left]

/-- A pass takes the newest hours off the list. -/
theorem waiting_rebuilt (h : Rebuilt job (legacyHours job db) db db') :
    waitingHours job db' = (waitingHours job db).drop passLimit := by
  refine eq_of_falling (waitingHours_falling job db')
    ((waitingHours_falling job db).drop) fun hour => ?_
  have hNodup : (waitingHours job db).Nodup := (waitingHours_falling job db).imp fun hlt => hlt.ne'
  have hSplit : hour ∈ (waitingHours job db).drop passLimit ↔
      hour ∈ waitingHours job db ∧ hour ∉ legacyHours job db := by
    have hParts := List.take_append_drop passLimit (waitingHours job db)
    have hApart := List.disjoint_of_nodup_append (hParts ▸ hNodup)
    constructor
    · exact fun hDrop => ⟨List.mem_of_mem_drop hDrop, fun hTake => hApart hTake hDrop⟩
    · rintro ⟨hMem, hNot⟩
      rw [← hParts] at hMem
      exact (List.mem_append.mp hMem).resolve_left hNot
  have hRow (firstRaw : Int) (r : ServerMetricHourly) :
      r ∈ db'.hourly ∧ inWindow job firstRaw r = true ↔
        (r ∈ db.hourly ∧ inWindow job firstRaw r = true) ∧ r.hour ∉ legacyHours job db := by
    have hWaiting := h.waiting r
    simp only [inWindow, Bool.and_eq_true, decide_eq_true_eq]
    tauto
  rw [hSplit, mem_waitingHours, mem_waitingHours, h.metrics]
  constructor
  · rintro ⟨firstRaw, hFirst, r, hr, hIn, rfl⟩
    obtain ⟨⟨hrOld, hInOld⟩, hNot⟩ := (hRow firstRaw r).mp ⟨hr, hIn⟩
    exact ⟨⟨firstRaw, hFirst, r, hrOld, hInOld, rfl⟩, hNot⟩
  · rintro ⟨⟨firstRaw, hFirst, r, hr, hIn, rfl⟩, hNot⟩
    obtain ⟨hrNew, hInNew⟩ := (hRow firstRaw r).mpr ⟨⟨hr, hIn⟩, hNot⟩
    exact ⟨firstRaw, hFirst, r, hrNew, hInNew, rfl⟩

/-- Passes that nothing stops all succeed; each rebuilds the newest 96 hours that wait, so after
`n` of them the hours that are left are those behind the first `96 * n`, and the rows of hours that
did not wait are as they were. -/
theorem waiting_passes (hNodup : job.serverIds.Nodup) (n : Nat) (db : Store) :
    ∃ db', passes job n db = .ok db' ∧
      waitingHours job db' = (waitingHours job db).drop (passLimit * n) ∧
      db'.metrics = db.metrics ∧
      ∀ r, r.hour ∉ waitingHours job db → (r ∈ db'.hourly ↔ r ∈ db.hourly) := by
  induction n generalizing db with
  | zero => exact ⟨db, rfl, rfl, rfl, fun _ _ => Iff.rfl⟩
  | succ n ih =>
    obtain ⟨mid, hOk, hMid⟩ := rebuildHours_ok hNodup (legacyHours job db) db
    obtain ⟨db', hRest, hLeft, hMetrics, hOthers⟩ := ih mid
    have hHours := waiting_rebuilt hMid
    refine ⟨db', ?_, ?_, hMetrics.trans hMid.metrics, fun r hr => ?_⟩
    · change (upgradeLegacyGpuCardTime job db).bind _ = _
      rw [upgradeLegacyGpuCardTime, hOk]
      exact hRest
    · rw [hLeft, hHours, List.drop_drop, mul_add, mul_one, Nat.add_comm]
    · have hNow : r.hour ∉ legacyHours job db := fun hTake => hr (List.mem_of_mem_take hTake)
      have hLater : r.hour ∉ waitingHours job mid := fun hDrop =>
        hr (List.mem_of_mem_drop (hHours ▸ hDrop))
      rw [hOthers r hLater, hMid.others r hNow]

/-- Two legacy rows, the older one of an hour whose beginning has no raw samples any more. -/
def twoLegacy : Store where
  servers := [1]
  metrics := [{ id := 1, serverId := 1, collectedAt := seconds 60 },
    { id := 2, serverId := 1, collectedAt := seconds 3660 }]
  hourly := [{ serverId := 1, hour := 0, gpuTimeEstimated := true },
    { serverId := 1, hour := seconds 3600, gpuTimeEstimated := true }]
  metricIds := by decide
  metricServer := by decide
  hourlyKeys := by decide

theorem waiting_passes_twoLegacy :
    ∃ db', passes ⟨[1], 60, seconds 7200⟩ 1 twoLegacy = .ok db' ∧
      waitingHours ⟨[1], 60, seconds 7200⟩ db' = [] := by
  have hNodup : (LegacyJob.mk [1] 60 (seconds 7200)).serverIds.Nodup := List.nodup_singleton 1
  obtain ⟨db', hOk, hLeft, -, -⟩ := waiting_passes hNodup 1 twoLegacy
  have hWaiting : waitingHours ⟨[1], 60, seconds 7200⟩ twoLegacy = [seconds 3600] := by
    decide +kernel
  rw [hWaiting] at hLeft
  exact ⟨db', hOk, hLeft⟩

end Passes

/-! ## The scheduler and the worker side by side -/

/-- `_hourly_aggregate` in its loop: the hour that is next, and how many it may still close. -/
structure Foreground where
  serverIds : List Nat
  interval : Int
  prev : Int
  hour : Int
  left : Nat

/-- The thread of the worker; the hours are `none` until it has read them. -/
structure Worker where
  job : LegacyJob
  hours : Option (List Int)

structure State where
  now : Int
  db : HourlyStore
  foreground : Option Foreground
  worker : Option Worker

/-- Between the steps of both the clock goes on, samples come and go and the settings change. -/
inductive Action
  | wait (span : Nat)
  | sample (m : ServerMetric)
  | prune (ids : List Nat)
  | configure (enabled : List Nat) (pollInterval : Option Text)
  | begin
  | close
  | finish (stopping : Bool)
  | abort
  | select
  | rebuild
  | leave

theorem ids_insert {db : Store} {m : ServerMetric} (h : m.id ∉ db.metrics.map ServerMetric.id) :
    ((m :: db.metrics).map ServerMetric.id).Nodup :=
  List.nodup_cons.mpr ⟨h, db.metricIds⟩

theorem server_insert {db : Store} {m : ServerMetric} (h : m.serverId ∈ db.servers) :
    ∀ x ∈ m :: db.metrics, x.serverId ∈ db.servers :=
  List.forall_mem_cons.mpr ⟨h, db.metricServer⟩

theorem ids_prune (db : Store) (ids : List Nat) :
    ((db.metrics.filter fun m => m.id ∉ ids).map ServerMetric.id).Nodup :=
  db.metricIds.sublist (List.filter_sublist.map _)

theorem server_prune (db : Store) (ids : List Nat) :
    ∀ m ∈ db.metrics.filter fun m => m.id ∉ ids, m.serverId ∈ db.servers :=
  fun m hm => db.metricServer m (List.mem_of_mem_filter hm)

/-- A new sample of a server. -/
def insertSample (db : Store) (m : ServerMetric) : Option Store :=
  if h : m.id ∉ db.metrics.map ServerMetric.id ∧ m.serverId ∈ db.servers then
    some { db with
      metrics := m :: db.metrics
      metricIds := ids_insert h.1
      metricServer := server_insert h.2 }
  else none

/-- The retention deletes raw samples. -/
def pruneSamples (ids : List Nat) (db : Store) : Store :=
  { db with
    metrics := db.metrics.filter fun m => m.id ∉ ids
    metricIds := ids_prune db ids
    metricServer := server_prune db ids }

def State.put (s : State) (db : Store) : State := { s with db := { s.db with toStore := db } }

/-- The loop of `_hourly_aggregate` goes on. -/
def Foreground.due (f : Foreground) : Bool := f.hour ≤ f.prev && 0 < f.left

def step (pollIntervalSeconds : Int) (s : State) : Action → Option State
  | .wait span => some { s with now := s.now + span }
  | .sample m => (insertSample s.db.toStore m).map s.put
  | .prune ids => some (s.put (pruneSamples ids s.db.toStore))
  | .configure enabled pollInterval =>
    if h : enabled.Nodup then
      some { s with db := ⟨s.db.toStore, enabled, pollInterval, h⟩ }
    else none
  | .begin =>
    match s.foreground with
    | some _ => none
    | none =>
      if s.db.enabled = [] then some s
      else some { s with
        foreground := some
          { serverIds := s.db.enabled
            interval := loadInterval pollIntervalSeconds s.db.pollInterval
            prev := prevHour s.now
            hour := firstHour (prevHour s.now) (lastHour s.db.toStore)
            left := rollupBackfillHours } }
  | .close =>
    match s.foreground with
    | none => none
    | some f =>
      if f.due then
        match rollHour s.db.toStore f.hour (f.hour + oneHour) f.serverIds f.interval with
        | .error _ => none
        | .ok db => some { s.put db with
            foreground := some { f with hour := f.hour + oneHour, left := f.left - 1 } }
      else none
  | .finish stopping =>
    match s.foreground with
    | none => none
    | some f =>
      if f.due then none
      else some { s with
        foreground := none
        -- at most one worker
        worker := if stopping || s.worker.isSome then s.worker
          else (legacyJob f.prev f.serverIds f.interval s.db.toStore).map fun job => ⟨job, none⟩ }
  | .abort =>
    match s.foreground with
    | none => none
    | some _ => some { s with foreground := none }
  | .select =>
    match s.worker with
    | some ⟨job, none⟩ => some { s with worker := some ⟨job, some (legacyHours job s.db.toStore)⟩ }
    | _ => none
  | .rebuild =>
    match s.worker with
    | some ⟨job, some (hour :: hours)⟩ =>
      match rollHour s.db.toStore hour (hour + oneHour) job.serverIds job.interval with
      | .error _ => none
      | .ok db => some { s.put db with worker := some ⟨job, some hours⟩ }
    | _ => none
  | .leave =>
    match s.worker with
    | none => none
    | some _ => some { s with worker := none }

/-- Neither runs. -/
def Quiet (db : HourlyStore) (s : State) : Prop :=
  s.db = db ∧ s.foreground = none ∧ s.worker = none

/-! ## What one step does to the rollup rows -/

section Run

variable {pollIntervalSeconds : Int} {s s' : State} {a : Action} {db₀ : HourlyStore}

/-- Rows only get successors, computed from the samples that are there, and no row begins to
wait. -/
structure Grows (db db' : Store) : Prop where
  successor : ∀ stores r₀ r, r ∈ db.hourly → Successor stores r₀ r →
    ∃ r' ∈ db'.hourly, Successor (db :: stores) r₀ r'
  waiting : ∀ r ∈ db'.hourly, waits r = true → r ∈ db.hourly

theorem Grows.of_eq {db db' : Store} (h : db'.hourly = db.hourly) : Grows db db' where
  successor := fun stores _ r hr hBefore =>
    ⟨r, h ▸ hr, hBefore.mono (List.subset_cons_self db stores)⟩
  waiting := fun _ hr _ => h ▸ hr

theorem Grows.of_roll {db db' : Store} {hour : Int} {serverIds : List Nat} {interval : Int}
    (hNodup : serverIds.Nodup)
    (h : rollHour db hour (hour + oneHour) serverIds interval = .ok db') : Grows db db' := by
  obtain ⟨db'', hOk, hRolled⟩ := rollHour_ok db hour (hour + oneHour) interval hNodup
  cases Except.ok.inj (hOk.symm.trans h)
  exact ⟨fun _ _ _ hr hBefore => hRolled.successor hr hBefore,
    fun r hr hWaits => (hRolled.waiting_iff.mp ⟨hr, hWaits⟩).1.1⟩

/-- An hour with a row keeps one. -/
theorem Grows.hour {db db' : Store} (h : Grows db db') {hour : Int}
    (hRow : ∃ r ∈ db.hourly, r.hour = hour) : ∃ r ∈ db'.hourly, r.hour = hour := by
  obtain ⟨r, hr, rfl⟩ := hRow
  obtain ⟨r', hr', hSuccessor⟩ := h.successor [] r r hr (.refl r)
  exact ⟨r', hr', (Prod.mk.inj hSuccessor.1).2⟩

/-- The hours of the worker lie before those of the scheduler; they have rows, which is why the
scheduler does not come back to them. -/
structure Inv (s : State) : Prop where
  servers : ∀ f, s.foreground = some f → f.serverIds.Nodup
  prev : ∀ f, s.foreground = some f → f.prev ≤ prevHour s.now
  jobServers : ∀ w, s.worker = some w → w.job.serverIds.Nodup
  before : ∀ w, s.worker = some w → w.job.beforeHour ≤ prevHour s.now
  ahead : ∀ f w, s.foreground = some f → s.worker = some w →
    ∀ r ∈ s.db.hourly, waits r = true → r.hour < w.job.beforeHour → r.hour < f.hour
  hours : ∀ w hours, s.worker = some w → w.hours = some hours → ∀ h ∈ hours,
    h < w.job.beforeHour ∧ (∃ r ∈ s.db.hourly, r.hour = h) ∧
      ∀ f, s.foreground = some f → h < f.hour

theorem prevHour_mono {a b : Int} (h : a ≤ b) : prevHour a ≤ prevHour b := by
  have hHour : 0 < oneHour := by decide
  have hDiv : a / oneHour ≤ b / oneHour := Int.ediv_le_ediv hHour h
  have hMul := Int.mul_le_mul_of_nonneg_right hDiv hHour.le
  unfold prevHour
  omega

/-- What only moves the clock and the tables keeps the invariant. -/
theorem Inv.frame (h : Inv s) (hNow : s.now ≤ s'.now) (hGrows : Grows s.db.toStore s'.db.toStore)
    (hForeground : s'.foreground = s.foreground) (hWorker : s'.worker = s.worker) : Inv s' where
  servers := fun f hf => h.servers f (hForeground ▸ hf)
  prev := fun f hf => (h.prev f (hForeground ▸ hf)).trans (prevHour_mono hNow)
  jobServers := fun w hw => h.jobServers w (hWorker ▸ hw)
  before := fun w hw => (h.before w (hWorker ▸ hw)).trans (prevHour_mono hNow)
  ahead := fun f w hf hw r hr hWaits =>
    h.ahead f w (hForeground ▸ hf) (hWorker ▸ hw) r (hGrows.waiting r hr hWaits) hWaits
  hours := by
    intro w hours hw hHours x hx
    obtain ⟨hBefore, hRow, hApart⟩ := h.hours w hours (hWorker ▸ hw) hHours x hx
    exact ⟨hBefore, hGrows.hour hRow, fun f hf => hApart f (hForeground ▸ hf)⟩

/-- The first hour of a loop lies behind every row that is older than the hour before this one. -/
theorem lt_firstHour {db : Store} {prev : Int} {r : ServerMetricHourly} (hr : r ∈ db.hourly)
    (hPrev : r.hour < prev) : r.hour < firstHour prev (lastHour db) := by
  have hHour : 0 < oneHour := by decide
  cases hLast : lastHour db with
  | none =>
    have hNil := List.max?_eq_none_iff.mp hLast
    rw [List.map_eq_nil_iff] at hNil
    rw [hNil] at hr
    cases hr
  | some last =>
    have hle : r.hour ≤ last := (List.max?_eq_some_iff.mp hLast).2 _ (List.mem_map_of_mem hr)
    unfold firstHour
    dsimp only
    split <;> omega

theorem mem_legacyHours {job : LegacyJob} {db : Store} {hour : Int} (h : hour ∈ legacyHours job db) :
    hour < job.beforeHour ∧ ∃ r ∈ db.hourly, waits r = true ∧ r.hour = hour := by
  obtain ⟨firstRaw, -, r, hr, hIn, rfl⟩ := mem_waitingHours.mp (List.mem_of_mem_take h)
  simp only [inWindow, Bool.and_eq_true, decide_eq_true_eq] at hIn
  exact ⟨hIn.2, r, hr, hIn.1.1.1, rfl⟩

/-- What a step does to the tables. -/
theorem grows_of_step (hInv : Inv s) (h : step pollIntervalSeconds s a = some s') :
    Grows s.db.toStore s'.db.toStore := by
  cases a with
  | wait span => cases h; exact .of_eq rfl
  | prune ids => cases h; exact .of_eq rfl
  | sample m =>
    obtain ⟨db, hInsert, rfl⟩ := Option.map_eq_some_iff.mp h
    unfold insertSample at hInsert
    split at hInsert <;> cases hInsert
    exact .of_eq rfl
  | configure enabled pollInterval =>
    dsimp only [step] at h
    split at h <;> cases h
    exact .of_eq rfl
  | begin =>
    dsimp only [step] at h
    split at h
    · cases h
    · split at h <;> cases h <;> exact .of_eq rfl
  | close =>
    dsimp only [step] at h
    split at h
    · cases h
    · rename_i f hForeground
      split at h
      · split at h <;> cases h
        rename_i db hRoll
        exact .of_roll (hInv.servers f hForeground) hRoll
      · cases h
  | finish stopping =>
    dsimp only [step] at h
    split at h
    · cases h
    · split at h <;> cases h
      exact .of_eq rfl
  | abort =>
    dsimp only [step] at h
    split at h <;> cases h
    exact .of_eq rfl
  | select =>
    dsimp only [step] at h
    split at h <;> cases h
    exact .of_eq rfl
  | rebuild =>
    dsimp only [step] at h
    split at h
    · rename_i job hour hours hWorker
      split at h <;> cases h
      rename_i db hRoll
      exact .of_roll (hInv.jobServers _ hWorker) hRoll
    · cases h
  | leave =>
    dsimp only [step] at h
    split at h <;> cases h
    exact .of_eq rfl

/-- The scheduler begins behind the hours of a worker that still runs. -/
theorem inv_begin (hInv : Inv s) (h : step pollIntervalSeconds s .begin = some s') : Inv s' := by
  dsimp only [step] at h
  split at h
  · cases h
  · split at h <;> cases h
    · exact hInv
    · have hFirst (w : Worker) (hw : s.worker = some w) (r : ServerMetricHourly)
          (hr : r ∈ s.db.hourly) (hBefore : r.hour < w.job.beforeHour) :
          r.hour < firstHour (prevHour s.now) (lastHour s.db.toStore) :=
        lt_firstHour hr (hBefore.trans_le (hInv.before w hw))
      refine ⟨?_, ?_, hInv.jobServers, hInv.before, ?_, ?_⟩
      · rintro _ ⟨⟩
        exact s.db.enabledNodup
      · rintro _ ⟨⟩
        exact le_rfl
      · rintro _ w ⟨⟩ hw r hr _ hBefore
        exact hFirst w hw r hr hBefore
      · intro w hours hw hHours x hx
        obtain ⟨hBefore, ⟨r, hr, rfl⟩, -⟩ := hInv.hours w hours hw hHours x hx
        refine ⟨hBefore, ⟨r, hr, rfl⟩, ?_⟩
        rintro _ ⟨⟩
        exact hFirst w hw r hr hBefore

/-- Without the scheduler nothing is left to compare with. -/
theorem Inv.stop (h : Inv s) : Inv { s with foreground := none } where
  servers := nofun
  prev := nofun
  jobServers := h.jobServers
  before := h.before
  ahead := nofun
  hours := fun w hours hw hHours x hx =>
    ⟨(h.hours w hours hw hHours x hx).1, (h.hours w hours hw hHours x hx).2.1, nofun⟩

theorem inv_close (hInv : Inv s) (h : step pollIntervalSeconds s .close = some s') : Inv s' := by
  have hGrows := grows_of_step hInv h
  dsimp only [step] at h
  split at h
  · cases h
  · rename_i f hForeground
    split at h
    · split at h <;> cases h
      have hHour : 0 < oneHour := by decide
      refine ⟨?_, ?_, hInv.jobServers, hInv.before, ?_, ?_⟩
      · rintro _ ⟨⟩
        exact hInv.servers f hForeground
      · rintro _ ⟨⟩
        exact hInv.prev f hForeground
      · rintro _ w ⟨⟩ hw r hr hWaits hBefore
        have hAhead := hInv.ahead f w hForeground hw r (hGrows.waiting r hr hWaits) hWaits hBefore
        dsimp only
        omega
      · intro w hours hw hHours x hx
        obtain ⟨hBefore, hRow, hApart⟩ := hInv.hours w hours hw hHours x hx
        refine ⟨hBefore, hGrows.hour hRow, ?_⟩
        rintro _ ⟨⟩
        have hAhead := hApart f hForeground
        dsimp only
        omega
    · cases h

theorem inv_finish {stopping : Bool} (hInv : Inv s)
    (h : step pollIntervalSeconds s (.finish stopping) = some s') : Inv s' := by
  dsimp only [step] at h
  split at h
  · cases h
  · rename_i f hForeground
    split at h
    · cases h
    · cases h
      split
      · exact hInv.stop
      · cases hJob : legacyJob f.prev f.serverIds f.interval s.db.toStore with
        | none => exact ⟨nofun, nofun, nofun, nofun, nofun, nofun⟩
        | some job =>
          have hSame : job = ⟨f.serverIds, f.interval, f.prev⟩ := by
            unfold legacyJob at hJob
            split at hJob <;> cases hJob
            rfl
          refine ⟨nofun, nofun, ?_, ?_, nofun, ?_⟩
          · rintro _ ⟨⟩
            rw [hSame]
            exact hInv.servers f hForeground
          · rintro _ ⟨⟩
            rw [hSame]
            exact hInv.prev f hForeground
          · rintro _ _ ⟨⟩ ⟨⟩

theorem inv_select (hInv : Inv s) (h : step pollIntervalSeconds s .select = some s') : Inv s' := by
  dsimp only [step] at h
  split at h
  · rename_i job hWorker
    cases h
    refine ⟨hInv.servers, hInv.prev, ?_, ?_, ?_, ?_⟩
    · rintro _ ⟨⟩
      exact hInv.jobServers ⟨job, none⟩ hWorker
    · rintro _ ⟨⟩
      exact hInv.before ⟨job, none⟩ hWorker
    · rintro f _ hf ⟨⟩
      exact hInv.ahead f ⟨job, none⟩ hf hWorker
    · rintro _ _ ⟨⟩ ⟨⟩ x hx
      obtain ⟨hBefore, r, hr, hWaits, rfl⟩ := mem_legacyHours hx
      exact ⟨hBefore, ⟨r, hr, rfl⟩,
        fun f hf => hInv.ahead f ⟨job, none⟩ hf hWorker r hr hWaits hBefore⟩
  · cases h

theorem inv_rebuild (hInv : Inv s) (h : step pollIntervalSeconds s .rebuild = some s') : Inv s' := by
  have hGrows := grows_of_step hInv h
  dsimp only [step] at h
  split at h
  · rename_i job hour hours hWorker
    split at h <;> cases h
    refine ⟨hInv.servers, hInv.prev, ?_, ?_, ?_, ?_⟩
    · rintro _ ⟨⟩
      exact hInv.jobServers ⟨job, some (hour :: hours)⟩ hWorker
    · rintro _ ⟨⟩
      exact hInv.before ⟨job, some (hour :: hours)⟩ hWorker
    · rintro f _ hf ⟨⟩ r hr hWaits hBefore
      exact hInv.ahead f ⟨job, some (hour :: hours)⟩ hf hWorker r (hGrows.waiting r hr hWaits)
        hWaits hBefore
    · rintro _ _ ⟨⟩ ⟨⟩ x hx
      obtain ⟨hBefore, hRow, hApart⟩ :=
        hInv.hours _ _ hWorker rfl x (List.mem_cons_of_mem hour hx)
      exact ⟨hBefore, hGrows.hour hRow, hApart⟩
  · cases h

theorem inv_step (hInv : Inv s) (h : step pollIntervalSeconds s a = some s') : Inv s' := by
  have hGrows := grows_of_step hInv h
  cases a with
  | begin => exact inv_begin hInv h
  | close => exact inv_close hInv h
  | finish stopping => exact inv_finish hInv h
  | select => exact inv_select hInv h
  | rebuild => exact inv_rebuild hInv h
  | wait span =>
    cases h
    exact hInv.frame (Int.le_add_of_nonneg_right (Int.natCast_nonneg span)) hGrows rfl rfl
  | prune ids =>
    cases h
    exact hInv.frame le_rfl hGrows rfl rfl
  | sample m =>
    obtain ⟨db, -, rfl⟩ := Option.map_eq_some_iff.mp h
    exact hInv.frame le_rfl hGrows rfl rfl
  | configure enabled pollInterval =>
    dsimp only [step] at h
    split at h <;> cases h
    exact hInv.frame le_rfl hGrows rfl rfl
  | abort =>
    dsimp only [step] at h
    split at h <;> cases h
    exact hInv.stop
  | leave =>
    dsimp only [step] at h
    split at h <;> cases h
    exact ⟨hInv.servers, hInv.prev, nofun, nofun, nofun, nofun⟩

theorem inv_of_quiet (h : Quiet db₀ s) : Inv s := by
  obtain ⟨-, hForeground, hWorker⟩ := h
  refine ⟨?_, ?_, ?_, ?_, ?_, ?_⟩ <;> simp [hForeground, hWorker]

theorem inv_of_reach (h : Reach (step pollIntervalSeconds) (Quiet db₀) Always s) : Inv s :=
  h.invariant (fun _ hs => inv_of_quiet hs) fun _ _ _ hInv _ hStep => inv_step hInv hStep

/-- In every run, with samples coming, being deleted and settings changing at any time: when the
scheduler and the worker run at once, each hour that the worker still rebuilds lies before each hour
that the scheduler still closes, so no two of their transactions write the same rows. -/
theorem hours_apart (h : Reach (step pollIntervalSeconds) (Quiet db₀) Always s) {f : Foreground}
    {w : Worker} {hours : List Int} (hForeground : s.foreground = some f)
    (hWorker : s.worker = some w) (hHours : w.hours = some hours) : ∀ x ∈ hours, x < f.hour := by
  intro x hx
  exact ((inv_of_reach h).hours w hours hWorker hHours x hx).2.2 f hForeground

/-- What a run has made of the rows it began with; `past` are the states that it has left behind. -/
structure Succeeded (db₀ : HourlyStore) (past : List State) (s : State) : Prop where
  successor : ∀ r ∈ db₀.hourly, ∃ r' ∈ s.db.hourly,
    Successor (past.map fun t => t.db.toStore) r r'
  waiting : ∀ r ∈ s.db.hourly, waits r = true → r ∈ db₀.hourly

theorem Succeeded.step {past : List State} (h : Succeeded db₀ past s)
    (hGrows : Grows s.db.toStore s'.db.toStore) : Succeeded db₀ (s :: past) s' where
  successor := by
    intro r hr
    obtain ⟨r', hr', hBefore⟩ := h.successor r hr
    exact hGrows.successor _ r r' hr' hBefore
  waiting := fun r hr hWaits => h.waiting r (hGrows.waiting r hr hWaits) hWaits

/-- In every run the row of a server and hour stays, loses its mark, or is replaced by one that was
computed from the samples which its server had in its hour in some state of that run, never by one
without samples; and no row begins to wait. -/
theorem successor_of_run {past : List State}
    (h : History (step pollIntervalSeconds) (Quiet db₀) Always past s) :
    Succeeded db₀ past s := by
  refine h.invariant_of (fun _ hr => inv_of_reach hr) ?_
    fun _ _ _ _ hInv hBefore hStep => hBefore.step (grows_of_step hInv hStep)
  rintro t ⟨hDb, -, -⟩
  exact ⟨fun r hr => ⟨r, hDb ▸ hr, .refl r⟩, fun r hr _ => hDb ▸ hr⟩

end Run

/-! ## A worker that runs into the next hour -/

def twoLegacyServer : HourlyStore where
  toStore := twoLegacy
  enabled := [1]
  enabledNodup := List.nodup_singleton 1

/-- The scheduler closes the hour from two to three; the worker reads its hours; an hour later the
scheduler begins again. -/
def intoNextHour : List Action :=
  [.begin, .close, .finish false, .select, .wait 3600000000, .begin]

theorem runs_intoNextHour : ∃ s, Reach (step 60) (Quiet twoLegacyServer) Always s ∧
    (s.foreground.map Foreground.hour = some (seconds 10800) ∧
      s.worker.bind Worker.hours = some [seconds 3600]) :=
  Reach.exists_of_exec intoNextHour
    (show Quiet twoLegacyServer ⟨seconds 10920, twoLegacyServer, none, none⟩ from ⟨rfl, rfl, rfl⟩)
    (by decide +kernel)

theorem hours_apart_intoNextHour : ∃ s : State,
    s.foreground.map Foreground.hour = some (seconds 10800) ∧
      s.worker.bind Worker.hours = some [seconds 3600] ∧
      ∀ f, s.foreground = some f → seconds 3600 < f.hour := by
  obtain ⟨s, hReach, hForeground, hWorker⟩ := runs_intoNextHour
  refine ⟨s, hForeground, hWorker, fun f hf => ?_⟩
  obtain ⟨w, hw, hHours⟩ := Option.bind_eq_some_iff.mp hWorker
  exact hours_apart hReach hf hw hHours _ List.mem_cons_self

theorem successor_of_run_intoNextHour : ∃ (past : List State) (s : State),
    s.worker.bind Worker.hours = some [seconds 3600] ∧ Succeeded twoLegacyServer past s := by
  obtain ⟨s, hReach, -, hWorker⟩ := runs_intoNextHour
  obtain ⟨past, hPast⟩ := hReach.exists_history
  exact ⟨past, s, hWorker, successor_of_run hPast⟩

end GpuMon.Rollup

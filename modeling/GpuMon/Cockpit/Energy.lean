import GpuMon.Cockpit.Power

/-!
# The energy of the cluster (`cockpit._cluster_energy`)

The power of a server comes from three places: the hourly means of its BMC, the hourly rollup of
its cards, and the raw samples of the current day. They meet in one list of watts for each day
and server, and the mean of a day is taken over that list.

* `hourEntry_measured`, `hourEntry_not_measured`: among the hourly figures the BMC goes first.
* `avgW_of_measuredDay`: where everything is measured, the mean of a day is the sum of the
  servers' means over their hours.
* `clusterEnergy_oneSource_iff`: an hour has one source exactly when no hour of a server without
  a BMC has both a rollup and raw samples of the current day.

Hours are counted from the epoch instead of being written out, and a day is 24 of them; numbers
are exact. The power in an entry is what the source keeps; its hour and its source are there to
talk about it.
-/

namespace GpuMon.Cockpit

open Grouping PyNum

/-! ## Rows -/

def hourOf (t : Int) : Int := t / minutes 60

def dayOf (hour : Int) : Int := hour / 24

def today (now : Int) : Int := dayOf (hourOf now)

def dayStart (now : Int) : Int := minutes (today now * 24 * 60)

/-- `since` of a query over so many days. -/
def energySince (now : Int) (days : Nat) : Int := now - minutes ((days + 1) * 24 * 60)

structure IpmiSnapshot where
  serverId : Nat
  collectedAt : Int
  ok : Bool := true
  powerW : ℚ := 0
  deriving DecidableEq

/-- A sample with its count of cards. -/
structure EnergyMetric extends ServerMetric where
  gpuCount : Int := 0
  deriving DecidableEq

structure EnergyStore where
  metrics : List EnergyMetric := []
  hourly : List ServerMetricHourly := []
  snapshots : List IpmiSnapshot := []

/-- A server and an hour. -/
abbrev HourKey := Nat × Int

def EnergyMetric.hourKey (m : EnergyMetric) : HourKey := (m.serverId, hourOf m.collectedAt)

def IpmiSnapshot.hourKey (s : IpmiSnapshot) : HourKey := (s.serverId, hourOf s.collectedAt)

def rollupKey (r : ServerMetricHourly) : HourKey := (r.serverId, hourOf r.hour)

/-- Where a figure comes from. -/
inductive Source
  | ipmi
  | rollup
  | raw
  deriving DecidableEq

/-- One `append` to the list of a day and a server. -/
structure Entry where
  day : Int
  serverId : Nat
  watts : ℚ
  hour : Int
  source : Source
  deriving DecidableEq

section Queries

variable (db : EnergyStore) (since now : Int)

/-- `q_agg`. -/
def aggRows : List ServerMetricHourly := db.hourly.filter fun r => since ≤ r.hour

/-- The rows that `q_cnt` groups. -/
def cntRows : List EnergyMetric :=
  db.metrics.filter fun m => since ≤ m.collectedAt && m.status = .ok && 0 < m.gpuCount

/-- `q_raw`. -/
def rawRows : List EnergyMetric :=
  (db.metrics.filter fun m => dayStart now ≤ m.collectedAt && m.status = .ok).insertionSort
    fun a b => a.collectedAt ≤ b.collectedAt

/-- The rows that `q_ipmi` groups. -/
def ipmiRows : List IpmiSnapshot :=
  db.snapshots.filter fun s => since ≤ s.collectedAt && s.ok && 0 < s.powerW

def gpuCount : Dict HourKey ℚ :=
  groupMeans EnergyMetric.hourKey (fun m => (m.gpuCount : ℚ)) (cntRows db since)

def ipmiHour : Dict HourKey ℚ :=
  groupMeans IpmiSnapshot.hourKey IpmiSnapshot.powerW (ipmiRows db since)

/-- The body of the loop over the rollups. -/
def estimate? (r : ServerMetricHourly) : Option (HourKey × ℚ) :=
  let nGpu := ((gpuCount db since).get? (rollupKey r)).getD 0
  if nGpu ≠ 0 then some (rollupKey r, r.gpuPowerAvg * nGpu) else none

def gpuEst : Dict HourKey ℚ := Dict.ofList ((aggRows db since).filterMap (estimate? db since))

/-- `set(ipmi_hour) | set(gpu_est)`. -/
def energyKeys : Finset HourKey :=
  (ipmiHour db since).keys.toFinset ∪ (gpuEst db since).keys.toFinset

/-- `ipmi_hour.get(k) or gpu_est.get(k)`, skipped when it is nothing. -/
def hourEntry (k : HourKey) : Option Entry :=
  let measured := ((ipmiHour db since).get? k).getD 0
  let estimated := ((gpuEst db since).get? k).getD 0
  if measured ≠ 0 then some ⟨dayOf k.2, k.1, measured, k.2, .ipmi⟩
  else if estimated ≠ 0 then some ⟨dayOf k.2, k.1, estimated, k.2, .rollup⟩
  else none

def ipmiServersToday : List Nat :=
  ((ipmiHour db since).keys.filter fun k => dayOf k.2 = today now).map Prod.fst

def rawEntry (m : EnergyMetric) : Entry :=
  ⟨today now, m.serverId, gpuWatts m.toServerMetric, hourOf m.collectedAt, .raw⟩

/-- The raw samples of the servers that no BMC measured today. -/
def rawEntries : List Entry :=
  ((rawRows db now).filter fun m => m.serverId ∉ ipmiServersToday db since now).map (rawEntry now)

/-- All that is appended, in its order. -/
def energyEntries (order : Dict.SetOrder (energyKeys db since)) : List Entry :=
  order.items.filterMap (hourEntry db since) ++ rawEntries db since now

end Queries

/-! ## Days -/

def addEntry (bySrv : Dict Nat (List ℚ)) (e : Entry) : Dict Nat (List ℚ) :=
  bySrv.set e.serverId ((bySrv.get? e.serverId).getD [] ++ [e.watts])

def daySrvHours (entries : List Entry) : Dict Int (Dict Nat (List ℚ)) :=
  foldAt Entry.day Dict.empty addEntry entries

structure DayEnergy where
  date : Int
  samples : Nat
  coverage : ℚ
  avgW : ℚ
  peakW : ℚ
  kwh : ℚ
  cost : Option ℚ
  deriving DecidableEq

/-- `mean_w`. -/
def clusterMean (bySrv : Dict Nat (List ℚ)) : ℚ :=
  (bySrv.entries.map fun p => p.2.sum / (p.2.length : ℚ)).sum

def dayEnergy (price : ℚ) (day : Int) (bySrv : Dict Nat (List ℚ)) : DayEnergy :=
  let n := (bySrv.entries.map fun p => p.2.length).sum
  let peakW := (bySrv.entries.map fun p => p.2.max?.getD 0).max?.getD 0
  let meanW := clusterMean bySrv
  let kwh := meanW * 24 / 1000
  { date := day
    samples := n
    coverage := roundTo 2 (min 1 (n / (1440 * max 1 bySrv.entries.length : Nat)))
    avgW := roundTo 1 meanW
    peakW := roundTo 1 peakW
    kwh := roundTo 2 kwh
    cost := if price ≠ 0 then some (roundTo 2 (kwh * price)) else none }

structure ClusterEnergy where
  days : List DayEnergy
  totalKwh : ℚ
  avgKwhPerDay : ℚ
  price : ℚ
  totalCost : Option ℚ
  deriving DecidableEq

/-- `_cluster_energy`, with the price that the settings give, and an order of the set that it
walks. -/
def clusterEnergy (db : EnergyStore) (price : ℚ) (now : Int) (days : Nat)
    (order : Dict.SetOrder (energyKeys db (energySince now days))) : ClusterEnergy :=
  let byDay := (daySrvHours (energyEntries db (energySince now days) now order)).entries
  let out := ((byDay.insertionSort fun p q => p.1 ≤ q.1).filter fun p => p.2.entries ≠ []).map
    fun p => dayEnergy price p.1 p.2
  let totalKwh := roundTo 1 (out.map DayEnergy.kwh).sum
  { days := out
    totalKwh := totalKwh
    avgKwhPerDay := if out ≠ [] then roundTo 2 (totalKwh / out.length) else 0
    price := price
    totalCost := if price ≠ 0 then some (roundTo 2 (totalKwh * price)) else none }

/-! ## Hours and their sources -/

section Sources

variable (db : EnergyStore) (since now : Int)

/-- A BMC measured power in the hour. -/
def Measured (k : HourKey) : Prop := k ∈ keys IpmiSnapshot.hourKey (ipmiRows db since)

/-- The mean of what it measured. -/
def ipmiMean (k : HourKey) : ℚ :=
  mean IpmiSnapshot.powerW (group IpmiSnapshot.hourKey k (ipmiRows db since))

/-- The rollup of the hour. -/
def rollupRow (k : HourKey) : Option ServerMetricHourly :=
  ((aggRows db since).filter fun r => rollupKey r = k).getLast?

/-- The hour has a rollup with power, and samples that count cards. -/
def Estimated (k : HourKey) : Prop :=
  k ∈ keys EnergyMetric.hourKey (cntRows db since) ∧
    ∃ r, rollupRow db since k = some r ∧ r.gpuPowerAvg ≠ 0

instance (k : HourKey) : Decidable (Measured db since k) :=
  inferInstanceAs (Decidable (k ∈ keys IpmiSnapshot.hourKey (ipmiRows db since)))

instance (k : HourKey) : Decidable (Estimated db since k) :=
  decidable_of_iff (k ∈ keys EnergyMetric.hourKey (cntRows db since) ∧
    (rollupRow db since k).any fun r => r.gpuPowerAvg ≠ 0) (by simp [Estimated, Option.any_eq_true])

/-- The source of an hour: the BMC, else the rollup, else the raw samples. -/
def sourceFor (k : HourKey) : Source :=
  if Measured db since k then .ipmi else if Estimated db since k then .rollup else .raw

/-- What stands for an hour of a server comes from its one source. -/
def OneSource (entries : List Entry) : Prop :=
  ∀ e ∈ entries, e.source = sourceFor db since (e.serverId, e.hour)

/-- A raw sample since midnight belongs to a server that a BMC measured today, or lies in an hour
that neither a BMC nor a rollup covers. -/
def RawAlone : Prop :=
  ∀ m ∈ db.metrics, m.status = .ok → dayStart now ≤ m.collectedAt →
    (∃ hour, dayOf hour = today now ∧ Measured db since (m.serverId, hour)) ∨
      (¬ Measured db since m.hourKey ∧ ¬ Estimated db since m.hourKey)

/-- Every hour of the day that has an estimate was measured, and so was the hour of each raw sample
that goes into it. -/
structure MeasuredDay (day : Int) : Prop where
  estimated : ∀ k : HourKey, dayOf k.2 = day → Estimated db since k → Measured db since k
  raw : day = today now → ∀ m ∈ rawRows db now,
    dayOf (hourOf m.collectedAt) = day ∧ Measured db since m.hourKey

def ipmiRowsOf (day : Int) : List IpmiSnapshot :=
  (ipmiRows db since).filter fun s => dayOf (hourOf s.collectedAt) = day

/-- The servers that were measured on a day. -/
def measuredServers (day : Int) : Finset Nat := keys IpmiSnapshot.serverId (ipmiRowsOf db since day)

/-- The hours of a day that a server was measured in. -/
def measuredHours (day : Int) (sid : Nat) : Finset Int :=
  keys (fun s => hourOf s.collectedAt) (group IpmiSnapshot.serverId sid (ipmiRowsOf db since day))

/-- The mean power of a day: for each server the mean over its hours, added up. -/
def measuredMean (day : Int) : ℚ :=
  ∑ sid ∈ measuredServers db since day,
    (∑ hour ∈ measuredHours db since day sid, ipmiMean db since (sid, hour)) /
      (measuredHours db since day sid).card

end Sources

section Entries

variable {db : EnergyStore} {since now : Int} {k : HourKey} {e : Entry}

theorem ipmiHour_get? (k : HourKey) : (ipmiHour db since).get? k =
    if Measured db since k then some (ipmiMean db since k) else none :=
  get?_groupMeans _ _ _ k

theorem ipmiMean_pos (h : Measured db since k) : 0 < ipmiMean db since k := by
  refine mean_pos (fun s hs => ?_) (group_ne_nil_iff.mpr h)
  have hRow := (List.mem_filter.mp (mem_group.mp hs).1).2
  exact of_decide_eq_true (Bool.and_eq_true_iff.mp hRow).2

theorem gpuCount_get? (k : HourKey) : (gpuCount db since).get? k =
    if k ∈ keys EnergyMetric.hourKey (cntRows db since) then
      some (mean (fun m => (m.gpuCount : ℚ)) (group EnergyMetric.hourKey k (cntRows db since)))
    else none :=
  get?_groupMeans _ _ _ k

theorem gpuCount_pos {n : ℚ} (h : (gpuCount db since).get? k = some n) : 0 < n := by
  rw [gpuCount_get?] at h
  split at h
  · rename_i hMem
    rw [← Option.some.inj h]
    refine mean_pos (fun m hm => ?_) (group_ne_nil_iff.mpr hMem)
    have hRow := (List.mem_filter.mp (mem_group.mp hm).1).2
    exact_mod_cast of_decide_eq_true (Bool.and_eq_true_iff.mp hRow).2
  · cases h

/-- The estimates of an hour, one for each of its rollups. -/
theorem estimates_of_hour (k : HourKey) :
    ((aggRows db since).filterMap (estimate? db since)).filter (fun p => p.1 = k) =
      match (gpuCount db since).get? k with
      | some n => ((aggRows db since).filter fun r => rollupKey r = k).map fun r =>
          (k, r.gpuPowerAvg * n)
      | none => [] := by
  have hStep : ∀ r : ServerMetricHourly, (estimate? db since r).filter (fun p => p.1 = k) =
      if rollupKey r = k then
        ((gpuCount db since).get? k).map fun n => (k, r.gpuPowerAvg * n) else none := by
    intro r
    unfold estimate?
    dsimp only
    by_cases hKey : rollupKey r = k
    · rw [if_pos hKey, hKey]
      cases hCount : (gpuCount db since).get? k with
      | none => simp
      | some n => simp [(gpuCount_pos hCount).ne']
    · rw [if_neg hKey]
      split <;> simp [hKey]
  rw [List.filter_filterMap]
  cases hCount : (gpuCount db since).get? k with
  | none =>
    refine List.filterMap_eq_nil_iff.mpr fun r _ => ?_
    rw [hStep, hCount]
    split <;> rfl
  | some n =>
    dsimp only
    rw [← List.filterMap_eq_map, List.filterMap_filter]
    refine List.filterMap_congr fun r _ => ?_
    rw [hStep, hCount]
    simp

theorem gpuEst_get? (k : HourKey) : (gpuEst db since).get? k =
    ((gpuCount db since).get? k).bind fun n =>
      (rollupRow db since k).map fun r => r.gpuPowerAvg * n := by
  rw [gpuEst, Dict.get?_ofList, estimates_of_hour]
  cases (gpuCount db since).get? k with
  | none => rfl
  | some n =>
    rw [List.getLast?_map, Option.map_map]
    rfl

theorem gpuEst_ne_zero_iff (k : HourKey) :
    ((gpuEst db since).get? k).getD 0 ≠ 0 ↔ Estimated db since k := by
  rw [gpuEst_get?, Estimated]
  cases hCount : (gpuCount db since).get? k with
  | none =>
    rw [gpuCount_get?] at hCount
    simp_all
  | some n =>
    have hn := (gpuCount_pos hCount).ne'
    rw [gpuCount_get?] at hCount
    cases hRow : rollupRow db since k with
    | none => simp
    | some r => simp_all

/-- A measured hour stands with the mean of its readings. -/
theorem hourEntry_measured (h : Measured db since k) : hourEntry db since k =
    some ⟨dayOf k.2, k.1, ipmiMean db since k, k.2, .ipmi⟩ := by
  have hMean : ((ipmiHour db since).get? k).getD 0 = ipmiMean db since k := by
    rw [ipmiHour_get?, if_pos h, Option.getD_some]
  unfold hourEntry
  rw [hMean]
  exact if_pos (ipmiMean_pos h).ne'

/-- An hour without a reading stands with its estimate, if that is anything. -/
theorem hourEntry_not_measured (h : ¬ Measured db since k) : hourEntry db since k =
    if Estimated db since k then
      some ⟨dayOf k.2, k.1, ((gpuEst db since).get? k).getD 0, k.2, .rollup⟩ else none := by
  have hZero : ((ipmiHour db since).get? k).getD 0 = 0 := by
    rw [ipmiHour_get?, if_neg h, Option.getD_none]
  unfold hourEntry
  rw [hZero]
  simp only [gpuEst_ne_zero_iff]
  exact if_neg (not_not.mpr rfl)

theorem hourEntry_key (h : hourEntry db since k = some e) :
    (e.serverId, e.hour) = k ∧ e.day = dayOf e.hour ∧ e.source = sourceFor db since k ∧
      e.source ≠ .raw := by
  by_cases hMeasured : Measured db since k
  · rw [hourEntry_measured hMeasured] at h
    cases h
    exact ⟨rfl, rfl, (if_pos hMeasured).symm, fun hRaw => by cases hRaw⟩
  · rw [hourEntry_not_measured hMeasured] at h
    split at h
    · rename_i hEstimated
      cases h
      refine ⟨rfl, rfl, ?_, fun hRaw => by cases hRaw⟩
      rw [sourceFor, if_neg hMeasured, if_pos hEstimated]
    · cases h

theorem mem_ipmiServersToday {sid : Nat} : sid ∈ ipmiServersToday db since now ↔
    ∃ hour, dayOf hour = today now ∧ Measured db since (sid, hour) := by
  have hKey : ∀ k, k ∈ (ipmiHour db since).keys ↔ Measured db since k := by
    intro k
    rw [Dict.mem_keys_iff, ipmiHour_get?]
    split <;> simp_all
  simp only [ipmiServersToday, List.mem_map, List.mem_filter, hKey, decide_eq_true_eq]
  constructor
  · rintro ⟨k, ⟨hMeasured, hDay⟩, rfl⟩
    exact ⟨k.2, hDay, hMeasured⟩
  · rintro ⟨hour, hDay, hMeasured⟩
    exact ⟨(sid, hour), ⟨hMeasured, hDay⟩, rfl⟩

theorem mem_rawRows {m : EnergyMetric} : m ∈ rawRows db now ↔
    m ∈ db.metrics ∧ dayStart now ≤ m.collectedAt ∧ m.status = .ok := by
  rw [rawRows, List.mem_insertionSort, List.mem_filter]
  simp

/-- Every hour has one source exactly when the raw samples do not meet another. -/
theorem oneSource_iff (order : Dict.SetOrder (energyKeys db since)) :
    OneSource db since (energyEntries db since now order) ↔ RawAlone db since now := by
  have hRaw : ∀ k, .raw = sourceFor db since k ↔ ¬ Measured db since k ∧ ¬ Estimated db since k := by
    intro k
    unfold sourceFor
    split_ifs <;> simp_all
  constructor
  · intro h m hm hOk hStart
    by_cases hToday : m.serverId ∈ ipmiServersToday db since now
    · exact .inl (mem_ipmiServersToday.mp hToday)
    · refine .inr ((hRaw _).mp (h (rawEntry now m) (List.mem_append_right _ ?_)))
      refine List.mem_map_of_mem (List.mem_filter.mpr ⟨mem_rawRows.mpr ⟨hm, hStart, hOk⟩, ?_⟩)
      exact decide_eq_true hToday
  · intro h e he
    rcases List.mem_append.mp he with hHour | hRawEntry
    · obtain ⟨k, -, hk⟩ := List.mem_filterMap.mp hHour
      obtain ⟨rfl, -, hSource, -⟩ := hourEntry_key hk
      exact hSource
    · obtain ⟨m, hm, rfl⟩ := List.mem_map.mp hRawEntry
      obtain ⟨hRow, hToday⟩ := List.mem_filter.mp hm
      obtain ⟨hMem, hStart, hOk⟩ := mem_rawRows.mp hRow
      refine (hRaw _).mpr ((h m hMem hOk hStart).resolve_left fun hMeasured => ?_)
      exact of_decide_eq_true hToday (mem_ipmiServersToday.mpr hMeasured)

end Entries

/-! ## Means of a day -/

/-- A day holds, for each server, the list of its watts. -/
theorem clusterMean_foldl (l : List Entry) : clusterMean (l.foldl addEntry Dict.empty) =
    ∑ sid ∈ keys Entry.serverId l, mean Entry.watts (group Entry.serverId sid l) := by
  have hList : ∀ l : List Entry, l.foldl (fun v e => v ++ [e.watts]) [] = l.map Entry.watts := by
    intro l
    induction l using List.reverseRecOn with
    | nil => rfl
    | append_singleton l e ih => rw [List.foldl_append, ih, List.map_append]; rfl
  have hFold : l.foldl addEntry Dict.empty =
      foldAt Entry.serverId [] (fun v e => v ++ [e.watts]) l := rfl
  rw [hFold, clusterMean, sum_entries_foldAt fun v : List ℚ => v.sum / (v.length : ℚ)]
  refine Finset.sum_congr rfl fun sid _ => ?_
  rw [hList, List.length_map]
  rfl

theorem clusterMean_daySrvHours {entries : List Entry} {day : Int} {bySrv : Dict Nat (List ℚ)}
    (h : (day, bySrv) ∈ (daySrvHours entries).entries) :
    bySrv = (group Entry.day day entries).foldl addEntry Dict.empty := by
  have hGet := Dict.get?_of_mem h
  rw [daySrvHours, get?_foldAt] at hGet
  split at hGet
  · cases hGet
  · exact (Option.some.inj hGet).symm

section MeasuredDays

variable {db : EnergyStore} {since now : Int} {day : Int} {sid : Nat}

theorem mem_ipmiRowsOf {s : IpmiSnapshot} : s ∈ ipmiRowsOf db since day ↔
    s ∈ ipmiRows db since ∧ dayOf (hourOf s.collectedAt) = day := by
  rw [ipmiRowsOf, List.mem_filter, decide_eq_true_eq]

theorem mem_measuredHours {hour : Int} : hour ∈ measuredHours db since day sid ↔
    dayOf hour = day ∧ Measured db since (sid, hour) := by
  simp only [measuredHours, Measured, mem_keys, mem_group, mem_ipmiRowsOf]
  constructor
  · rintro ⟨s, ⟨⟨hRow, hDay⟩, rfl⟩, rfl⟩
    exact ⟨hDay, s, hRow, rfl⟩
  · rintro ⟨hDay, s, hRow, hKey⟩
    cases hKey
    exact ⟨s, ⟨⟨hRow, hDay⟩, rfl⟩, rfl⟩

theorem mem_measuredServers : sid ∈ measuredServers db since day ↔
    ∃ hour, dayOf hour = day ∧ Measured db since (sid, hour) := by
  simp only [measuredServers, Measured, mem_keys, mem_ipmiRowsOf]
  constructor
  · rintro ⟨s, ⟨hRow, hDay⟩, rfl⟩
    exact ⟨_, hDay, s, hRow, rfl⟩
  · rintro ⟨hour, hDay, s, hRow, hKey⟩
    cases hKey
    exact ⟨s, ⟨hRow, hDay⟩, rfl⟩

/-- No two hourly figures stand for one hour of a server. -/
theorem nodup_hourEntries (order : Dict.SetOrder (energyKeys db since)) :
    ((order.items.filterMap (hourEntry db since)).map fun e => (e.serverId, e.hour)).Nodup := by
  rw [List.map_filterMap]
  refine List.Nodup.filterMap (fun k k' key hk hk' => ?_) order.nodup
  obtain ⟨e, he, rfl⟩ := Option.map_eq_some_iff.mp hk
  obtain ⟨e', he', hKey⟩ := Option.map_eq_some_iff.mp hk'
  exact (hourEntry_key he).1.symm.trans (hKey.symm.trans (hourEntry_key he').1)

/-- No raw sample goes into a measured day. -/
theorem group_rawEntries_eq_nil (h : MeasuredDay db since now day) :
    group Entry.day day (rawEntries db since now) = [] := by
  refine List.filter_eq_nil_iff.mpr fun e he hDay => ?_
  obtain ⟨m, hm, rfl⟩ := List.mem_map.mp he
  obtain ⟨hRow, hToday⟩ := List.mem_filter.mp hm
  have hOwn : today now = day := of_decide_eq_true hDay
  obtain ⟨hHour, hMeasured⟩ := h.raw hOwn.symm m hRow
  exact of_decide_eq_true hToday
    (mem_ipmiServersToday.mpr ⟨hourOf m.collectedAt, hHour.trans hOwn.symm, hMeasured⟩)

theorem group_energyEntries (h : MeasuredDay db since now day)
    (order : Dict.SetOrder (energyKeys db since)) :
    group Entry.day day (energyEntries db since now order) =
      group Entry.day day (order.items.filterMap (hourEntry db since)) := by
  have hRaw := group_rawEntries_eq_nil h
  rw [group] at hRaw
  rw [group, group, energyEntries, List.filter_append, hRaw, List.append_nil]

/-- The figures of a measured day are the means of its measured hours. -/
theorem mem_group_day (h : MeasuredDay db since now day)
    (order : Dict.SetOrder (energyKeys db since)) {e : Entry} :
    e ∈ group Entry.day day (energyEntries db since now order) ↔
      ∃ k : HourKey, dayOf k.2 = day ∧ Measured db since k ∧
        e = ⟨dayOf k.2, k.1, ipmiMean db since k, k.2, .ipmi⟩ := by
  rw [group_energyEntries h, mem_group, List.mem_filterMap]
  constructor
  · rintro ⟨⟨k, -, hk⟩, hDay⟩
    have hOwn : dayOf k.2 = day := by
      obtain ⟨rfl, hDayOf, -, -⟩ := hourEntry_key hk
      exact hDayOf.symm.trans hDay
    have hMeasured : Measured db since k := by
      by_contra hNot
      rw [hourEntry_not_measured hNot] at hk
      split at hk
      · rename_i hEstimated
        exact hNot (h.estimated k hOwn hEstimated)
      · cases hk
    rw [hourEntry_measured hMeasured] at hk
    exact ⟨k, hOwn, hMeasured, (Option.some.inj hk).symm⟩
  · rintro ⟨k, hDay, hMeasured, rfl⟩
    refine ⟨⟨k, (order.mem_items k).mpr (Finset.mem_union_left _ ?_),
      hourEntry_measured hMeasured⟩, hDay⟩
    rw [List.mem_toFinset, Dict.mem_keys_iff, ipmiHour_get?, if_pos hMeasured]
    rfl

/-- Within one server the hour alone tells the figures of a measured day apart. -/
theorem nodup_hours (h : MeasuredDay db since now day)
    (order : Dict.SetOrder (energyKeys db since)) (sid : Nat) :
    ((group Entry.serverId sid
      (group Entry.day day (energyEntries db since now order))).map Entry.hour).Nodup := by
  have hPairs : ((group Entry.serverId sid (group Entry.day day
      (energyEntries db since now order))).map fun e => (e.serverId, e.hour)).Nodup := by
    rw [group_energyEntries h]
    exact (nodup_hourEntries order).sublist
      ((List.filter_sublist.trans List.filter_sublist).map _)
  have hServer : ((group Entry.serverId sid (group Entry.day day
      (energyEntries db since now order))).map Entry.hour).map (Prod.mk sid) =
        (group Entry.serverId sid (group Entry.day day
          (energyEntries db since now order))).map fun e => (e.serverId, e.hour) := by
    rw [List.map_map]
    refine List.map_congr_left fun e he => ?_
    rw [← (mem_group.mp he).2]
    rfl
  rw [← hServer] at hPairs
  exact hPairs.of_map

/-- Where everything is measured, the mean of a day is the sum of the servers' means over their
hours. -/
theorem avgW_of_measuredDay (h : MeasuredDay db since now day)
    (order : Dict.SetOrder (energyKeys db since)) :
    clusterMean ((group Entry.day day (energyEntries db since now order)).foldl addEntry
      Dict.empty) = measuredMean db since day := by
  have hServers : keys Entry.serverId (group Entry.day day (energyEntries db since now order)) =
      measuredServers db since day := by
    ext sid
    rw [mem_keys, mem_measuredServers]
    constructor
    · rintro ⟨e, he, rfl⟩
      obtain ⟨k, hDay, hMeasured, rfl⟩ := (mem_group_day h order).mp he
      exact ⟨k.2, hDay, hMeasured⟩
    · rintro ⟨hour, hDay, hMeasured⟩
      exact ⟨_, (mem_group_day h order).mpr ⟨(sid, hour), hDay, hMeasured, rfl⟩, rfl⟩
  have hHours : ∀ sid, keys Entry.hour (group Entry.serverId sid
      (group Entry.day day (energyEntries db since now order))) =
        measuredHours db since day sid := by
    intro sid
    ext hour
    rw [mem_keys, mem_measuredHours]
    constructor
    · rintro ⟨e, he, rfl⟩
      obtain ⟨hOfDay, rfl⟩ := mem_group.mp he
      obtain ⟨k, hDay, hMeasured, rfl⟩ := (mem_group_day h order).mp hOfDay
      exact ⟨hDay, hMeasured⟩
    · rintro ⟨hDay, hMeasured⟩
      exact ⟨_, mem_group.mpr
        ⟨(mem_group_day h order).mpr ⟨(sid, hour), hDay, hMeasured, rfl⟩, rfl⟩, rfl⟩
  rw [clusterMean_foldl, hServers, measuredMean]
  refine Finset.sum_congr rfl fun sid _ => ?_
  rw [← hHours]
  refine mean_of_nodup (nodup_hours h order sid) fun e he => ?_
  obtain ⟨hDay, rfl⟩ := mem_group.mp he
  obtain ⟨k, -, -, rfl⟩ := (mem_group_day h order).mp hDay
  rfl

end MeasuredDays

/-- Every hour has one source, and measured days have their mean, exactly when the raw samples of
today do not meet another source. -/
theorem clusterEnergy_oneSource_iff (db : EnergyStore) (price : ℚ) (now : Int) (days : Nat)
    (order : Dict.SetOrder (energyKeys db (energySince now days))) :
    (OneSource db (energySince now days) (energyEntries db (energySince now days) now order) ∧
      ∀ d ∈ (clusterEnergy db price now days order).days,
        MeasuredDay db (energySince now days) now d.date →
          d.avgW = roundTo 1 (measuredMean db (energySince now days) d.date)) ↔
    RawAlone db (energySince now days) now := by
  rw [oneSource_iff, and_iff_left_iff_imp]
  intro _ d hd hMeasured
  obtain ⟨⟨day, bySrv⟩, hDay, rfl⟩ := List.mem_map.mp hd
  have hEntry := (List.mem_insertionSort _).mp (List.mem_of_mem_filter hDay)
  have hOwn : MeasuredDay db (energySince now days) now day := hMeasured
  change roundTo 1 (clusterMean bySrv) = roundTo 1 (measuredMean db (energySince now days) day)
  rw [clusterMean_daySrvHours hEntry, avgW_of_measuredDay hOwn order]

/-- Today at one o'clock: a server without a BMC whose first hour is rolled up. -/
def rolledUpToday : EnergyStore where
  metrics := [{ id := 1, serverId := 1, collectedAt := 0, gpuCount := 1
                gpus := [{ powerDraw := some 300 }] }]
  hourly := [{ serverId := 1, hour := 0, gpuPowerAvg := 300 }]

def rolledUpOrder : Dict.SetOrder (energyKeys rolledUpToday (energySince (minutes 60) 7)) where
  items := [(1, 0)]
  nodup := List.nodup_singleton _
  mem_items := by
    have hKeys : energyKeys rolledUpToday (energySince (minutes 60) 7) = {(1, 0)} := by
      decide +kernel
    simp [hKeys]

/-- The hour stands twice, with its rollup and with its raw sample. -/
theorem rolledUpHour_twice :
    energyEntries rolledUpToday (energySince (minutes 60) 7) (minutes 60) rolledUpOrder =
      [⟨0, 1, 300, 0, .rollup⟩, ⟨0, 1, 300, 0, .raw⟩] ∧
    ¬ OneSource rolledUpToday (energySince (minutes 60) 7)
      (energyEntries rolledUpToday (energySince (minutes 60) 7) (minutes 60) rolledUpOrder) := by
  have hEntries : energyEntries rolledUpToday (energySince (minutes 60) 7) (minutes 60)
      rolledUpOrder = [⟨0, 1, 300, 0, .rollup⟩, ⟨0, 1, 300, 0, .raw⟩] := by decide +kernel
  refine ⟨hEntries, fun h => ?_⟩
  rw [hEntries] at h
  have hRollup := h _ List.mem_cons_self
  have hRaw := h _ (List.mem_cons_of_mem _ List.mem_cons_self)
  cases hRollup.trans hRaw.symm

end GpuMon.Cockpit

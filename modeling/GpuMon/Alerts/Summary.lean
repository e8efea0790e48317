import GpuMon.Alerts.Notices

/-!
# The health summary of the cluster (`_cluster_health_summary`)

The summary judges a server by its newest sample and by the names of its open detector events,
which it counts from two lists of its own; the notifications take their severities from
`SEV_BY_DETECTOR`.

* `summary_judgesAsNotified_iff`: the summary is never milder than the notifications exactly when
  every server that has an event open which neither list counts, although it is notified as
  critical or as a warning, is judged as badly for another reason.
* `severityOf_critical_cases`, `severityOf_warning_cases`: which names these are.
-/

namespace GpuMon.Alerts

open PyText Notifier

/-! ## The summary -/

inductive Overall
  | unknown
  | ok
  | warning
  | critical
  | maintenance
  deriving DecidableEq

/-- An entry of the summary. A server without samples has neither a host name nor a code. -/
structure HealthEntry where
  serverId : Nat
  name : Text
  hostname : Option Text := none
  overall : Overall
  connectivity : Overall
  critical : Nat := 0
  warning : Nat := 0
  status : ServerStatus
  tags : List Text
  errorCode : Option Text := none
  deriving DecidableEq

/-- `max(collected_at)` of all samples of a server. -/
def newestAt (db : Store) (sid : Nat) : Option Int :=
  ((db.metrics.rows.filter fun m => m.serverId = sid).map ServerMetric.collectedAt).max?

/-- `latest_map`: of several samples at a server's newest time, the one the query returns last. -/
def latestMap (db : Store) : Dict Nat ServerMetric :=
  Dict.ofList ((db.metrics.rows.filter fun m => some m.collectedAt = newestAt db m.serverId).map
    fun m => (m.serverId, m))

/-- `open_counts`: the names of the open detector events of a server. -/
def openDetectors (db : Store) (sid : Nat) : List Text :=
  (db.events.rows.filter fun ev => ev.isOpen && ev.ruleId.isNone && ev.serverId = sid).map
    AlertEvent.metric

/-- What the summary counts as critical, besides the names that contain `XID`. -/
def summaryCritical : List Text :=
  ["GPU_MISSING", "GPU_ECC_UNCORRECTED", "RAID_DEGRADED", "OOM_KILL", "MCE_HARDWARE_ERROR",
    "SSH_FAULT", "HOSTKEY_CHANGED"]

/-- What the summary counts as a warning. -/
def summaryWarning : List Text :=
  ["GPU_THERMAL_THROTTLE", "NVME_HEALTH", "NFS_STALE", "SERVICE_FAILED", "PCIE_AER",
    "GPU_IDLE_VRAM_HELD", "STORAGE_BOTTLENECK"]

def countsCritical (metric : Text) : Bool :=
  contains "XID" metric || summaryCritical.contains metric

def countsWarning (metric : Text) : Bool := summaryWarning.contains metric

/-- The entry of a server whose newest sample is known. -/
def judgedEntry (s : Server) (latest : ServerMetric) (sev : List Text) : HealthEntry :=
  let crit := sev.countP countsCritical
  let warn := sev.countP countsWarning
  { serverId := s.id
    name := s.name
    hostname := some latest.hostname
    overall :=
      if s.status = .maintenance then .maintenance
      else if crit ≠ 0 ∨ latest.status ≠ .ok then .critical
      else if warn ≠ 0 then .warning else .ok
    connectivity := if latest.status = .ok then .ok else .critical
    critical := crit
    warning := warn
    status := s.status
    tags := s.tags
    errorCode := some (if latest.status = .ok then "OK" else latest.errorCode) }

def healthEntry (db : Store) (s : Server) : HealthEntry :=
  match (latestMap db).get? s.id with
  | none =>
    { serverId := s.id, name := s.name, overall := .unknown, connectivity := .unknown
      status := s.status, tags := s.tags }
  | some latest => judgedEntry s latest (openDetectors db s.id)

/-- `_cluster_health_summary`. -/
def clusterHealthSummary (db : Store) : List HealthEntry :=
  (enabledServers db).map (healthEntry db)

/-- The names that are notified as critical and that neither list counts so. -/
def uncountedCritical : List Text := ["CHASSIS_POWER_OFF", "PSU_FAULT", "SEL_CRITICAL"]

/-- The names that are notified as warnings and that neither list has: one of the table, and
those outside the table, which get the default. -/
def uncountedWarning (metric : Text) : Bool :=
  metric = "BMC_UNREACHABLE" || !(sevByDetector.map Prod.fst).contains metric

/-- The summary is not milder about a server than the severities of its open events. -/
structure JudgedAsNotified (db : Store) (sid : Nat) (entry : HealthEntry) : Prop where
  critical : ∀ ev ∈ db.events.rows, ev.isOpen = true → ev.ruleId = none → ev.serverId = sid →
    severityOf ev.metric = "critical" → entry.overall = .critical
  warning : ∀ ev ∈ db.events.rows, ev.isOpen = true → ev.ruleId = none → ev.serverId = sid →
    severityOf ev.metric = "warning" → entry.overall ≠ .ok

/-- An enabled server under judgement, and its newest sample. -/
structure IsJudged (db : Store) (s : Server) (latest : ServerMetric) : Prop where
  mem : s ∈ db.servers.rows
  enabled : s.enabled = true
  active : s.status ≠ .maintenance
  latest : (latestMap db).get? s.id = some latest

/-- Every server under judgement has an entry that is not milder than its notifications. -/
def SummaryJudgesAsNotified (db : Store) : Prop :=
  ∀ s latest, IsJudged db s latest → ∃ entry ∈ clusterHealthSummary db,
    entry.serverId = s.id ∧ JudgedAsNotified db s.id entry

/-- What makes an entry as bad as the uncounted names of a server ask for. -/
structure Covered (latest : ServerMetric) (sev : List Text) : Prop where
  critical : (∃ e ∈ sev, e ∈ uncountedCritical) →
    latest.status ≠ .ok ∨ ∃ e ∈ sev, countsCritical e = true
  warning : (∃ e ∈ sev, uncountedWarning e = true) →
    latest.status ≠ .ok ∨ ∃ e ∈ sev, countsCritical e = true ∨ countsWarning e = true

/-! ## The two classifications -/

theorem severityOf_of_notMem {metric : Text} (h : metric ∉ sevByDetector.map Prod.fst) :
    severityOf metric = "warning" := by
  have hNone : sevByDetector.find? (fun p => p.1 = metric) = none := by
    rw [List.find?_eq_none]
    intro p hp hEq
    exact h (List.mem_map.mpr ⟨p, hp, of_decide_eq_true hEq⟩)
  unfold severityOf
  rw [hNone]
  rfl

theorem listed_cases : ∀ metric ∈ sevByDetector.map Prod.fst,
    (severityOf metric = "critical" → countsCritical metric = true ∨ metric ∈ uncountedCritical) ∧
    (severityOf metric = "warning" → countsWarning metric = true ∨ metric = "BMC_UNREACHABLE") := by
  decide +kernel

theorem severityOf_critical_cases {metric : Text} (h : severityOf metric = "critical") :
    countsCritical metric = true ∨ metric ∈ uncountedCritical := by
  by_cases hMem : metric ∈ sevByDetector.map Prod.fst
  · exact (listed_cases metric hMem).1 h
  · rw [severityOf_of_notMem hMem] at h
    exact absurd h (by decide)

theorem severityOf_warning_cases {metric : Text} (h : severityOf metric = "warning") :
    countsWarning metric = true ∨ uncountedWarning metric = true := by
  unfold uncountedWarning
  by_cases hMem : metric ∈ sevByDetector.map Prod.fst
  · rcases (listed_cases metric hMem).2 h with hCounts | rfl
    · exact .inl hCounts
    · exact .inr rfl
  · simp [hMem]

theorem severityOf_of_uncountedCritical : ∀ metric ∈ uncountedCritical,
    severityOf metric = "critical" := by
  decide +kernel

theorem severityOf_of_uncountedWarning {metric : Text} (h : uncountedWarning metric = true) :
    severityOf metric = "warning" := by
  rcases Bool.or_eq_true_iff.mp h with hBmc | hUnlisted
  · rw [of_decide_eq_true hBmc]
    rfl
  · refine severityOf_of_notMem ?_
    simpa using hUnlisted

/-! ## Entries -/

section Entries

variable {db : Store} {s : Server} {latest : ServerMetric} {sev : List Text}

theorem mem_openDetectors {metric : Text} {sid : Nat} : metric ∈ openDetectors db sid ↔
    ∃ ev ∈ db.events.rows, ev.isOpen = true ∧ ev.ruleId = none ∧ ev.serverId = sid ∧
      ev.metric = metric := by
  simp [openDetectors, and_assoc]

/-- A server has one entry. -/
theorem mem_clusterHealthSummary (h : IsJudged db s latest) {entry : HealthEntry} :
    entry ∈ clusterHealthSummary db ∧ entry.serverId = s.id ↔
      entry = judgedEntry s latest (openDetectors db s.id) := by
  have hEntry : healthEntry db s = judgedEntry s latest (openDetectors db s.id) := by
    unfold healthEntry
    rw [h.latest]
  constructor
  · rintro ⟨hMem, hId⟩
    obtain ⟨s', hs', rfl⟩ := List.mem_map.mp hMem
    have hOwn : (healthEntry db s').serverId = s'.id := by
      unfold healthEntry
      split <;> rfl
    rw [hOwn] at hId
    rw [Table.eq_of_key_eq (List.mem_of_mem_filter hs') h.mem hId, hEntry]
  · rintro rfl
    refine ⟨List.mem_map.mpr ⟨s, List.mem_filter.mpr ⟨h.mem, h.enabled⟩, hEntry⟩, rfl⟩

/-- What an entry under judgement depends on. -/
theorem overall_judgedEntry (hActive : s.status ≠ .maintenance) :
    (judgedEntry s latest sev).overall =
      if (∃ e ∈ sev, countsCritical e = true) ∨ latest.status ≠ .ok then .critical
      else if ∃ e ∈ sev, countsWarning e = true then .warning else .ok := by
  have hCount : ∀ p : Text → Bool, sev.countP p ≠ 0 ↔ ∃ e ∈ sev, p e = true := fun p => by
    rw [← Nat.pos_iff_ne_zero, List.countP_pos_iff]
  simp only [judgedEntry, if_neg hActive, hCount]

theorem overall_eq_critical_iff (hActive : s.status ≠ .maintenance) :
    (judgedEntry s latest sev).overall = .critical ↔
      latest.status ≠ .ok ∨ ∃ e ∈ sev, countsCritical e = true := by
  rw [overall_judgedEntry hActive]
  split
  · rename_i h
    exact iff_of_true rfl h.symm
  · rename_i h
    refine iff_of_false ?_ fun h' => h h'.symm
    split <;> simp

theorem overall_ne_ok_iff (hActive : s.status ≠ .maintenance) :
    (judgedEntry s latest sev).overall ≠ .ok ↔
      latest.status ≠ .ok ∨ ∃ e ∈ sev, countsCritical e = true ∨ countsWarning e = true := by
  have hEither : (∃ e ∈ sev, countsCritical e = true ∨ countsWarning e = true) ↔
      (∃ e ∈ sev, countsCritical e = true) ∨ ∃ e ∈ sev, countsWarning e = true := by
    simp only [and_or_left, exists_or]
  rw [overall_judgedEntry hActive, hEither, ← or_assoc]
  split
  · rename_i h
    exact iff_of_true (by simp) (.inl h.symm)
  · rename_i h
    rw [or_iff_right fun h' => h h'.symm]
    split
    · rename_i hWarn
      exact iff_of_true (by simp) hWarn
    · rename_i hWarn
      exact iff_of_false (by simp) hWarn

theorem judgedAsNotified_iff (hActive : s.status ≠ .maintenance) :
    JudgedAsNotified db s.id (judgedEntry s latest (openDetectors db s.id)) ↔
      Covered latest (openDetectors db s.id) := by
  constructor
  · intro h
    refine ⟨?_, ?_⟩
    · rintro ⟨e, hMem, hUncounted⟩
      obtain ⟨ev, hEv, hOpen, hRule, hServer, rfl⟩ := mem_openDetectors.mp hMem
      exact (overall_eq_critical_iff hActive).mp
        (h.critical ev hEv hOpen hRule hServer (severityOf_of_uncountedCritical _ hUncounted))
    · rintro ⟨e, hMem, hUncounted⟩
      obtain ⟨ev, hEv, hOpen, hRule, hServer, rfl⟩ := mem_openDetectors.mp hMem
      exact (overall_ne_ok_iff hActive).mp
        (h.warning ev hEv hOpen hRule hServer (severityOf_of_uncountedWarning hUncounted))
  · intro h
    refine ⟨?_, ?_⟩
    · intro ev hEv hOpen hRule hServer hSeverity
      have hMem := mem_openDetectors.mpr ⟨ev, hEv, hOpen, hRule, hServer, rfl⟩
      refine (overall_eq_critical_iff hActive).mpr ?_
      rcases severityOf_critical_cases hSeverity with hCounts | hUncounted
      · exact .inr ⟨_, hMem, hCounts⟩
      · exact h.critical ⟨_, hMem, hUncounted⟩
    · intro ev hEv hOpen hRule hServer hSeverity
      have hMem := mem_openDetectors.mpr ⟨ev, hEv, hOpen, hRule, hServer, rfl⟩
      refine (overall_ne_ok_iff hActive).mpr ?_
      rcases severityOf_warning_cases hSeverity with hCounts | hUncounted
      · exact .inr ⟨_, hMem, .inr hCounts⟩
      · exact h.warning ⟨_, hMem, hUncounted⟩

end Entries

/-- The summary is at least as severe as the notifications, on all servers, exactly when nothing
hangs on the names that it does not count. -/
theorem summary_judgesAsNotified_iff (db : Store) :
    SummaryJudgesAsNotified db ↔
      ∀ s latest, IsJudged db s latest → Covered latest (openDetectors db s.id) := by
  refine forall_congr' fun s => forall_congr' fun latest => forall_congr' fun h => ?_
  rw [← judgedAsNotified_iff h.active]
  constructor
  · rintro ⟨entry, hMem, hId, hJudged⟩
    rwa [(mem_clusterHealthSummary h).mp ⟨hMem, hId⟩] at hJudged
  · intro hJudged
    obtain ⟨hMem, hId⟩ := (mem_clusterHealthSummary h).mpr rfl
    exact ⟨_, hMem, hId, hJudged⟩

/-- A host that answers while its BMC reports the chassis as off. -/
def poweredOff : Store where
  rules := Table.empty
  servers := ⟨[{ id := 1, name := "gpu-a" }], by decide⟩
  metrics := ⟨[{ id := 1, serverId := 1, collectedAt := 0 }], by decide⟩
  events := ⟨[{ id := 1, serverId := 1, metric := "CHASSIS_POWER_OFF" }], by decide⟩

/-- An event notified as critical is open, and the summary calls the server healthy. -/
theorem poweredOff_judged_ok : ¬ SummaryJudgesAsNotified poweredOff := by
  intro h
  have hJudged : IsJudged poweredOff { id := 1, name := "gpu-a" }
      { id := 1, serverId := 1, collectedAt := 0 } :=
    ⟨by decide, rfl, by decide, by decide +kernel⟩
  obtain ⟨entry, hMem, -, hEntry⟩ := h _ _ hJudged
  have hOk : ∀ e ∈ clusterHealthSummary poweredOff, e.overall = .ok := by decide +kernel
  have hCritical := hEntry.critical { id := 1, serverId := 1, metric := "CHASSIS_POWER_OFF" }
    (by decide) rfl rfl rfl (by decide)
  rw [hOk entry hMem] at hCritical
  cases hCritical

end GpuMon.Alerts

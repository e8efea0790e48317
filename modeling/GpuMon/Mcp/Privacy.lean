import GpuMon.Mcp.Tools

/-!
# What the strict mode keeps back

Two monitors whose payloads differ only in what the strict mode is to hide look the same through
the tools: `strict_same`. `SameBackend` says what may differ: hosts (but not whether the caller's
reference is one), tags, notes and error texts, users, commands and all other data of processes
but their pids and memory, the messages of events (but not whether they concern GPUs) and who
handles them, and hardware ids (but not their HMACs, nor which entries of the risk list they
join).
-/

namespace GpuMon.McpTools

open PyText PyJson

variable {env : Env}

/-! ## Policies -/

/-- Only these keys are shown. -/
def showing (keys : List Text) : Policy := fun key v w => key ∈ keys → v = w

def processPolicy : Policy := showing ["pid", "mem_mb", "gpu_memory_mb"]

/-- Of a hardware id its HMAC is shown. -/
def gpuPolicy (env : Env) : Policy := fun key v w =>
  if key ∈ hardwareKeys then SameResult Eq (opaqueHardwareId env v) (opaqueHardwareId env w)
  else if key = "processes" then InList (InDict (SameFields processPolicy)) v w
  else v = w

/-- Of a host is shown whether it is the reference. -/
def serverPolicy (env : Env) (ref : Text) : Policy := fun key v w =>
  if key = "host" then
    (env.casefold ref = env.casefold (str env v) ↔ env.casefold ref = env.casefold (str env w))
  else key ∈ (["id", "name", "enabled", "server_type", "status"] : List Text) → v = w

/-- The GPUs of a payload, and some keys beside them. -/
def withGpus (P : Policy) (keys : List Text) : Policy := fun key v w =>
  if key = "gpus" then InList (InDict (SameFields P)) v w else key ∈ keys → v = w

def rowPolicy (env : Env) : Policy :=
  withGpus (gpuPolicy env) ["server_id", "server_name", "enabled", "online", "status"]

def latestPolicy (env : Env) : Policy :=
  withGpus (gpuPolicy env)
    ["collected_at", "status", "error_code", "gpu_driver", "ssh_latency", "duration"]

def analysisPolicy (env : Env) : Policy :=
  withGpus (gpuPolicy env) ["total_gpus", "idle_held_count", "high_risk_count"]

/-- Of the uuid of a risk entry is shown whether there is one. -/
def riskPolicy : Policy := fun key v w =>
  if key = "uuid" then truthy v = truthy w
  else key ∈ (["risk", "risk_label", "xid_events", "thermal_throttle_samples", "max_temp"] :
    List Text) → v = w

def pointPolicy : Policy :=
  showing ["time", "gpu_util", "gpu_mem_used_mb", "gpu_mem_percent", "gpu_temp", "gpu_power",
    "gpu_clock"]

def eventPolicy : Policy :=
  showing ["id", "server_id", "server_name", "metric", "rule_name", "value", "threshold",
    "triggered_at", "recovered_at", "acked_at"]

/-- Of the message of an event is shown whether it concerns GPUs. -/
def SameEvent (env : Env) (d e : Fields) : Prop :=
  SameFields eventPolicy d e ∧ concernsGpu env d = concernsGpu env e

/-- A GPU joins the same entries of the risk list. -/
def SameJoin (env : Env) (risks risks' : List Fields) (gpu gpu' : Fields) : Prop :=
  List.Forall₂ (fun r r' => str env (get r "uuid") = str env (get gpu "uuid") ↔
    str env (get r' "uuid") = str env (get gpu' "uuid")) risks risks'

/-- The monitors differ in what is to be hidden from a caller who names a server by `reference`. -/
structure SameBackend (env : Env) (reference : Text) (api api' : Backend) : Prop where
  health : api.health = api'.health
  me : SameResult (InDict (SameFields (showing ["role"]))) (api.get "/api/auth/me" [])
    (api'.get "/api/auth/me" [])
  servers : SameResult (InList (InDict (SameFields (serverPolicy env (strip reference)))))
    (api.get "/api/servers" []) (api'.get "/api/servers" [])
  matrix : SameResult (InList (InDict (SameFields (rowPolicy env)))) (api.get "/api/metrics/cluster-gpus" [])
    (api'.get "/api/metrics/cluster-gpus" [])
  analysis : SameResult (InDict (SameFields (analysisPolicy env))) (api.get "/api/cluster/gpu-analysis" [])
    (api'.get "/api/cluster/gpu-analysis" [])
  latest : ∀ id, SameResult (InDict (SameFields (latestPolicy env))) (api.get (serverPath id "/latest") [])
    (api'.get (serverPath id "/latest") [])
  risk : ∀ id, SameResult (InDict (SameFields (withGpus riskPolicy []))) (api.get (riskPath id) [])
    (api'.get (riskPath id) [])
  joined : ∀ id latest latest' risk risk' gpus gpus' risks risks',
    api.get (serverPath id "/latest") [] = .ok (.object latest) →
    api'.get (serverPath id "/latest") [] = .ok (.object latest') →
    api.get (riskPath id) [] = .ok risk → api'.get (riskPath id) [] = .ok risk' →
    gpusOf latest = .ok gpus → gpusOf latest' = .ok gpus' →
    risksOf risk = .ok risks → risksOf risk' = .ok risks' →
    List.Forall₂ (SameJoin env risks risks') gpus gpus'
  history : ∀ id params, SameResult (InList (InDict (SameFields pointPolicy)))
    (api.get (serverPath id "/history") params) (api'.get (serverPath id "/history") params)
  events : ∀ params, SameResult (InList (InDict (SameEvent env))) (api.get "/api/alerts/events" params)
    (api'.get "/api/alerts/events" params)

theorem showing_reflexive (keys : List Text) : (showing keys).Reflexive := fun _ _ _ => rfl

theorem gpuPolicy_reflexive (env : Env) : (gpuPolicy env).Reflexive := by
  intro key v
  unfold gpuPolicy
  split
  · exact sameResult_rfl (fun _ => rfl) _
  · split
    · exact .refl _ v
    · rfl

theorem serverPolicy_reflexive (env : Env) (ref : Text) : (serverPolicy env ref).Reflexive := by
  intro key v
  unfold serverPolicy
  split
  · exact Iff.rfl
  · exact fun _ => rfl

theorem withGpus_reflexive (P : Policy) (keys : List Text) : (withGpus P keys).Reflexive := by
  intro key v
  unfold withGpus
  split
  · exact .refl _ v
  · exact fun _ => rfl

theorem riskPolicy_reflexive : riskPolicy.Reflexive := by
  intro key v
  unfold riskPolicy
  split
  · rfl
  · exact fun _ => rfl

theorem showing_shows {keys : List Text} {key : Text} (h : key ∈ keys) :
    (showing keys).Shows key := fun _ _ hvw => hvw h

theorem gpuPolicy_shows {key : Text} (hHardware : key ∉ hardwareKeys)
    (hProcesses : key ≠ "processes") : (gpuPolicy env).Shows key := by
  intro v w h
  unfold gpuPolicy at h
  rwa [if_neg hHardware, if_neg hProcesses] at h

theorem withGpus_shows {P : Policy} {keys : List Text} {key : Text} (h : key ∈ keys)
    (hGpus : key ≠ "gpus") : (withGpus P keys).Shows key := by
  intro v w hvw
  unfold withGpus at hvw
  rw [if_neg hGpus] at hvw
  exact hvw h

/-! ## Records -/

theorem read_same {d e : Fields} {s : Shown}
    (h : ∀ key ∈ s.keys, ∀ default, getOr d key default = getOr e key default) :
    s.read env d = s.read env e := by
  have hCount : ∀ key, (∀ default, getOr d key default = getOr e key default) →
      countOf d key = countOf e key := by
    intro key hKey
    rw [countOf, countOf, PyJson.get, PyJson.get, hKey]
  cases s with
  | counts parts =>
    have hParts : parts.mapM (fun p => (countOf d p.2).map fun v => (p.1, v)) =
        parts.mapM fun p => (countOf e p.2).map fun v => (p.1, v) :=
      mapM_congr fun p hp => by
        rw [hCount p.2 (h p.2 (List.mem_map.mpr ⟨p, hp, rfl⟩))]
    rw [Shown.read, Shown.read, hParts]
  | percent used total =>
    have hUsed := h used (by simp [Shown.keys])
    have hTotal := h total (by simp [Shown.keys])
    simp only [Shown.read, PyJson.get, hUsed, hTotal]
  | count key => exact hCount key (h key (by simp [Shown.keys]))
  | _ key =>
    have hKey := h key (by simp [Shown.keys])
    simp only [Shown.read, PyJson.get, hKey]

/-- A record that is made of shown keys is the same. -/
theorem record_same {P : Policy} {d e : Fields} {table : List (Text × Shown)} (hP : P.Reflexive)
    (h : SameFields P d e) (hTable : ∀ p ∈ table, ∀ key ∈ p.2.keys, P.Shows key) :
    record env table d = record env table e :=
  mapM_congr fun p hp => by
    rw [read_same fun key hKey default => getOr_same hP h (hTable p hp key hKey) default]

theorem map_same_of_related {R : Value → Value → Prop} {v w : Value} (hR : ∀ v, R v v)
    (h : InList R v w) : SameResult (List.Forall₂ R) (iterate (orElse v (.array [])))
      (iterate (orElse w (.array []))) :=
  iterate_same hR (orElse_same h _)

/-! ## GPUs -/

theorem processesOf_related {g g' : Fields} (h : SameFields (gpuPolicy env) g g') :
    SameResult (List.Forall₂ (SameFields processPolicy)) (processesOf g) (processesOf g') := by
  have hProcesses : InList (InDict (SameFields processPolicy)) (PyJson.get g "processes")
      (PyJson.get g' "processes") := by
    have := getOr_related (gpuPolicy_reflexive env) h "processes" .null
    unfold gpuPolicy at this
    rwa [if_neg (by decide), if_pos rfl] at this
  exact map_related (map_same_of_related (InDict.refl _) hProcesses) fun l m hlm =>
    dicts_same (.refl (showing_reflexive _)) hlm

theorem opaque_same {g g' : Fields} (h : SameFields (gpuPolicy env) g g') {key : Text}
    (hKey : key ∈ hardwareKeys) :
    opaqueHardwareId env (PyJson.get g key) = opaqueHardwareId env (PyJson.get g' key) := by
  have := getOr_related (gpuPolicy_reflexive env) h key .null
  unfold gpuPolicy at this
  rw [if_pos hKey] at this
  exact eq_of_sameResult this

/-- Keys of a table that are neither hardware ids nor the processes. -/
def PlainTable (table : List (Text × Shown)) : Prop :=
  ∀ p ∈ table, ∀ key ∈ p.2.keys, key ∉ hardwareKeys ∧ key ≠ "processes"

instance (table : List (Text × Shown)) : Decidable (PlainTable table) :=
  inferInstanceAs (Decidable (∀ p ∈ table, ∀ key ∈ p.2.keys,
    key ∉ hardwareKeys ∧ key ≠ "processes".toList))

theorem gpuRecord_same {g g' : Fields} (h : SameFields (gpuPolicy env) g g')
    {table : List (Text × Shown)} (hTable : PlainTable table) :
    record env table g = record env table g' :=
  record_same (gpuPolicy_reflexive env) h fun p hp key hKey =>
    gpuPolicy_shows (hTable p hp key hKey).1 (hTable p hp key hKey).2

theorem processRecord_same (hStrict : env.strict = true) {p p' : Fields}
    (h : SameFields processPolicy p p') :
    record env (processTable env.strict) p = record env (processTable env.strict) p' := by
  refine record_same (showing_reflexive _) h ?_
  rw [processTable, if_pos hStrict]
  intro q hq key hKey
  exact showing_shows ((by decide : ∀ q ∈ resourceTable, ∀ key ∈ q.2.keys,
    key ∈ (["pid", "mem_mb", "gpu_memory_mb"] : List Text)) q hq key hKey)

theorem hardwareFields_same (hStrict : env.strict = true) {g g' : Fields}
    (h : SameFields (gpuPolicy env) g g') (name : Text) (table : List (Text × Shown)) :
    hardwareFields env name table g = hardwareFields env name table g' := by
  rw [hardwareFields, hardwareFields, if_pos hStrict, if_pos hStrict,
    opaque_same h (by decide : "uuid".toList ∈ hardwareKeys)]

theorem listedProcesses_same (hStrict : env.strict = true) (most : Nat) {l m : List Fields}
    (h : List.Forall₂ (SameFields processPolicy) l m) :
    listedProcesses env most l = listedProcesses env most m := by
  have hShown : (l.take most).mapM (record env (processTable env.strict)) =
      (m.take most).mapM (record env (processTable env.strict)) :=
    mapM_same (List.forall₂_take most h) fun p p' hp => processRecord_same hStrict hp
  rw [listedProcesses, listedProcesses, hShown, h.length_eq]

theorem gpuSnapshot_same (hStrict : env.strict = true) {g g' : Fields}
    (h : SameFields (gpuPolicy env) g g') : gpuSnapshot env g = gpuSnapshot env g' := by
  have hShown := gpuRecord_same h (by decide : PlainTable snapshotTable)
  unfold gpuSnapshot
  rw [hShown, hardwareFields_same hStrict h]
  refine bind_congr_right fun out => bind_congr_right fun hardware => ?_
  refine bind_same (processesOf_related h) fun l m _ _ hlm => ?_
  rw [listedProcesses_same hStrict 50 hlm, hlm.length_eq]

/-! ## Records of GPUs -/

theorem mem_set {d : Fields} {key : Text} {v : Value} {p : Text × Value} (hp : p ∈ PyJson.set d key v) :
    p.1 = key ∨ p ∈ d := by
  unfold PyJson.set at hp
  split at hp
  · obtain ⟨q, hq, rfl⟩ := List.mem_map.mp hp
    split
    · exact .inl rfl
    · exact .inr hq
  · rcases List.mem_append.mp hp with hOld | hNew
    · exact .inr hOld
    · exact .inl (by rw [List.mem_singleton.mp hNew])

/-- Two records at a turn of the loop that hides the hardware ids: those of `done` are gone. -/
def Hidden (env : Env) (done : List Text) (d e : Fields) : Prop :=
  SameFields (gpuPolicy env) d e ∧ ∀ p ∈ d, p.1 ∉ done

theorem hideHardwareId_related {d e : Fields} {done : List Text} {key : Text}
    (h : Hidden env done d e) (hKey : key ∈ hardwareKeys)
    (hName : (key ++ "_hash".toList) ∉ key :: done ∧ (key ++ "_hash".toList) ∉ hardwareKeys ∧
      (key ++ "_hash".toList) ≠ "processes") :
    SameResult (Hidden env (key :: done)) (hideHardwareId env d key) (hideHardwareId env e key) := by
  obtain ⟨hSame, hDone⟩ := h
  have hContains := contains_same hSame key
  unfold hideHardwareId
  by_cases hNone : (d.lookup key).isNone
  · have hNone' : (e.lookup key).isNone := by
      rw [← Option.not_isSome, ← hContains, Option.not_isSome]
      exact hNone
    rw [if_pos hNone, if_pos hNone']
    refine ⟨hSame, fun p hp => ?_⟩
    rw [List.mem_cons, not_or]
    refine ⟨fun hEq => ?_, hDone p hp⟩
    have hSome := hEq ▸ lookup_ne_none hp
    rw [Option.isNone_iff_eq_none.mp hNone] at hSome
    cases hSome
  · have hNone' : ¬(e.lookup key).isNone := by
      rw [← Option.not_isSome, ← hContains, Option.not_isSome]
      exact hNone
    rw [if_neg hNone, if_neg hNone', opaque_same hSame hKey]
    refine map_related (sameResult_rfl (fun hash => (rfl : hash = hash)) _) fun hash _ hHash => ?_
    subst hHash
    have hValue : gpuPolicy env (key ++ "_hash".toList) (text hash) (text hash) :=
      gpuPolicy_reflexive env _ _
    refine ⟨erase_related (set_related hSame hValue) key, fun p hp => ?_⟩
    obtain ⟨hSet, hNe⟩ := List.mem_filter.mp hp
    have hNe : p.1 ≠ key := of_decide_eq_true hNe
    rcases mem_set hSet with hEq | hOld
    · exact hEq ▸ hName.1
    · rw [List.mem_cons, not_or]
      exact ⟨hNe, hDone p hOld⟩

theorem hideProcesses_same {d e : Fields} (hSame : SameFields (gpuPolicy env) d e)
    (hGone : ∀ p ∈ d, p.1 ∉ hardwareKeys) : hideProcesses d = hideProcesses e := by
  have hContains := contains_same hSame "processes"
  unfold hideProcesses
  by_cases hNone : (d.lookup ("processes" : Text)).isNone
  · have hNone' : (e.lookup ("processes" : Text)).isNone := by
      rw [← Option.not_isSome, ← hContains, Option.not_isSome]
      exact hNone
    have hEq : d = e := eq_of_sameFields hSame fun p hp => gpuPolicy_shows (hGone p hp) fun hKey => by
      have hSome := hKey ▸ lookup_ne_none hp
      rw [Option.isNone_iff_eq_none.mp hNone] at hSome
      cases hSome
    rw [hEq]
  · have hNone' : ¬(e.lookup ("processes" : Text)).isNone := by
      rw [← Option.not_isSome, ← hContains, Option.not_isSome]
      exact hNone
    rw [if_neg hNone, if_neg hNone']
    have hProcesses : InList (InDict (SameFields processPolicy)) (PyJson.get d "processes")
        (PyJson.get e "processes") := by
      have := getOr_related (gpuPolicy_reflexive env) hSame "processes" .null
      unfold gpuPolicy at this
      rwa [if_neg (by decide), if_pos rfl] at this
    refine bind_same (iterate_same (InDict.refl _) hProcesses) fun l m _ _ hlm => ?_
    have hShown : (dicts l).mapM privateProcess = (dicts m).mapM privateProcess := by
      refine mapM_same (dicts_same (.refl (showing_reflexive _)) hlm) fun p p' hp => ?_
      have hPid := getOr_same (showing_reflexive _) hp
        (showing_shows (by decide : "pid".toList ∈ _)) .null
      have hMem := getOr_same (showing_reflexive _) hp
        (showing_shows (by decide : "mem_mb".toList ∈ _)) .null
      have hGpuMem := getOr_same (showing_reflexive _) hp
        (showing_shows (by decide : "gpu_memory_mb".toList ∈ _))
      unfold privateProcess PyJson.get
      rw [hMem, hGpuMem, hPid]
    rw [hShown]
    refine bind_congr_right fun shown => ?_
    rw [set_same hSame fun p hp hNe => gpuPolicy_shows (hGone p hp) hNe]

theorem privacyGpuRecord_same (hStrict : env.strict = true) {d e : Fields}
    (h : SameFields (gpuPolicy env) d e) : privacyGpuRecord env d = privacyGpuRecord env e := by
  unfold privacyGpuRecord
  rw [if_pos hStrict, if_pos hStrict]
  have hAll : SameResult (Hidden env ["gpu_uuid", "pci_bus_id", "serial", "uuid"])
      (hardwareKeys.foldlM (hideHardwareId env) d) (hardwareKeys.foldlM (hideHardwareId env) e) := by
    simp only [hardwareKeys, List.foldlM_cons, List.foldlM_nil]
    have hStart : Hidden env [] d e := ⟨h, fun _ _ => List.not_mem_nil⟩
    refine bind_related (hideHardwareId_related hStart (by decide) (by decide)) fun _ _ _ _ h => ?_
    refine bind_related (hideHardwareId_related h (by decide) (by decide)) fun _ _ _ _ h => ?_
    refine bind_related (hideHardwareId_related h (by decide) (by decide)) fun _ _ _ _ h => ?_
    refine bind_related (hideHardwareId_related h (by decide) (by decide)) fun _ _ _ _ h => ?_
    exact h
  refine bind_same hAll fun out out' _ _ hOut => ?_
  refine hideProcesses_same hOut.1 fun p hp => ?_
  have := hOut.2 p hp
  simp only [hardwareKeys, List.mem_cons, List.not_mem_nil, or_false, not_or] at this ⊢
  exact ⟨this.2.2.2, this.2.2.1, this.2.1, this.1⟩

/-! ## Lists of payloads -/

theorem asList_related {S : Fields → Fields → Prop} (hS : ∀ d, S d d) {v w : Value}
    (h : InList (InDict S) v w) (label : Text) :
    SameResult (List.Forall₂ S) (asList v label) (asList w label) := by
  rcases h with rfl | ⟨l, m, rfl, rfl, hItems⟩
  · exact sameResult_rfl (fun l => List.forall₂_same.mpr fun d _ => hS d) _
  · exact dicts_same hS hItems

theorem asPayload_related {S : Fields → Fields → Prop} (hS : ∀ d, S d d) {v w : Value}
    (h : InDict S v w) (label : Text) : SameResult S (asPayload v label) (asPayload w label) := by
  rcases h with rfl | ⟨d, e, rfl, rfl, hSame⟩
  · exact sameResult_rfl hS _
  · exact hSame

theorem gpus_related {P : Policy} {keys : List Text} {d e : Fields}
    (h : SameFields (withGpus P keys) d e) (default : Value) :
    InList (InDict (SameFields P)) (getOr d "gpus" default) (getOr e "gpus" default) := by
  have := getOr_related (withGpus_reflexive P keys) h "gpus" default
  unfold withGpus at this
  rwa [if_pos rfl] at this

theorem gpusOf_related {P : Policy} (hP : P.Reflexive) {keys : List Text} {d e : Fields}
    (h : SameFields (withGpus P keys) d e) :
    SameResult (List.Forall₂ (SameFields P)) (gpusOf d) (gpusOf e) :=
  map_related (map_same_of_related (InDict.refl _) (gpus_related h .null)) fun _ _ hlm =>
    dicts_same (.refl hP) hlm

/-- A key of a GPU that is neither a hardware id nor the processes. -/
def PlainKey (key : Text) : Prop := key ∉ hardwareKeys ∧ key ≠ "processes"

instance (key : Text) : Decidable (PlainKey key) :=
  inferInstanceAs (Decidable (key ∉ hardwareKeys ∧ key ≠ "processes".toList))

theorem get_same_of_plain {g g' : Fields} (h : SameFields (gpuPolicy env) g g') {key : Text}
    (hKey : PlainKey key) : PyJson.get g key = PyJson.get g' key :=
  getOr_same (gpuPolicy_reflexive env) h (gpuPolicy_shows hKey.1 hKey.2) .null

theorem numbers_same {l m : List Fields} (h : List.Forall₂ (SameFields (gpuPolicy env)) l m)
    {key : Text} (hKey : PlainKey key) : numbers key l = numbers key m :=
  mapM_same h fun g g' hg => by rw [get_same_of_plain hg hKey]

theorem flag_same {P : Policy} (hP : P.Reflexive) {d e : Fields} (h : SameFields P d e)
    {key : Text} (hKey : P.Shows key) : flag d key = flag e key := by
  rw [flag, flag, getOr_same hP h hKey]

theorem extended_same (hStrict : env.strict = true) (table : List (Text × Shown)) (d e : Fields) :
    extended env table d = extended env table e := by
  rw [extended, extended, if_pos hStrict, if_pos hStrict]

/-! ## The server that is meant -/

theorem serverPolicy_shows {ref key : Text}
    (h : key ∈ (["id", "name", "enabled", "server_type", "status"] : List Text)) :
    (serverPolicy env ref).Shows key := by
  intro v w hvw
  have hHost : key ≠ "host" := by
    rintro rfl
    exact absurd h (by decide)
  unfold serverPolicy at hvw
  rw [if_neg hHost] at hvw
  exact hvw h

variable {ref : Text}

theorem server_same {s s' : Fields} (h : SameFields (serverPolicy env ref) s s') {key : Text}
    (hKey : key ∈ (["id", "name", "enabled", "server_type", "status"] : List Text))
    (default : Value) : getOr s key default = getOr s' key default :=
  getOr_same (serverPolicy_reflexive env ref) h (serverPolicy_shows hKey) default

theorem orNext_related {S : Fields → Fields → Prop} {a b c d : List Fields}
    (h : List.Forall₂ S a b) (hNext : List.Forall₂ S c d) :
    List.Forall₂ S (orNext a c) (orNext b d) := by
  cases h with
  | nil => exact hNext
  | cons hHead hTail => exact .cons hHead hTail

theorem withId_related {l m : List Fields}
    (h : List.Forall₂ (SameFields (serverPolicy env ref)) l m) :
    SameResult (List.Forall₂ (SameFields (serverPolicy env ref))) (withId ref l) (withId ref m) := by
  have hSame : isDigitText ref ∧ l ≠ [] ↔ isDigitText ref ∧ m ≠ [] := by
    cases h with
    | nil => exact Iff.rfl
    | cons hHead hTail => simp
  unfold withId
  by_cases hId : isDigitText ref ∧ l ≠ []
  · rw [if_pos hId, if_pos (hSame.mp hId)]
    cases intOfDigits ref with
    | none => rfl
    | some n =>
      refine filter_same h fun s s' hs => ?_
      rw [PyJson.get, PyJson.get, server_same hs (by decide)]
  · rw [if_neg hId, if_neg fun h' => hId (hSame.mpr h')]
    exact .nil

theorem matching_related {l m : List Fields}
    (h : List.Forall₂ (SameFields (serverPolicy env ref)) l m) :
    SameResult (List.Forall₂ (SameFields (serverPolicy env ref))) (matching env ref l)
      (matching env ref m) := by
  refine bind_related (withId_related h) fun a b _ _ hab => ?_
  refine orNext_related hab (orNext_related ?_ ?_)
  · refine filter_same h fun s s' hs => ?_
    have hHost := getOr_related (serverPolicy_reflexive env ref) hs "host" (text [])
    unfold serverPolicy at hHost
    rw [if_pos rfl] at hHost
    rw [folded, folded, server_same hs (by decide), folded, folded, decide_eq_decide.mpr hHost]
  · refine filter_same h fun s s' hs => ?_
    rw [folded, folded, server_same hs (by decide)]

theorem choices_same {l m : List Fields}
    (h : List.Forall₂ (SameFields (serverPolicy env ref)) l m) : choices env l = choices env m := by
  unfold choices
  rw [map_same h fun s s' hs => by
    rw [PyJson.get, PyJson.get, server_same hs (by decide), PyJson.get, PyJson.get,
      server_same hs (by decide)]]

theorem chooseServer_related {l m a b : List Fields}
    (h : List.Forall₂ (SameFields (serverPolicy env ref)) l m)
    (hMatching : List.Forall₂ (SameFields (serverPolicy env ref)) a b) :
    SameResult (SameFields (serverPolicy env ref)) (chooseServer env ref l a)
      (chooseServer env ref m b) := by
  cases hMatching with
  | nil =>
    show Fault.raised _ = Fault.raised _
    rw [choices_same (List.forall₂_take 20 h)]
  | cons hHead hTail =>
    have hSeveral := choices_same (List.forall₂_take 10 (.cons hHead hTail))
    cases hTail with
    | nil => exact hHead
    | cons hNext hRest =>
      show Fault.raised _ = Fault.raised _
      rw [hSeveral]

theorem resolveServer_related {api api' : Backend} {reference : Text}
    (h : SameResult (InList (InDict (SameFields (serverPolicy env (strip reference)))))
      (api.get "/api/servers" []) (api'.get "/api/servers" [])) :
    SameResult (SameFields (serverPolicy env (strip reference)))
      (resolveServer env api reference) (resolveServer env api' reference) := by
  unfold resolveServer
  dsimp only
  split_ifs
  · rfl
  · rfl
  · refine bind_related h fun v w _ _ hvw => ?_
    refine bind_related (asList_related (.refl (serverPolicy_reflexive env _)) hvw _)
      fun l m _ _ hlm => ?_
    have hGpu : List.Forall₂ (SameFields (serverPolicy env (strip reference)))
        (l.filter isGpuServer) (m.filter isGpuServer) :=
      filter_same hlm fun s s' hs => by
        rw [isGpuServer, isGpuServer, server_same hs (by decide)]
    exact bind_related (matching_related hGpu) fun a b _ _ hab => chooseServer_related hGpu hab

theorem serverId_same {s s' : Fields} (h : SameFields (serverPolicy env ref) s s') :
    serverId s = serverId s' := by
  unfold serverId
  rcases lookup_same h "id" with ⟨hs, hs'⟩ | ⟨v, w, hs, hs', hvw⟩
  · rw [hs, hs']
  · rw [hs, hs', serverPolicy_shows (by decide) v w hvw]

theorem serverPublic_same (hStrict : env.strict = true) {s s' : Fields}
    (h : SameFields (serverPolicy env ref) s s') : serverPublic env s = serverPublic env s' := by
  unfold serverPublic
  rw [serverTable, if_pos hStrict, record_same (serverPolicy_reflexive env ref) h fun p hp key hKey =>
    serverPolicy_shows ((by decide : ∀ p ∈ identityTable, ∀ key ∈ p.2.keys,
      key ∈ (["id", "name", "enabled", "server_type", "status"] : List Text)) p hp key hKey)]

/-! ## The tools -/

section Tools

variable {api api' : Backend}

theorem row_shows {key : Text}
    (h : key ∈ (["server_id", "server_name", "enabled", "online", "status"] : List Text)) :
    (rowPolicy env).Shows key :=
  withGpus_shows h fun hGpus => absurd (hGpus ▸ h) (by decide)

theorem summarizeRow_same (hStrict : env.strict = true) {row row' : Fields}
    (h : SameFields (rowPolicy env) row row') : summarizeRow env row = summarizeRow env row' := by
  have hShown : record env rowTable row = record env rowTable row' :=
    record_same (withGpus_reflexive _ _) h fun p hp key hKey =>
      row_shows ((by decide : ∀ p ∈ rowTable, ∀ key ∈ p.2.keys,
        key ∈ (["server_id", "server_name", "enabled", "online", "status"] : List Text)) p hp key
          hKey)
  unfold summarizeRow
  refine bind_same (gpusOf_related (gpuPolicy_reflexive env) h) fun l m _ _ hlm => ?_
  rw [numbers_same hlm (by decide), numbers_same hlm (by decide), numbers_same hlm (by decide),
    numbers_same hlm (by decide), numbers_same hlm (by decide), hShown, hlm.length_eq,
    extended_same hStrict rowPlaceTable row row']

theorem connectionStatus_same (hStrict : env.strict = true) (hHealth : api.health = api'.health)
    (hMe : SameResult (InDict (SameFields (showing ["role"]))) (api.get "/api/auth/me" [])
      (api'.get "/api/auth/me" [])) : connectionStatus env api = connectionStatus env api' := by
  unfold connectionStatus
  rw [hHealth]
  refine bind_congr_right fun health => bind_same hMe fun v w _ _ hvw => ?_
  rcases hvw with rfl | ⟨d, e, rfl, rfl, hSame⟩
  · rfl
  · have hRole := getOr_same (showing_reflexive _) hSame
      (showing_shows (by decide : "role".toList ∈ _)) (text [])
    simp only [asDict, Option.elim_some, hRole, extended_same hStrict userTable d e]

theorem listServers_same (hStrict : env.strict = true) (includeDisabled : Bool)
    (h : SameResult (InList (InDict (SameFields (rowPolicy env))))
      (api.get "/api/metrics/cluster-gpus" []) (api'.get "/api/metrics/cluster-gpus" [])) :
    listServers env api includeDisabled = listServers env api' includeDisabled := by
  unfold listServers
  refine bind_same h fun v w _ _ hvw => ?_
  refine bind_same (asList_related (.refl (withGpus_reflexive _ _)) hvw _) fun l m _ _ hlm => ?_
  have hRows := mapM_same
    (filter_same hlm (p := fun row => includeDisabled || flag row "enabled") fun row row' hRow => by
      rw [flag_same (withGpus_reflexive _ _) hRow (row_shows (by decide))])
    fun row row' hRow => summarizeRow_same hStrict hRow
  rw [summarizeMatrix, summarizeMatrix, hRows]

/-- Scored GPUs: the scores are the same. -/
def SameScored (env : Env) (p q : PyFloat × Fields) : Prop :=
  p.1 = q.1 ∧ SameFields (gpuPolicy env) p.2 q.2

theorem withRisk_related {g g' : Fields} (h : SameFields (gpuPolicy env) g g') :
    SameResult (SameScored env) (withRisk g) (withRisk g') := by
  unfold withRisk
  rw [get_same_of_plain h (by decide)]
  refine map_related (sameResult_rfl (fun x => (rfl : x = x)) _) fun x y hxy => ?_
  exact ⟨hxy, h⟩

theorem privateScored_same (hStrict : env.strict = true) {l m : List (PyFloat × Fields)}
    (h : List.Forall₂ (SameScored env) l m) :
    (l.mapM fun p => (privacyGpuRecord env p.2).map object) =
      m.mapM fun p => (privacyGpuRecord env p.2).map object :=
  mapM_same h fun p q hpq => by rw [privacyGpuRecord_same hStrict hpq.2]

theorem analysis_count_same {d e : Fields} (h : SameFields (analysisPolicy env) d e) {key : Text}
    (hKey : key ∈ (["total_gpus", "idle_held_count", "high_risk_count"] : List Text)) :
    countOf d key = countOf e key := by
  have hGpus : key ≠ "gpus" := fun hGpus => absurd (hGpus ▸ hKey) (by decide)
  rw [countOf, countOf, PyJson.get, PyJson.get,
    getOr_same (withGpus_reflexive _ _) h (withGpus_shows hKey hGpus)]

theorem getRiskAnalysis_same (hStrict : env.strict = true) (minimumRisk : Int) (idleOnly : Bool)
    (limit : Int)
    (h : SameResult (InDict (SameFields (analysisPolicy env))) (api.get "/api/cluster/gpu-analysis" [])
      (api'.get "/api/cluster/gpu-analysis" [])) :
    getRiskAnalysis env api minimumRisk idleOnly limit =
      getRiskAnalysis env api' minimumRisk idleOnly limit := by
  unfold getRiskAnalysis
  split_ifs
  · rfl
  · rfl
  · refine bind_same h fun v w _ _ hvw => ?_
    refine bind_same (asPayload_related (.refl (withGpus_reflexive _ _)) hvw _)
      fun d e _ _ hde => ?_
    refine bind_same (gpusOf_related (gpuPolicy_reflexive env) hde) fun l m _ _ hlm => ?_
    refine bind_same (mapM_related hlm fun g g' hg => withRisk_related hg) fun a b _ _ hab => ?_
    have hListed := filter_same hab (p := isListed minimumRisk idleOnly) fun p q hpq => by
      rw [isListed, isListed, hpq.1, flag_same (gpuPolicy_reflexive env) hpq.2
        (gpuPolicy_shows (by decide) (by decide))]
    dsimp only
    rw [analysis_count_same hde (by decide), analysis_count_same hde (by decide),
      analysis_count_same hde (by decide), hListed.length_eq,
      privateScored_same hStrict (List.forall₂_take limit.toNat hListed)]

theorem flatten_related {S : Fields → Fields → Prop} {l m : List (List Fields)}
    (h : List.Forall₂ (List.Forall₂ S) l m) : List.Forall₂ S l.flatten m.flatten := by
  induction h with
  | nil => exact .nil
  | cons hHead _ ih => exact List.rel_append hHead ih

theorem analysis_related {v w : Value} (h : InDict (SameFields (analysisPolicy env)) v w) :
    SameFields (analysisPolicy env) ((asDict v).getD []) ((asDict w).getD []) := by
  rcases h with rfl | ⟨d, e, rfl, rfl, hSame⟩
  · exact .refl (withGpus_reflexive _ _) _
  · exact hSame

theorem clusterSummary_same (hStrict : env.strict = true)
    (hMatrix : SameResult (InList (InDict (SameFields (rowPolicy env))))
      (api.get "/api/metrics/cluster-gpus" []) (api'.get "/api/metrics/cluster-gpus" []))
    (hAnalysis : SameResult (InDict (SameFields (analysisPolicy env)))
      (api.get "/api/cluster/gpu-analysis" []) (api'.get "/api/cluster/gpu-analysis" [])) :
    clusterSummary env api = clusterSummary env api' := by
  have hRow := withGpus_reflexive (gpuPolicy env)
    ["server_id", "server_name", "enabled", "online", "status"]
  have hOnline : ∀ row row', SameFields (rowPolicy env) row row' →
      flag row "online" = flag row' "online" := fun row row' h =>
    flag_same hRow h (row_shows (by decide))
  unfold clusterSummary
  dsimp only
  refine bind_same hMatrix fun v w _ _ hvw => ?_
  refine bind_same (asList_related (.refl hRow) hvw _) fun rows rows' _ _ hRows => ?_
  have hEnabled := filter_same hRows (p := fun row => flag row "enabled") fun row row' h =>
    flag_same hRow h (row_shows (by decide))
  have hOn := filter_same hEnabled (p := fun row => flag row "online") hOnline
  have hOff := filter_same hEnabled (p := fun row => !flag row "online") fun row row' h => by
    rw [hOnline row row' h]
  refine bind_same (mapM_related hOn fun row row' h => gpusOf_related (gpuPolicy_reflexive env) h)
    fun l m _ _ hlm => ?_
  have hGpus := flatten_related hlm
  rw [numbers_same hGpus (by decide), numbers_same hGpus (by decide),
    numbers_same hGpus (by decide), numbers_same hGpus (by decide), hRows.length_eq,
    hEnabled.length_eq, hOn.length_eq, hOff.length_eq, hGpus.length_eq]
  refine bind_congr_right fun utils => bind_congr_right fun temps => bind_congr_right fun used =>
    bind_congr_right fun total => ?_
  refine bind_same hAnalysis fun v w _ _ hvw => ?_
  have hDict := analysis_related hvw
  refine bind_same (gpusOf_related (gpuPolicy_reflexive env) hDict) fun l m _ _ hlm => ?_
  refine bind_same (mapM_related hlm fun g g' hg => withRisk_related hg) fun a b _ _ hab => ?_
  have hPercents := mapM_same hGpus (f := fun g =>
    memoryPercent (PyJson.get g "mem_used_mb") (PyJson.get g "mem_total_mb")) fun g g' hg => by
      rw [get_same_of_plain hg (by decide), get_same_of_plain hg (by decide)]
  have hSorted := insertionSort_related (r := fun a b => riskier a b = true)
    (fun x y x' y' hx hy => by rw [riskier, riskier, hx.1, hy.1]) hab
  rw [hPercents, numbers_same hGpus (by decide), analysis_count_same hDict (by decide),
    analysis_count_same hDict (by decide),
    privateScored_same hStrict (List.forall₂_take 10 hSorted)]

/-! ### The tools about one server -/

variable {reference : Text}

theorem latest_shows {key : Text} (h : key ∈
    (["collected_at", "status", "error_code", "gpu_driver", "ssh_latency", "duration"] :
      List Text)) : (latestPolicy env).Shows key :=
  withGpus_shows h fun hGpus => absurd (hGpus ▸ h) (by decide)

theorem gpuWithProcesses_same (hStrict : env.strict = true) {g g' : Fields}
    (h : SameFields (gpuPolicy env) g g') : gpuWithProcesses env g = gpuWithProcesses env g' := by
  unfold gpuWithProcesses
  refine bind_same (processesOf_related h) fun l m _ _ hlm => ?_
  rw [gpuRecord_same h (by decide : PlainTable gpuTable), listedProcesses_same hStrict 100 hlm,
    hardwareFields_same hStrict h, hlm.length_eq]

theorem getGpuProcesses_same (hStrict : env.strict = true)
    (h : SameBackend env reference api api') :
    getGpuProcesses env api reference = getGpuProcesses env api' reference := by
  unfold getGpuProcesses
  refine bind_same (resolveServer_related h.servers) fun s s' _ _ hs => ?_
  rw [serverId_same hs, serverPublic_same hStrict hs]
  refine bind_congr_right fun id => ?_
  refine bind_same (h.latest id) fun v w _ _ hvw => ?_
  refine bind_same (asPayload_related (.refl (withGpus_reflexive _ _)) hvw _) fun d e _ _ hde => ?_
  refine bind_same (gpusOf_related (gpuPolicy_reflexive env) hde) fun l m _ _ hlm => ?_
  have hAt := getOr_same (withGpus_reflexive _ _) hde
    (latest_shows (by decide : "collected_at".toList ∈ _)) .null
  rw [mapM_same hlm fun g g' hg => gpuWithProcesses_same hStrict hg, PyJson.get, PyJson.get, hAt]

/-- The entries of the risk list that a GPU joins are related. -/
theorem riskOf_related {risks risks' : List Fields}
    (hRisks : List.Forall₂ (SameFields riskPolicy) risks risks') {g g' : Fields}
    (hJoin : SameJoin env risks risks' g g') :
    SameFields riskPolicy (riskOf env risks (str env (PyJson.get g "uuid")))
      (riskOf env risks' (str env (PyJson.get g' "uuid"))) := by
  have hReverse := List.forall₂_reverse_iff.mpr (forall₂_and hRisks hJoin)
  have hNamed := filter_same hReverse (p := fun r => truthy (PyJson.get r "uuid"))
    fun r r' hr => by
      have := getOr_related riskPolicy_reflexive hr.1 "uuid" .null
      unfold riskPolicy at this
      rwa [if_pos rfl] at this
  have hFound := find?_related hNamed
    (p := fun r => str env (PyJson.get r "uuid") = str env (PyJson.get g "uuid"))
    (q := fun r => str env (PyJson.get r "uuid") = str env (PyJson.get g' "uuid"))
    fun r r' hr => decide_eq_decide.mpr hr.2
  unfold riskOf
  generalize List.find? _ _ = a at hFound
  generalize List.find? _ _ = b at hFound
  cases hFound with
  | none => exact .nil
  | some hSame => exact hSame.1

theorem gpuWithRisk_same (hStrict : env.strict = true) {risks risks' : List Fields}
    (hRisks : List.Forall₂ (SameFields riskPolicy) risks risks') {g g' : Fields}
    (h : SameFields (gpuPolicy env) g g' ∧ SameJoin env risks risks' g g') :
    gpuWithRisk env risks g = gpuWithRisk env risks' g' := by
  have hRisk : record env riskTable (riskOf env risks (str env (PyJson.get g "uuid"))) =
      record env riskTable (riskOf env risks' (str env (PyJson.get g' "uuid"))) := by
    refine record_same riskPolicy_reflexive (riskOf_related hRisks h.2) ?_
    intro p hp key hKey v w hvw
    have hIn := (by decide : ∀ p ∈ riskTable, ∀ key ∈ p.2.keys, key ≠ "uuid".toList ∧
      key ∈ (["risk", "risk_label", "xid_events", "thermal_throttle_samples", "max_temp"] :
        List Text)) p hp key hKey
    unfold riskPolicy at hvw
    rw [if_neg hIn.1] at hvw
    exact hvw hIn.2
  rw [gpuWithRisk, gpuWithRisk, gpuSnapshot_same hStrict h.1, hRisk]

theorem risksOf_related {v w : Value} (h : InDict (SameFields (withGpus riskPolicy [])) v w) :
    SameResult (List.Forall₂ (SameFields riskPolicy)) (risksOf v) (risksOf w) := by
  rcases h with rfl | ⟨d, e, rfl, rfl, hSame⟩
  · exact sameResult_rfl (fun l => List.forall₂_same.mpr fun d _ => .refl riskPolicy_reflexive d) _
  · exact map_related (iterate_same (InDict.refl _) (gpus_related hSame (.array [])))
      fun l m hlm => dicts_same (.refl riskPolicy_reflexive) hlm

theorem getServerGpuInfo_same (hStrict : env.strict = true)
    (h : SameBackend env reference api api') :
    getServerGpuInfo env api reference = getServerGpuInfo env api' reference := by
  unfold getServerGpuInfo
  refine bind_same (resolveServer_related h.servers) fun s s' _ _ hs => ?_
  rw [serverId_same hs, serverPublic_same hStrict hs]
  refine bind_congr_right fun id => ?_
  refine bind_same (h.latest id) fun v w hv hw hvw => ?_
  refine bind_same (asPayload_related (.refl (withGpus_reflexive _ _)) hvw _)
    fun d e hd he hde => ?_
  refine bind_same (h.risk id) fun r r' hr hr' hrr => ?_
  refine bind_same (risksOf_related hrr) fun risks risks' hRisksOf hRisksOf' hRisks => ?_
  refine bind_same (gpusOf_related (gpuPolicy_reflexive env) hde) fun l m hl hm hlm => ?_
  have hPayload : ∀ {x : Value} {f : Fields}, asPayload x "latest metric" = .ok f →
      x = .object f := by
    intro x f hx
    cases x <;> simp_all [asPayload]
  have hJoined := h.joined id d e r r' l m risks risks' (hPayload hd ▸ hv) (hPayload he ▸ hw) hr hr'
    hl hm hRisksOf hRisksOf'
  have hMetric : record env metricTable d = record env metricTable e :=
    record_same (withGpus_reflexive _ _) hde fun p hp key hKey =>
      latest_shows ((by decide : ∀ p ∈ metricTable, ∀ key ∈ p.2.keys,
        key ∈ (["collected_at", "status", "error_code", "gpu_driver", "ssh_latency", "duration"] :
          List Text)) p hp key hKey)
  rw [mapM_same_of (forall₂_and hlm hJoined) fun g g' hg => gpuWithRisk_same hStrict hRisks hg,
    hMetric, extended_same hStrict metricPlaceTable d e]

theorem thinnedRows_related {S : Fields → Fields → Prop} {l m : List Fields}
    (h : List.Forall₂ S l m) (maxPoints : Int) :
    List.Forall₂ S (thinnedRows l maxPoints) (thinnedRows m maxPoints) := by
  unfold thinnedRows
  rw [h.length_eq]
  split
  · generalize Mcp.indices m.length maxPoints.toNat = places
    induction places with
    | nil => exact .nil
    | cons i places ih =>
      have hPlace : Option.Rel S l[i.toNat]? m[i.toNat]? := getElem?_related h i.toNat
      rw [List.filterMap_cons, List.filterMap_cons]
      generalize l[i.toNat]? = a at hPlace
      generalize m[i.toNat]? = b at hPlace
      cases hPlace with
      | none => exact ih
      | some hSame => exact .cons hSame ih
  · exact h

theorem getGpuHistory_same (hStrict : env.strict = true) (h : SameBackend env reference api api')
    (hours maxPoints : Int) :
    getGpuHistory env api reference hours maxPoints =
      getGpuHistory env api' reference hours maxPoints := by
  unfold getGpuHistory
  split_ifs
  · rfl
  · rfl
  · refine bind_same (resolveServer_related h.servers) fun s s' _ _ hs => ?_
    rw [serverId_same hs, serverPublic_same hStrict hs]
    refine bind_congr_right fun id => ?_
    refine bind_same (h.history id _) fun v w _ _ hvw => ?_
    refine bind_same (asList_related (.refl (showing_reflexive _)) hvw _) fun l m _ _ hlm => ?_
    have hRows := thinnedRows_related hlm maxPoints
    have hPoint : ∀ {row row' : Fields}, SameFields pointPolicy row row' → ∀ key,
        key ∈ (["gpu_util", "gpu_temp", "gpu_power"] : List Text) →
        PyJson.get row key = PyJson.get row' key := fun hRow key hKey =>
      getOr_same (showing_reflexive _) hRow (showing_shows ((by decide :
        ∀ key ∈ (["gpu_util", "gpu_temp", "gpu_power"] : List Text), key ∈ _) key hKey)) .null
    dsimp only
    rw [mapM_same hRows (f := record env pointTable) fun row row' hRow =>
        record_same (showing_reflexive _) hRow fun p hp key hKey => showing_shows ((by decide :
          ∀ p ∈ pointTable, ∀ key ∈ p.2.keys, key ∈ _) p hp key hKey),
      mapM_same hRows (f := fun row => rounded (PyJson.get row "gpu_util") 1) fun row row' hRow => by
        rw [hPoint hRow _ (by decide)],
      mapM_same hRows (f := fun row => rounded (PyJson.get row "gpu_temp") 1) fun row row' hRow => by
        rw [hPoint hRow _ (by decide)],
      mapM_same hRows (f := fun row => rounded (PyJson.get row "gpu_power") 1) fun row row' hRow => by
        rw [hPoint hRow _ (by decide)]]

theorem resolveOptional_related (h : SameBackend env reference api api') :
    SameResult (Option.Rel (SameFields (serverPolicy env (strip reference))))
      (resolveOptional env api reference) (resolveOptional env api' reference) := by
  unfold resolveOptional
  split
  · exact Option.Rel.none
  · exact map_related (resolveServer_related h.servers) fun _ _ hs => .some hs

theorem shownEvent_same (hStrict : env.strict = true) {d e : Fields} (h : SameEvent env d e) :
    shownEvent env d = shownEvent env e := by
  have hShown : record env eventTable d = record env eventTable e :=
    record_same (showing_reflexive _) h.1 fun p hp key hKey => showing_shows ((by decide :
      ∀ p ∈ eventTable, ∀ key ∈ p.2.keys, key ∈ _) p hp key hKey)
  rw [shownEvent, shownEvent, hShown, extended_same hStrict eventPersonTable d e]

theorem getGpuAlerts_same (hStrict : env.strict = true) (h : SameBackend env reference api api')
    (openOnly : Bool) (limit : Int) :
    getGpuAlerts env api reference openOnly limit =
      getGpuAlerts env api' reference openOnly limit := by
  unfold getGpuAlerts
  split
  · rfl
  · refine bind_same (resolveOptional_related h) fun s s' _ _ hs => ?_
    have hParam : serverParam s = serverParam s' := by
      cases hs with
      | none => rfl
      | some hSame => rw [serverParam, serverParam, serverId_same hSame]
    have hServer : s.elim (.ok .null) (serverPublic env) =
        s'.elim (.ok .null) (serverPublic env) := by
      cases hs with
      | none => rfl
      | some hSame => exact serverPublic_same hStrict hSame
    rw [hParam, hServer]
    refine bind_congr_right fun more => bind_same (h.events _) fun v w _ _ hvw => ?_
    refine bind_same (asList_related (fun d => ⟨.refl (showing_reflexive _) d, rfl⟩) hvw _)
      fun l m _ _ hlm => ?_
    rw [mapM_same (filter_same hlm fun d e hde => hde.2) fun d e hde => shownEvent_same hStrict hde]

end Tools

/-- In the strict mode a tool tells nothing of what is to be hidden. -/
theorem strict_same (hStrict : env.strict = true) (call : Call) {api api' : Backend}
    (h : SameBackend env call.reference api api') : call.run env api = call.run env api' := by
  cases call with
  | connectionStatus => exact connectionStatus_same hStrict h.health h.me
  | listServers includeDisabled => exact listServers_same hStrict includeDisabled h.matrix
  | clusterSummary => exact clusterSummary_same hStrict h.matrix h.analysis
  | getServerGpuInfo server => exact getServerGpuInfo_same hStrict h
  | getGpuHistory server hours maxPoints => exact getGpuHistory_same hStrict h hours maxPoints
  | getGpuProcesses server => exact getGpuProcesses_same hStrict h
  | getRiskAnalysis minimumRisk idleOnly limit =>
    exact getRiskAnalysis_same hStrict minimumRisk idleOnly limit h.analysis
  | getGpuAlerts server openOnly limit => exact getGpuAlerts_same hStrict h openOnly limit

/-! ## Two monitors -/

/-- One server with one GPU, on which `user` has one process. -/
def monitorOf (host user : Text) : Backend where
  health := .ok .null
  get path _ :=
    if path = "/api/servers" then
      .ok (.array [object [("id", .int 1), ("name", text "gpu"), ("host", text host)]])
    else if path = serverPath 1 "/latest" then
      .ok (object [("gpus", .array [object [("uuid", text "GPU-1"),
        ("processes", .array [object [("pid", .int 7), ("user", text user)]])]])])
    else .error .keyError

def strictEnv : Env where
  strict := true
  hmacKey := "a key that has thirty-two characters"
  hmac key raw := raw ++ key
  casefold t := t
  upperChar c := [c.toUpper]
  repr _ := []
  fromIso _ := none
  now := 0

theorem monitorOf_of_ne (host user : Text) {path : Text} (params : Fields)
    (h : path ≠ "/api/servers") (h' : path ≠ serverPath 1 "/latest") :
    (monitorOf host user).get path params = .error .keyError := (if_neg h).trans (if_neg h')

theorem take_serverPath (id : Int) (rest : Text) :
    (serverPath id rest).take 6 = ("/api/m" : Text) := by
  unfold serverPath
  rw [List.append_assoc]
  exact List.take_append_of_le_length (by decide)

theorem serverPath_ne (id : Int) (rest : Text) : serverPath id rest ≠ "/api/servers" := by
  intro h
  have hTake := take_serverPath id rest
  rw [h] at hTake
  exact absurd hTake (by decide)

theorem historyPath_ne (id : Int) : serverPath id "/history" ≠ serverPath 1 "/latest" := by
  intro h
  have hLast : (serverPath id "/history").getLast? = some 'y' :=
    List.getLast?_append_of_ne_nil _ (by decide)
  have hLast' : (serverPath 1 "/latest").getLast? = some 't' :=
    List.getLast?_append_of_ne_nil _ (by decide)
  rw [h, hLast'] at hLast
  exact absurd hLast (by decide)

theorem riskPath_ne (id : Int) :
    riskPath id ≠ "/api/servers" ∧ riskPath id ≠ serverPath 1 "/latest" := by
  have hTake : ∀ n ≤ 13, (riskPath id).take n = ("/api/servers/" : Text).take n := by
    intro n hn
    unfold riskPath
    rw [List.append_assoc]
    exact List.take_append_of_le_length hn
  refine ⟨fun h => ?_, fun h => ?_⟩
  · have hPath := hTake 13 le_rfl
    rw [h] at hPath
    exact absurd hPath (by decide)
  · have hPath := hTake 6 (by omega)
    rw [h, take_serverPath] at hPath
    exact absurd hPath (by decide)

theorem monitorOf_latest (host user : Text) (params : Fields) :
    (monitorOf host user).get (serverPath 1 "/latest") params =
      .ok (object [("gpus", .array [object [("uuid", text "GPU-1"),
        ("processes", .array [object [("pid", .int 7), ("user", text user)]])]])]) := by
  unfold monitorOf
  dsimp only
  rw [if_neg (serverPath_ne 1 _), if_pos rfl]

theorem latest_related (host host' user user' : Text) (params : Fields) :
    SameResult (InDict (SameFields (latestPolicy env)))
      ((monitorOf host user).get (serverPath 1 "/latest") params)
      ((monitorOf host' user').get (serverPath 1 "/latest") params) := by
  have hProcess : InList (InDict (SameFields processPolicy))
      (.array [object [("pid", .int 7), ("user", text user)]])
      (.array [object [("pid", .int 7), ("user", text user')]]) := by
    refine .inr ⟨_, _, rfl, rfl, .cons (.inr ⟨_, _, rfl, rfl, ?_⟩) .nil⟩
    have hHidden : ("user" : Text) ∉ (["pid", "mem_mb", "gpu_memory_mb"] : List Text) := by decide
    exact .cons ⟨rfl, fun _ => rfl⟩ (.cons ⟨rfl, fun h => absurd h hHidden⟩ .nil)
  have hProcesses : gpuPolicy env "processes"
      (.array [object [("pid", .int 7), ("user", text user)]])
      (.array [object [("pid", .int 7), ("user", text user')]]) := by
    unfold gpuPolicy
    rwa [if_neg (by decide), if_pos rfl]
  rw [monitorOf_latest, monitorOf_latest]
  refine .inr ⟨_, _, rfl, rfl, .cons ⟨rfl, ?_⟩ .nil⟩
  unfold latestPolicy withGpus
  rw [if_pos rfl]
  refine .inr ⟨_, _, rfl, rfl, .cons (.inr ⟨_, _, rfl, rfl, ?_⟩) .nil⟩
  exact .cons ⟨rfl, gpuPolicy_reflexive _ _ _⟩ (.cons ⟨rfl, hProcesses⟩ .nil)

/-- Neither host is the reference. -/
theorem monitorOf_same {host host' reference : Text} (user user' : Text)
    (h : strip reference ≠ host) (h' : strip reference ≠ host') :
    SameBackend strictEnv reference (monitorOf host user) (monitorOf host' user') := by
  have hOther : ∀ {S : Value → Value → Prop} {path : Text} (params : Fields),
      path ≠ "/api/servers" → path ≠ serverPath 1 "/latest" →
      SameResult S ((monitorOf host user).get path params)
        ((monitorOf host' user').get path params) := by
    intro S path params hServers hLatest
    rw [monitorOf_of_ne host user params hServers hLatest,
      monitorOf_of_ne host' user' params hServers hLatest]
    rfl
  refine ⟨rfl, hOther _ (by decide) (by decide), ?_, hOther _ (by decide) (by decide),
    hOther _ (by decide) (by decide), fun id => ?_,
    fun id => hOther _ (riskPath_ne id).1 (riskPath_ne id).2, ?_,
    fun id params => hOther _ (serverPath_ne id _) (historyPath_ne id),
    fun params => hOther _ (by decide) (by decide)⟩
  · refine .inr ⟨_, _, rfl, rfl, .cons (.inr ⟨_, _, rfl, rfl, ?_⟩) .nil⟩
    refine .cons ⟨rfl, serverPolicy_reflexive _ _ _ _⟩
      (.cons ⟨rfl, serverPolicy_reflexive _ _ _ _⟩ (.cons ⟨rfl, ?_⟩ .nil))
    exact iff_of_false h h'
  · by_cases hPath : serverPath id "/latest" = serverPath 1 "/latest"
    · rw [hPath]
      exact latest_related ..
    · exact hOther _ (serverPath_ne id _) hPath
  · intro id latest latest' risk risk' gpus gpus' risks risks' _ _ hRisk
    rw [monitorOf_of_ne host user _ (riskPath_ne id).1 (riskPath_ne id).2] at hRisk
    cases hRisk

theorem strict_same_of_users :
    Call.run strictEnv (monitorOf "10.0.0.1" "ann") (.getGpuProcesses "gpu") =
      Call.run strictEnv (monitorOf "10.0.0.2" "bob") (.getGpuProcesses "gpu") :=
  strict_same rfl _ (monitorOf_same _ _ (by decide) (by decide))

end GpuMon.McpTools

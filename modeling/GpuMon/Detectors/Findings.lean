import GpuMon.Detectors.IdleGpus
import GpuMon.Detectors.OpenTexts
import GpuMon.Library.PyIp

/-!
# Detectors that look at the items of a report

Four detectors go through the items of a report (the GPUs of a sample, the NVMe devices or the
arrays of a slow sample) and open the event of an item that has a problem and close the event of
one that has none. `Finding` is what they find about an item, `settle` what they do about it.

* `openTexts_settleAll`: on the texts of the open events, this is `settleText`.
* `separated_of_plain`: when no item is found by the event of another one.
* `settled_report`: if no item is found by the event of another one, every item of a report has
  one open event after it, or none, as the last finding about it says.
-/


namespace GpuMon.Detectors

open PyText

/-! ## Findings -/

/-- The arguments of `_fire` that the item decides. -/
structure Alarm where
  message : Text
  value : ℚ := 0
  threshold : ℚ := 0
  deriving DecidableEq

structure Finding where
  key : Text
  alarm : Option Alarm
  deriving DecidableEq

/-- The end of the loop body: `_fire` if there is a problem, `_recover` if there is none. -/
def settle (env : Environment) (detector : Text) (serverId : Nat) (serverName : Text)
    (events : Table AlertEvent) (f : Finding) : Table AlertEvent :=
  match f.alarm with
  | some alarm =>
    fire env events detector serverId serverName alarm.message alarm.value alarm.threshold f.key
  | none => recover env events detector serverId f.key

/-! ## GPUs -/

/-- What the detectors read of a GPU. -/
structure GpuHealth where
  index : Option Int := none
  uuid : Option Text := none
  temperature : Option ℚ := none
  throttleReasons : List Text := []
  eccSupported : Bool := false
  eccUncorrectedVolatile : Option Int := none
  eccUncorrectedTotal : Option Int := none
  deriving DecidableEq

variable (numberText : ℚ → Text)

/-- The reasons that `_detect_gpu_throttle` picks out. -/
def thermal (g : GpuHealth) : List Text :=
  g.throttleReasons.filter fun r => contains "THERMAL" r || r = "HW_SLOWDOWN"

def throttleMessage (g : GpuHealth) : Text :=
  "GPU ".toList ++ indexText g.index ++ " 热降频中（".toList ++ join "," (thermal g) ++ "，".toList ++
    ((g.temperature.map numberText).getD "None") ++ "°C）".toList

def throttleFinding (g : GpuHealth) : Finding where
  key := g.uuid.getD []
  alarm := if thermal g = [] then none else some ⟨throttleMessage numberText g, g.temperature.getD 0, 0⟩

/-- `_detect_gpu_throttle`; `name` is `m.hostname or server.name`. -/
def detectGpuThrottle (env : Environment) (server : Server) (name : Text) (gpus : List GpuHealth)
    (events : Table AlertEvent) : Table AlertEvent :=
  (gpus.map (throttleFinding numberText)).foldl
    (settle env "GPU_THERMAL_THROTTLE" server.id name) events

/-- The `ecc_uncorrected_baseline` of the GPUs that have a baseline row. -/
abbrev EccBaseline := Dict Text (Option Int)

def GpuHealth.volatile (g : GpuHealth) : Int := g.eccUncorrectedVolatile.getD 0

def GpuHealth.total (g : GpuHealth) : Int := g.eccUncorrectedTotal.getD 0

/-- The part about the counter: the baseline afterwards, and the growth if there is any. -/
def compareTotal (baseline : EccBaseline) (g : GpuHealth) : EccBaseline × Option Int :=
  let uuid := g.uuid.getD []
  if uuid = [] then (baseline, none)
  else match baseline.get? uuid with
    | none => (baseline, none)
    | some none => (baseline.set uuid (some g.total), none)
    | some (some stored) =>
      if stored < g.total then (baseline.set uuid (some g.total), some (g.total - stored))
      else (baseline, none)

def eccProblems (volatile : Int) (growth : Option Int) : List Text :=
  (if 0 < volatile then ["本次启动新增 ".toList ++ intText volatile ++ " 条".toList] else []) ++
    (growth.map fun n => "累计新增 ".toList ++ intText n ++ " 条".toList).toList

def eccMessage (g : GpuHealth) (problems : List Text) : Text :=
  "GPU ".toList ++ indexText g.index ++ " 不可纠正 ECC 错误（".toList ++ join "，" problems ++
    "）——硬件故障风险".toList

def eccKey (g : GpuHealth) : Text :=
  if g.uuid.getD [] = [] then "idx".toList ++ indexText g.index else g.uuid.getD []

def eccFinding (g : GpuHealth) (growth : Option Int) : Finding where
  key := eccKey g
  alarm :=
    let problems := eccProblems g.volatile growth
    if problems = [] then none else some ⟨eccMessage g problems, g.volatile, 0⟩

/-- What the loop of `_detect_gpu_ecc` finds, and the baseline it leaves. -/
def eccFindings : EccBaseline → List GpuHealth → EccBaseline × List Finding
  | baseline, [] => (baseline, [])
  | baseline, g :: gpus =>
    if !g.eccSupported then eccFindings baseline gpus
    else
      let (baseline', growth) := compareTotal baseline g
      let (last, rest) := eccFindings baseline' gpus
      (last, eccFinding g growth :: rest)

/-- `_detect_gpu_ecc`. -/
def detectGpuEcc (env : Environment) (server : Server) (name : Text) (gpus : List GpuHealth)
    (baseline : EccBaseline) (events : Table AlertEvent) : EccBaseline × Table AlertEvent :=
  let (baseline', findings) := eccFindings baseline gpus
  (baseline', findings.foldl (settle env "GPU_ECC_UNCORRECTED" server.id name) events)

/-! ## Devices and arrays of a slow sample -/

structure NvmeDevice where
  device : Option Text := none
  criticalWarning : Option Nat := none
  availableSpare : Option Int := none
  availableSpareThreshold : Option Int := none
  mediaErrors : Option Int := none
  percentageUsed : Option Int := none
  deriving DecidableEq

def NvmeDevice.dev (d : NvmeDevice) : Text := d.device.getD "?"

def nvmeProblems (d : NvmeDevice) : List Text :=
  (match d.criticalWarning with
    | some warning =>
      if warning ≠ 0 then ["critical_warning=0x".toList ++ PyIp.hexText warning] else []
    | none => []) ++
  (match d.availableSpare, d.availableSpareThreshold with
    | some spare, some threshold =>
      if spare ≤ threshold then
        ["可用备用空间 ".toList ++ intText spare ++ "% ≤ 阈值 ".toList ++ intText threshold ++
          "%".toList]
      else []
    | _, _ => []) ++
  (match d.mediaErrors with
    | some errors => if errors ≠ 0 then ["介质错误 ".toList ++ intText errors ++ " 次".toList] else []
    | none => []) ++
  (match d.percentageUsed with
    | some used => if 90 ≤ used then ["寿命已用 ".toList ++ intText used ++ "%".toList] else []
    | none => [])

def nvmeFinding (d : NvmeDevice) : Finding where
  key := d.dev
  alarm :=
    let problems := nvmeProblems d
    if problems = [] then none else some { message := d.dev ++ ": ".toList ++ join "; " problems }

/-- `_detect_nvme`; no slow sample and one without devices are alike. -/
def detectNvme (env : Environment) (server : Server) (latest : Option (List NvmeDevice))
    (events : Table AlertEvent) : Table AlertEvent :=
  match latest with
  | none => events
  | some devices =>
    (devices.map nvmeFinding).foldl (settle env "NVME_HEALTH" server.id server.name) events

def raidFinding (arr : RaidArray) : Finding where
  key := arr.name
  alarm := if raidDegraded arr then some { message := raidMessage arr } else none

/-- `_detect_raid` settles what it finds about each array. -/
theorem detectRaid_eq (env : Environment) (server : Server) (latest : Option Mdraid)
    (events : Table AlertEvent) : detectRaid env server latest events =
      (((latest.map Mdraid.arrays).getD []).map raidFinding).foldl
        (settle env "RAID_DEGRADED" server.id server.name) events := by
  have hTurn (events : Table AlertEvent) (arr : RaidArray) :
      settle env "RAID_DEGRADED" server.id server.name events (raidFinding arr) =
        detectRaidArray env server events arr := by
    unfold settle raidFinding detectRaidArray
    split <;> rename_i hAlarm <;> split at hAlarm <;> cases hAlarm <;> simp_all
  cases latest with
  | none => rfl
  | some mdraid =>
    change mdraid.arrays.foldl (detectRaidArray env server) events = _
    rw [Option.map_some, Option.getD_some, List.foldl_map]
    exact List.foldl_ext _ _ _ fun events arr _ => (hTurn events arr).symm

/-! ## Texts of the open events -/

/-- `settle` on the texts of the open events. -/
def settleText (texts : List Text) (f : Finding) : List Text :=
  match f.alarm with
  | some alarm => fireText f.key alarm.message texts
  | none => texts.eraseP (matchesKey f.key)

theorem openTexts_settle (env : Environment) (detector : Text) (serverId : Nat) (serverName : Text)
    (events : Table AlertEvent) (f : Finding) :
    openTexts (settle env detector serverId serverName events f) detector serverId =
      settleText (openTexts events detector serverId) f := by
  unfold settle settleText
  split
  · exact openTexts_fire
  · exact openTexts_recover

theorem openTexts_settleAll (env : Environment) (detector : Text) (serverId : Nat)
    (serverName : Text) (events : Table AlertEvent) (findings : List Finding) :
    openTexts (findings.foldl (settle env detector serverId serverName) events) detector serverId =
      findings.foldl settleText (openTexts events detector serverId) := by
  induction findings generalizing events with
  | nil => rfl
  | cons f findings ih => rw [List.foldl_cons, ih, openTexts_settle, List.foldl_cons]

/-- Whether the last that was found about a key is a problem. -/
def alarmed (findings : List Finding) (key : Text) : Bool :=
  findings.foldl (fun on f => if f.key = key then f.alarm.isSome else on) false

theorem alarmed_concat (findings : List Finding) (f : Finding) (key : Text) :
    alarmed (findings ++ [f]) key = if f.key = key then f.alarm.isSome else alarmed findings key := by
  rw [alarmed, List.foldl_append]
  rfl

/-- No item is found by the event of another one. -/
def Separated (findings : List Finding) : Prop :=
  ∀ f ∈ findings, ∀ g ∈ findings, g.key ≠ f.key → ∀ alarm, g.alarm = some alarm →
    ¬Confused f.key g.key alarm.message

theorem Separated.left {findings more : List Finding} (h : Separated (findings ++ more)) :
    Separated findings :=
  fun f hf g hg => h f (List.mem_append_left _ hf) g (List.mem_append_left _ hg)

/-- Plain keys that differ in more than case are separated by messages without a bracket. -/
theorem separated_of_plain {findings : List Finding}
    (hKeys : ∀ f ∈ findings, PlainKey f.key ∧ f.key ≠ [])
    (hCase : ∀ f ∈ findings, ∀ g ∈ findings, f.key.map Char.toLower = g.key.map Char.toLower →
      f.key = g.key)
    (hMessages : ∀ f ∈ findings, ∀ alarm, f.alarm = some alarm → '[' ∉ alarm.message) :
    Separated findings := by
  intro f hf g hg hne alarm hAlarm hConfused
  obtain ⟨hPlain, hNil⟩ := hKeys f hf
  obtain ⟨hPlain', hNil'⟩ := hKeys g hg
  rcases (confused_plain_iff hPlain hNil hPlain' hNil').mp hConfused with hLower | hInside
  · exact hne (hCase f hf g hg hLower).symm
  · obtain ⟨a, w, b, hMessage, hLike⟩ := hInside
    obtain ⟨inner, rfl, -⟩ := like_keyText_iff.mp hLike
    refine hMessages g hg alarm hAlarm ?_
    rw [hMessage]
    exact List.mem_append_left _ (List.mem_append_right _ List.mem_cons_self)

/-- The open texts after some findings: each is the message of an alarm among them, and a key has
at most one, and none if the last that was found about it is no problem. -/
structure Settled (findings : List Finding) (texts : List Text) : Prop where
  source : ∀ t ∈ texts, ∃ f ∈ findings, ∃ alarm, f.alarm = some alarm ∧
    t = keyedMessage f.key alarm.message
  count : ∀ f ∈ findings, texts.countP (matchesKey f.key) ≤ (alarmed findings f.key).toNat

/-- `f` is settled exactly. -/
def Exact (findings : List Finding) (texts : List Text) (key : Text) : Prop :=
  texts.countP (matchesKey key) = (alarmed findings key).toNat

theorem settled_nil : Settled [] [] := ⟨nofun, nofun⟩

/-- Events may be closed by someone else. -/
theorem Settled.sublist {findings : List Finding} {texts texts' : List Text}
    (h : Settled findings texts) (hSub : texts'.Sublist texts) : Settled findings texts' where
  source := fun t ht => h.source t (hSub.subset ht)
  count := fun f hf => (hSub.countP_le).trans (h.count f hf)

section Turn

variable {findings : List Finding} {texts : List Text} {f : Finding}

theorem countP_eraseP_own {p : Text → Bool} {texts : List Text} (h : texts.countP p ≤ 1) :
    (texts.eraseP p).countP p = 0 := by
  by_cases hAny : ∃ t ∈ texts, p t = true
  · obtain ⟨t, ht, hp⟩ := hAny
    obtain ⟨a, before, after, hBefore, ha, hSplit, hErase⟩ := List.exists_of_eraseP ht hp
    rw [hErase]
    rw [hSplit, List.countP_append, List.countP_cons_of_pos ha] at h
    rw [List.countP_append]
    omega
  · push Not at hAny
    rw [List.eraseP_of_forall_not hAny]
    exact List.countP_eq_zero.mpr hAny

theorem countP_eraseP_other {p q : Text → Bool} {texts : List Text}
    (h : ∀ t ∈ texts, p t = true → q t = false) : (texts.eraseP p).countP q = texts.countP q := by
  by_cases hAny : ∃ t ∈ texts, p t = true
  · obtain ⟨t, ht, hp⟩ := hAny
    obtain ⟨a, before, after, hBefore, ha, hSplit, hErase⟩ := List.exists_of_eraseP ht hp
    have hOther : q a = false := h a (hSplit ▸ List.mem_append_right _ List.mem_cons_self) ha
    rw [hErase, hSplit, List.countP_append, List.countP_append,
      List.countP_cons_of_neg (by simp [hOther])]
  · push Not at hAny
    rw [List.eraseP_of_forall_not hAny]

/-- The texts of one key are not those of another. -/
theorem Settled.other (h : Settled findings texts) (hSep : Separated (findings ++ [f]))
    {g : Finding} (hg : g ∈ findings ++ [f]) (hne : f.key ≠ g.key) :
    ∀ t ∈ texts, matchesKey f.key t = true → matchesKey g.key t = false := by
  intro t ht hOwn
  obtain ⟨x, hx, alarm, hAlarm, rfl⟩ := h.source t ht
  have hx' : x ∈ findings ++ [f] := List.mem_append_left _ hx
  have hf : f ∈ findings ++ [f] := List.mem_append_right _ List.mem_cons_self
  rw [matchesKey_keyedMessage_iff] at hOwn
  have hSame : x.key = f.key := by
    by_contra hDiffer
    exact hSep f hf x hx' hDiffer alarm hAlarm hOwn
  rw [Bool.eq_false_iff, Ne, matchesKey_keyedMessage_iff]
  exact hSep g hg x hx' (hSame ▸ hne) alarm hAlarm

theorem Settled.count_le_one (h : Settled findings texts) (hSep : Separated (findings ++ [f])) :
    texts.countP (matchesKey f.key) ≤ 1 := by
  by_cases hKnown : ∃ g ∈ findings, g.key = f.key
  · obtain ⟨g, hg, hKey⟩ := hKnown
    exact hKey ▸ (h.count g hg).trans (Bool.toNat_le _)
  · push Not at hKnown
    have hNone : texts.countP (matchesKey f.key) = 0 := by
      refine List.countP_eq_zero.mpr fun t ht => ?_
      obtain ⟨x, hx, alarm, hAlarm, rfl⟩ := h.source t ht
      rw [matchesKey_keyedMessage_iff]
      exact hSep f (List.mem_append_right _ List.mem_cons_self) x (List.mem_append_left _ hx)
        (hKnown x hx) alarm hAlarm
    omega

/-- One finding settles its own key exactly. -/
theorem exact_own (h : Settled findings texts) (hSep : Separated (findings ++ [f])) :
    Exact (findings ++ [f]) (settleText texts f) f.key := by
  have hOne := h.count_le_one hSep
  unfold Exact settleText
  rw [alarmed_concat, if_pos rfl]
  split
  · rename_i alarm hAlarm
    rw [hAlarm, fireText]
    split
    · rename_i hAny
      obtain ⟨t, ht, hMatch⟩ := List.any_eq_true.mp hAny
      have hPos : 0 < texts.countP (matchesKey f.key) := List.countP_pos_iff.mpr ⟨t, ht, hMatch⟩
      change _ = 1
      omega
    · rename_i hNone
      have hZero : texts.countP (matchesKey f.key) = 0 :=
        List.countP_eq_zero.mpr fun t ht hMatch => hNone (List.any_eq_true.mpr ⟨t, ht, hMatch⟩)
      rw [List.countP_append, hZero, List.countP_singleton, if_pos (matchesKey_self _ _)]
      rfl
  · rename_i hAlarm
    rw [hAlarm]
    exact countP_eraseP_own hOne

/-- One finding leaves the counts of the other keys. -/
theorem count_other (h : Settled findings texts) (hSep : Separated (findings ++ [f]))
    {g : Finding} (hg : g ∈ findings) (hne : f.key ≠ g.key) :
    (settleText texts f).countP (matchesKey g.key) = texts.countP (matchesKey g.key) := by
  have hg' : g ∈ findings ++ [f] := List.mem_append_left _ hg
  unfold settleText
  split
  · rename_i alarm hAlarm
    unfold fireText
    split
    · rfl
    · have hNot : matchesKey g.key (keyedMessage f.key alarm.message) = false := by
        rw [Bool.eq_false_iff, Ne, matchesKey_keyedMessage_iff]
        exact hSep g hg' f (List.mem_append_right _ List.mem_cons_self) hne alarm hAlarm
      rw [List.countP_append, List.countP_singleton, hNot]
      rfl
  · exact countP_eraseP_other (h.other hSep hg' hne)

theorem Settled.turn (h : Settled findings texts) (hSep : Separated (findings ++ [f])) :
    Settled (findings ++ [f]) (settleText texts f) where
  source := by
    intro t ht
    have hCases : t ∈ texts ∨ ∃ alarm, f.alarm = some alarm ∧ t = keyedMessage f.key alarm.message := by
      unfold settleText at ht
      split at ht
      · rename_i alarm hAlarm
        unfold fireText at ht
        split at ht
        · exact .inl ht
        · rcases List.mem_append.mp ht with ht | ht
          · exact .inl ht
          · exact .inr ⟨alarm, hAlarm, List.mem_singleton.mp ht⟩
      · exact .inl (List.eraseP_subset ht)
    rcases hCases with ht | ⟨alarm, hAlarm, hText⟩
    · obtain ⟨g, hg, hRest⟩ := h.source t ht
      exact ⟨g, List.mem_append_left _ hg, hRest⟩
    · exact ⟨f, List.mem_append_right _ List.mem_cons_self, alarm, hAlarm, hText⟩
  count := by
    intro g hg
    by_cases hKey : f.key = g.key
    · rw [← hKey]
      exact le_of_eq (exact_own h hSep)
    · rcases List.mem_append.mp hg with hg | hg
      · rw [count_other h hSep hg hKey, alarmed_concat, if_neg hKey]
        exact h.count g hg
      · exact absurd (congrArg Finding.key (List.mem_singleton.mp hg)).symm hKey

end Turn

/-- After a report every item of it is settled exactly. -/
theorem settled_report {findings report : List Finding} {texts : List Text}
    (h : Settled findings texts) (hSep : Separated (findings ++ report)) :
    Settled (findings ++ report) (report.foldl settleText texts) ∧
      ∀ f ∈ report, Exact (findings ++ report) (report.foldl settleText texts) f.key := by
  induction report using List.reverseRecOn with
  | nil =>
    rw [List.append_nil]
    exact ⟨h, fun f hf => absurd hf List.not_mem_nil⟩
  | append_singleton report f ih =>
    rw [← List.append_assoc] at hSep ⊢
    obtain ⟨hSettled, hExact⟩ := ih hSep.left
    rw [List.foldl_append]
    refine ⟨hSettled.turn hSep, fun g hg => ?_⟩
    by_cases hKey : f.key = g.key
    · rw [← hKey]
      exact exact_own hSettled hSep
    · have hg' : g ∈ report := (List.mem_append.mp hg).resolve_right fun hLast =>
        hKey (congrArg Finding.key (List.mem_singleton.mp hLast)).symm
      have hCount := count_other hSettled hSep (List.mem_append_right findings hg') hKey
      unfold Exact
      rw [alarmed_concat, if_neg hKey]
      exact hCount.trans (hExact g hg')

end GpuMon.Detectors

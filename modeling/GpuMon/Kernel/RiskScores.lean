import GpuMon.Kernel.Store
import GpuMon.Library.Dict

/-!
# Risk scores of the cards (`health.py`)

The score of a card adds up the Xid events, ECC errors, throttling, heat and narrow links of the
last day. The samples name a card by the uuid of `nvidia-smi`, the events by what the kernel log
expression captured.

* `xidEvents_eq`: the Xid count of a card is the number of recent events stored with its uuid.
* `gpuUuid_length_of_reach`: a stored event has no uuid, or one of 36 characters.
* `xid_counted_iff`: so the Xid count of a card is the number of events whose line names the card
  exactly when no recent event does.
-/

namespace GpuMon.Kernel

open PyText

/-! ## Samples of a card -/

structure GpuRisk where
  uuid : Text
  index : Option Int := none
  name : Text := []
  maxTemp : ℚ := 0
  thermalThrottleSamples : Nat := 0
  samples : Nat := 0
  eccUncorrectedMax : ℚ := 0
  eccCorrectedMax : ℚ := 0
  xidEvents : Nat := 0
  powerCapSamples : Nat := 0
  pcieDegradedSamples : Nat := 0
  risk : ℚ := 0
  riskLabel : Text := []
  deriving DecidableEq

def thermalThrottled (g : Gpu ℚ) : Bool :=
  g.throttleReasons.any fun r => contains "THERMAL" r || r = ("HW_SLOWDOWN" : Text)

def pcieDegraded (g : Gpu ℚ) : Bool :=
  match g.pcieWidthMax, g.pcieWidthCurrent with
  | some widest, some width => widest ≠ 0 && width ≠ 0 && width < widest
  | _, _ => false

def addSample (g : Gpu ℚ) (d : GpuRisk) : GpuRisk :=
  { d with
    samples := d.samples + 1
    maxTemp := max d.maxTemp (g.temperature.getD 0)
    thermalThrottleSamples := d.thermalThrottleSamples + (thermalThrottled g).toNat
    powerCapSamples := d.powerCapSamples + (decide ("SW_POWER_CAP".toList ∈ g.throttleReasons)).toNat
    eccUncorrectedMax := max d.eccUncorrectedMax (g.eccUncorrectedVolatile.getD 0)
    eccCorrectedMax := max d.eccCorrectedMax (g.eccCorrectedVolatile.getD 0)
    pcieDegradedSamples := d.pcieDegradedSamples + (pcieDegraded g).toNat }

/-- A card of a sample; one without a uuid is passed over. -/
def sampleGpu (uuids : Dict Text GpuRisk) (g : Gpu ℚ) : Dict Text GpuRisk :=
  match g.uuid.getD [] with
  | [] => uuids
  | c :: u => uuids.set (c :: u) (addSample g
      ((uuids.get? (c :: u)).getD { uuid := c :: u, index := g.index, name := g.name.getD [] }))

/-- An Xid event counts for the card of its uuid, if the samples have that card. -/
def countXid (uuids : Dict Text GpuRisk) (r : KernelEventRow) : Dict Text GpuRisk :=
  match uuids.get? r.gpuUuid with
  | some d => uuids.set r.gpuUuid { d with xidEvents := d.xidEvents + 1 }
  | none => uuids

/-! ## Scores -/

def riskOf (d : GpuRisk) : ℚ :=
  min 100 (min 40 (d.xidEvents * 20 : ℚ) + min 25 (d.eccUncorrectedMax * 5) +
    (if 100 < d.eccCorrectedMax then 10 else if 0 < d.eccCorrectedMax then 5 else 0) +
    (if 0 < d.thermalThrottleSamples then min 15 (5 + d.thermalThrottleSamples : ℚ) else 0) +
    (if 85 ≤ d.maxTemp then 5 else 0) +
    if max 1 (d.samples / 10) < d.pcieDegradedSamples then 5 else 0)

def riskLabelOf (risk : ℚ) : Text :=
  if 60 ≤ risk then "高危" else if 30 ≤ risk then "关注" else "健康"

def scoreRisk (d : GpuRisk) : GpuRisk :=
  { d with risk := riskOf d, riskLabel := riskLabelOf (riskOf d) }

/-- Twenty-four hours ago. -/
def dayBefore (now : Int) : Int := now - 24 * 3600 * 1000000

def okMetrics (metrics : List ServerMetric) (now : Int) (serverId : Nat) : List ServerMetric :=
  (metrics.filter fun m => m.serverId = serverId && dayBefore now ≤ m.collectedAt &&
    m.status = .ok).insertionSort fun a b => a.collectedAt ≤ b.collectedAt

def recentXids (events : List KernelEventRow) (now : Int) (serverId : Nat) :
    List KernelEventRow :=
  events.filter fun r => r.serverId = serverId && r.eventType = .gpuXid &&
    dayBefore now ≤ r.collectedAt

/-- The cards that the samples have, before the events are counted. -/
def sampledUuids (metrics : List ServerMetric) (now : Int) (serverId : Nat) : Dict Text GpuRisk :=
  ((okMetrics metrics now serverId).flatMap ServerMetric.gpus).foldl sampleGpu .empty

/-- What `gpu_risk_scores` computes for one of its servers. -/
def serverRisks (metrics : List ServerMetric) (events : List KernelEventRow) (now : Int)
    (serverId : Nat) : List GpuRisk :=
  (((recentXids events now serverId).foldl countXid
    (sampledUuids metrics now serverId)).entries.map fun p => scoreRisk p.2).insertionSort
      fun a b => b.risk ≤ a.risk

/-- `gpu_risk_scores`. -/
def gpuRiskScores (metrics : List ServerMetric) (events : List KernelEventRow) (now : Int)
    (serverIds : List Nat) : Dict Nat (List GpuRisk) :=
  .ofList (serverIds.map fun serverId => (serverId, serverRisks metrics events now serverId))

/-! ## The count of a card -/

theorem get?_sampleGpu (uuids : Dict Text GpuRisk) (g : Gpu ℚ) (u : Text) :
    (sampleGpu uuids g).get? u = if u ≠ [] ∧ g.uuid = some u then
      some (addSample g ((uuids.get? u).getD { uuid := u, index := g.index, name := g.name.getD [] }))
    else uuids.get? u := by
  unfold sampleGpu
  split
  · rename_i hNone
    rw [if_neg]
    rintro ⟨hne, hUuid⟩
    rw [hUuid] at hNone
    exact hne hNone
  · rename_i c t hSome
    obtain ⟨v, hv, rfl⟩ : ∃ v, g.uuid = some v ∧ v = c :: t := by
      cases hUuid : g.uuid with
      | none => rw [hUuid] at hSome; cases hSome
      | some v => exact ⟨v, rfl, by rw [hUuid] at hSome; exact hSome⟩
    rw [Dict.get?_set]
    by_cases hu : u = c :: t
    · subst hu
      rw [if_pos rfl, if_pos ⟨List.cons_ne_nil c t, hv⟩]
    · rw [if_neg hu, if_neg]
      rintro ⟨-, hSame⟩
      exact hu (Option.some.inj (hSame.symm.trans hv))

/-- The entries that the samples make: each under its own uuid, and without an event. -/
structure Sampled (uuids : Dict Text GpuRisk) : Prop where
  uuid : ∀ u d, uuids.get? u = some d → d.uuid = u
  noXid : ∀ u d, uuids.get? u = some d → d.xidEvents = 0

theorem sampled_sampleGpu {uuids : Dict Text GpuRisk} (h : Sampled uuids) (g : Gpu ℚ) :
    Sampled (sampleGpu uuids g) := by
  have hEntry : ∀ u d, (sampleGpu uuids g).get? u = some d → d.uuid = u ∧ d.xidEvents = 0 := by
    intro u d hd
    rw [get?_sampleGpu] at hd
    split at hd
    · cases hOld : uuids.get? u with
      | none =>
        rw [hOld] at hd
        cases hd
        exact ⟨rfl, rfl⟩
      | some d' =>
        rw [hOld] at hd
        cases hd
        exact ⟨h.uuid u d' hOld, h.noXid u d' hOld⟩
    · exact ⟨h.uuid u d hd, h.noXid u d hd⟩
  exact ⟨fun u d hd => (hEntry u d hd).1, fun u d hd => (hEntry u d hd).2⟩

theorem sampled_foldl (gpus : List (Gpu ℚ)) {uuids : Dict Text GpuRisk} (h : Sampled uuids) :
    Sampled (gpus.foldl sampleGpu uuids) := by
  induction gpus generalizing uuids with
  | nil => exact h
  | cons g rest ih => exact ih (sampled_sampleGpu h g)

theorem sampled_sampledUuids (metrics : List ServerMetric) (now : Int) (serverId : Nat) :
    Sampled (sampledUuids metrics now serverId) := by
  refine sampled_foldl _ ⟨?_, ?_⟩
  · intro u d hd
    cases hd
  · intro u d hd
    cases hd

/-- The cards of the dictionary are those that were there or that a sample has. -/
theorem isSome_get?_foldl (gpus : List (Gpu ℚ)) (uuids : Dict Text GpuRisk) (u : Text) :
    ((gpus.foldl sampleGpu uuids).get? u).isSome ↔
      (uuids.get? u).isSome ∨ u ≠ [] ∧ ∃ g ∈ gpus, g.uuid = some u := by
  induction gpus generalizing uuids with
  | nil => simp
  | cons g rest ih =>
    rw [List.foldl_cons, ih, get?_sampleGpu]
    by_cases hg : u ≠ [] ∧ g.uuid = some u
    · rw [if_pos hg]
      exact iff_of_true (.inl rfl) (.inr ⟨hg.1, g, List.mem_cons_self, hg.2⟩)
    · rw [if_neg hg]
      refine or_congr_right (and_congr_right fun hu => ?_)
      simp only [List.mem_cons, exists_eq_or_imp]
      exact (or_iff_right fun hSame => hg ⟨hu, hSame⟩).symm

theorem get?_countXid (uuids : Dict Text GpuRisk) (r : KernelEventRow) (u : Text) :
    (countXid uuids r).get? u = (uuids.get? u).map fun d =>
      { d with xidEvents := d.xidEvents + if r.gpuUuid = u then 1 else 0 } := by
  unfold countXid
  split
  · rename_i d hd
    rw [Dict.get?_set]
    by_cases hu : u = r.gpuUuid
    · subst hu
      rw [if_pos rfl, hd]
      simp
    · rw [if_neg hu]
      simp [Ne.symm hu]
  · rename_i hNone
    by_cases hu : r.gpuUuid = u
    · subst hu
      rw [hNone]
      rfl
    · simp [hu]

theorem get?_foldl_countXid (rows : List KernelEventRow) (uuids : Dict Text GpuRisk) (u : Text) :
    (rows.foldl countXid uuids).get? u = (uuids.get? u).map fun d =>
      { d with xidEvents := d.xidEvents + rows.countP fun r => r.gpuUuid = u } := by
  induction rows generalizing uuids with
  | nil => simp
  | cons r rest ih =>
    rw [List.foldl_cons, ih, get?_countXid, Option.map_map, List.countP_cons]
    congr 1
    funext d
    simp only [Function.comp_apply, decide_eq_true_eq]
    congr 1
    omega

/-- The scored entries after the events are counted. -/
theorem mem_scored {uuids : Dict Text GpuRisk} {rows : List KernelEventRow} {d : GpuRisk} :
    d ∈ ((rows.foldl countXid uuids).entries.map fun p => scoreRisk p.2).insertionSort
        (fun a b => b.risk ≤ a.risk) ↔
      ∃ u e, uuids.get? u = some e ∧ d = scoreRisk { e with
        xidEvents := e.xidEvents + rows.countP fun r => r.gpuUuid = u } := by
  rw [List.mem_insertionSort, List.mem_map]
  constructor
  · rintro ⟨⟨u, e⟩, hMem, rfl⟩
    have hGet := Dict.get?_of_mem hMem
    rw [get?_foldl_countXid] at hGet
    obtain ⟨e', he', rfl⟩ := Option.map_eq_some_iff.mp hGet
    exact ⟨u, e', he', rfl⟩
  · rintro ⟨u, e, he, rfl⟩
    refine ⟨(u, _), Dict.mem_of_get? ?_, rfl⟩
    rw [get?_foldl_countXid, he]
    rfl

section Counts

variable {metrics : List ServerMetric} {events : List KernelEventRow} {now : Int} {serverId : Nat}

theorem mem_serverRisks {d : GpuRisk} : d ∈ serverRisks metrics events now serverId ↔
    ∃ u e, (sampledUuids metrics now serverId).get? u = some e ∧ d = scoreRisk { e with
      xidEvents := e.xidEvents + (recentXids events now serverId).countP fun r => r.gpuUuid = u } :=
  mem_scored

/-- The Xid count of a card is the number of recent events stored with its uuid. -/
theorem xidEvents_eq {d : GpuRisk} (h : d ∈ serverRisks metrics events now serverId) :
    d.xidEvents = (recentXids events now serverId).countP fun r => r.gpuUuid = d.uuid := by
  obtain ⟨u, e, he, rfl⟩ := mem_serverRisks.mp h
  have hSampled := sampled_sampledUuids metrics now serverId
  have hUuid : e.uuid = u := hSampled.uuid u e he
  have hNone : e.xidEvents = 0 := hSampled.noXid u e he
  simp only [scoreRisk, hUuid, hNone, Nat.zero_add]

/-- A card of an `ok` sample of the last day. -/
def SeenCard (metrics : List ServerMetric) (now : Int) (serverId : Nat) (u : Text) : Prop :=
  ∃ m ∈ metrics, m.serverId = serverId ∧ m.status = .ok ∧ dayBefore now ≤ m.collectedAt ∧
    ∃ g ∈ m.gpus, g.uuid = some u

/-- Such a card has a score. -/
theorem exists_risk_of_seen {u : Text} (hne : u ≠ []) (h : SeenCard metrics now serverId u) :
    ∃ d ∈ serverRisks metrics events now serverId, d.uuid = u := by
  obtain ⟨m, hm, hServer, hOk, hTime, g, hg, hUuid⟩ := h
  have hMetric : m ∈ okMetrics metrics now serverId := by
    unfold okMetrics
    rw [List.mem_insertionSort, List.mem_filter]
    exact ⟨hm, by simp [hServer, hOk, hTime]⟩
  obtain ⟨e, he⟩ := Option.isSome_iff_exists.mp ((isSome_get?_foldl _ .empty u).mpr
    (.inr ⟨hne, g, List.mem_flatMap.mpr ⟨m, hMetric, hg⟩, hUuid⟩))
  refine ⟨_, mem_serverRisks.mpr ⟨u, e, he, rfl⟩, ?_⟩
  exact (sampled_sampledUuids metrics now serverId).uuid u e he

theorem get?_gpuRiskScores {serverIds : List Nat} (h : serverId ∈ serverIds) :
    (gpuRiskScores metrics events now serverIds).get? serverId =
      some (serverRisks metrics events now serverId) := by
  rw [gpuRiskScores, Dict.get?_ofList_graph, if_pos h]

end Counts

/-! ## Events that name a card -/

/-- A poll that stores the events of a log, or the deletion of a server with its rows. -/
inductive TableAction
  | store (now : Int) (serverId : Nat) (bootId text : Text)
  | forget (serverId : Nat)

def KernelEvents.forget (t : KernelEvents) (serverId : Nat) : KernelEvents where
  rows := t.rows.filter fun r => r.serverId ≠ serverId
  unique := t.unique.sublist (List.filter_sublist.map _)

def tableStep (digest : Text → Text) (alnum : Char → Bool) (t : KernelEvents) :
    TableAction → Option KernelEvents
  | .store now serverId bootId text =>
    (parseKernelLog alnum text).map fun events =>
      storeKernelEvents digest now serverId bootId events t
  | .forget serverId => some (t.forget serverId)

/-- A stored event has no uuid, or one of 36 characters. -/
theorem gpuUuid_length_of_reach {digest : Text → Text} {alnum : Char → Bool} {t : KernelEvents}
    (h : Runs.Reach (tableStep digest alnum) (fun t => t = .empty) Runs.Always t) :
    ∀ r ∈ t.rows, r.gpuUuid.length = 0 ∨ r.gpuUuid.length = 36 := by
  refine Runs.Reach.invariant
    (I := fun t => ∀ r ∈ t.rows, r.gpuUuid.length = 0 ∨ r.gpuUuid.length = 36) ?_ ?_ h
  · rintro _ rfl r hr
    cases hr
  · rintro t a t' hInv - hStep r hr
    cases a with
    | store now serverId bootId text =>
      obtain ⟨events, hParse, rfl⟩ := Option.map_eq_some_iff.mp hStep
      rcases mem_storeKernelEvents hr with hOld | ⟨ev, hev, rfl⟩
      · exact hInv r hOld
      · rw [parseKernelLog_eq_some hParse] at hev
        obtain ⟨line, -, hLine⟩ := List.mem_filterMap.mp (mem_of_mem_keptEvents hev)
        obtain ⟨kind, -, hEvent⟩ := kernelEvent_eq_some hLine
        exact gpuUuid_length hEvent
    | forget serverId =>
      cases hStep
      exact hInv r (List.mem_of_mem_filter hr)

/-- `GPU-` and 36 hexadecimal digits and dashes. -/
def IsGpuUuid (u : Text) : Prop :=
  u.take 4 = "GPU-" ∧ u.length = 40 ∧ ∀ c ∈ u.drop 4,
    c.isDigit = true ∨ ('a' ≤ c.toLower ∧ c.toLower ≤ 'f') ∨ c = '-'

/-- How many recent Xid events of the server have a line that names the card. -/
def namingXids (events : List KernelEventRow) (now : Int) (serverId : Nat) (u : Text) : Nat :=
  (recentXids events now serverId).countP fun r => contains u r.rawMessage

/-- The Xid count of the card is the number of events that name it. -/
def XidCounted (metrics : List ServerMetric) (events : List KernelEventRow) (now : Int)
    (serverIds : List Nat) (serverId : Nat) (u : Text) : Prop :=
  ∃ d ∈ ((gpuRiskScores metrics events now serverIds).get? serverId).getD [],
    d.uuid = u ∧ d.xidEvents = namingXids events now serverId u

instance (metrics : List ServerMetric) (events : List KernelEventRow) (now : Int)
    (serverIds : List Nat) (serverId : Nat) (u : Text) :
    Decidable (XidCounted metrics events now serverIds serverId u) := by
  unfold XidCounted
  infer_instance

/-- The events that name a card are counted exactly when there are none. -/
theorem xid_counted_iff {digest : Text → Text} {alnum : Char → Bool} {t : KernelEvents}
    {metrics : List ServerMetric} {now : Int} {serverIds : List Nat} {serverId : Nat} {u : Text}
    (hReach : Runs.Reach (tableStep digest alnum) (fun t => t = .empty) Runs.Always t)
    (hUuid : IsGpuUuid u) (hServer : serverId ∈ serverIds)
    (hSeen : SeenCard metrics now serverId u) :
    XidCounted metrics t.rows now serverIds serverId u ↔
      ∀ r ∈ recentXids t.rows now serverId, ¬u <:+: r.rawMessage := by
  obtain ⟨-, hLength, -⟩ := hUuid
  have hNone : ∀ d ∈ serverRisks metrics t.rows now serverId, d.uuid = u → d.xidEvents = 0 := by
    rintro d hd rfl
    rw [xidEvents_eq hd, List.countP_eq_zero]
    intro r hr hSame
    have hShort := gpuUuid_length_of_reach hReach r (List.mem_of_mem_filter hr)
    rw [of_decide_eq_true hSame, hLength] at hShort
    omega
  have hNaming : namingXids t.rows now serverId u = 0 ↔
      ∀ r ∈ recentXids t.rows now serverId, ¬u <:+: r.rawMessage := by
    rw [namingXids, List.countP_eq_zero]
    exact forall₂_congr fun r _ => not_congr contains_iff
  rw [XidCounted, get?_gpuRiskScores hServer, Option.getD_some, ← hNaming]
  constructor
  · rintro ⟨d, hd, hd', hCount⟩
    rw [← hCount]
    exact hNone d hd hd'
  · intro hZero
    have hne : u ≠ [] := by
      rintro rfl
      cases hLength
    obtain ⟨d, hd, hd'⟩ := exists_risk_of_seen hne hSeen
    exact ⟨d, hd, hd', (hNone d hd hd').trans hZero.symm⟩

/-! ## A card that falls off the bus -/

def sampleUuid : Text := "GPU-5e0f7b9c-1c52-4c2d-9a0f-3f1d2a6b8c44"

def sampleBoot : Text := "0b6f6d4e-7a9c-4f0e-8a53-1c9d3b2f7e10"

def fallenLine : Text :=
  "2026-03-01T10:00:00+0000 gpu-node-07 kernel: NVRM: Xid 79, pid=4242, ".toList ++ sampleUuid ++
    " has fallen off the bus.".toList

/-- The digest of the event of `fallenLine`; other texts are left alone. -/
def fallenDigest (t : Text) : Text :=
  if t = sampleBoot ++ "|GPU_XID|79|".toList ++ fallenLine then
    "00594d61148c64f7a60fec8e1be10e2eb15b29bb"
  else t

def sampleSeen : List ServerMetric :=
  [{ id := 1, serverId := 7, collectedAt := 1772359260000000,
     gpus := [{ index := some 0, uuid := some sampleUuid, name := some "NVIDIA A100" }] }]

theorem seenCard_sampleSeen : SeenCard sampleSeen 1772359290000000 7 sampleUuid :=
  ⟨_, List.mem_cons_self, rfl, rfl, by decide, _, List.mem_cons_self, rfl⟩

theorem isGpuUuid_sampleUuid : IsGpuUuid sampleUuid :=
  -- the list is searched, not all characters
  ⟨by decide, by decide, @of_decide_eq_true _ (List.decidableBAll _ _) (by decide +kernel)⟩

theorem xid_counted_iff_fallen : ∃ t,
    Runs.Reach (tableStep fallenDigest Char.isAlphanum) (fun t => t = .empty) Runs.Always t ∧
      (XidCounted sampleSeen t.rows 1772359290000000 [7] 7 sampleUuid ↔
        ∀ r ∈ recentXids t.rows 1772359290000000 7, ¬sampleUuid <:+: r.rawMessage) := by
  obtain ⟨t, hReach, -⟩ : ∃ t, Runs.Reach (tableStep fallenDigest Char.isAlphanum)
      (fun t => t = .empty) Runs.Always t ∧ t.rows.length = 1 :=
    Runs.Reach.exists_of_exec [.store 1772359230000000 7 sampleBoot fallenLine] rfl
      (by decide +kernel)
  exact ⟨t, hReach, xid_counted_iff hReach isGpuUuid_sampleUuid
    List.mem_cons_self seenCard_sampleSeen⟩

theorem fallen_card_uncounted : ∃ t,
    Runs.Reach (tableStep fallenDigest Char.isAlphanum) (fun t => t = .empty) Runs.Always t ∧
      IsGpuUuid sampleUuid ∧ SeenCard sampleSeen 1772359290000000 7 sampleUuid ∧
      namingXids t.rows 1772359290000000 7 sampleUuid = 1 ∧
      ¬XidCounted sampleSeen t.rows 1772359290000000 [7] 7 sampleUuid := by
  obtain ⟨t, hReach, hNaming, hUncounted⟩ : ∃ t, Runs.Reach (tableStep fallenDigest
      Char.isAlphanum) (fun t => t = .empty) Runs.Always t ∧
      namingXids t.rows 1772359290000000 7 sampleUuid = 1 ∧
      ¬XidCounted sampleSeen t.rows 1772359290000000 [7] 7 sampleUuid :=
    Runs.Reach.exists_of_exec [.store 1772359230000000 7 sampleBoot fallenLine] rfl
      (by decide +kernel)
  exact ⟨t, hReach, isGpuUuid_sampleUuid, seenCard_sampleSeen, hNaming,
    hUncounted⟩

end GpuMon.Kernel

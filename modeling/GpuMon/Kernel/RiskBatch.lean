import GpuMon.Kernel.RiskScores
import GpuMon.Library.Grouping

/-!
# Risk scores of many servers (`health.gpu_risk_scores`)

One query streams the samples of all servers and one the events; each row updates the dictionary
of its server. A query may return any list of rows that its filter and its order allow.

* `riskScores_eq`: the list of a server comes from its own rows.
* `riskScore_eq_serverRisks`: for one server it is the list of `serverRisks`.
* `riskOf_tally_xid`, `riskOf_tally_sample`: one more event, or one more sample in which the card
  is throttled and on a narrow link, does not lower the score.
* `risk_scores_batch`: the scores of a server in a batch.
-/

namespace GpuMon.Kernel

open Grouping

/-! ## The streamed queries -/

def isRecentMetric (now : Int) (serverIds : List Nat) (m : ServerMetric) : Bool :=
  m.serverId ∈ serverIds && dayBefore now ≤ m.collectedAt && m.status = .ok

def isRecentXid (now : Int) (serverIds : List Nat) (r : KernelEventRow) : Bool :=
  r.serverId ∈ serverIds && r.eventType = .gpuXid && dayBefore now ≤ r.collectedAt

/-- What the query of the samples may return: ordered by server and time. -/
structure MetricAnswer (metrics : List ServerMetric) (now : Int) (serverIds : List Nat)
    (rows : List ServerMetric) : Prop where
  perm : rows.Perm (metrics.filter (isRecentMetric now serverIds))
  ordered : rows.Pairwise fun a b =>
    a.serverId < b.serverId ∨ a.serverId = b.serverId ∧ a.collectedAt ≤ b.collectedAt

/-- What the query of the events may return, in any order. -/
def XidAnswer (events : List KernelEventRow) (now : Int) (serverIds : List Nat)
    (xids : List KernelEventRow) : Prop :=
  xids.Perm (events.filter (isRecentXid now serverIds))

/-- The scored list of the cards of one server. -/
def rank (uuids : Dict Text GpuRisk) : List GpuRisk :=
  (uuids.entries.map fun p => scoreRisk p.2).insertionSort fun a b => b.risk ≤ a.risk

def sampleRow (uuids : Dict Text GpuRisk) (m : ServerMetric) : Dict Text GpuRisk :=
  m.gpus.foldl sampleGpu uuids

/-- `gpu_risk_scores` on what its queries return; `none` is a `KeyError`. -/
def riskScores (serverIds : List Nat) (rows : List ServerMetric) (xids : List KernelEventRow) :
    Option (Dict Nat (List GpuRisk)) := do
  let orderedIds := (Dict.ofList (serverIds.map fun s => (s, ()))).keys
  let byServer := Dict.ofList (orderedIds.map fun s => (s, Dict.empty))
  let byServer ← updateAll ServerMetric.serverId sampleRow rows byServer
  let byServer ← updateAll KernelEventRow.serverId countXid xids byServer
  return byServer.mapValues rank

/-- `gpu_risk_score`. -/
def riskScore (serverId : Nat) (rows : List ServerMetric) (xids : List KernelEventRow) :
    Option (List GpuRisk) :=
  (riskScores [serverId] rows xids).bind fun table => table.get? serverId

/-- The list of a server from its own rows. -/
def risksOf (rows : List ServerMetric) (xids : List KernelEventRow) : List GpuRisk :=
  rank (xids.foldl countXid (rows.foldl sampleRow .empty))

theorem serverRisks_eq (metrics : List ServerMetric) (events : List KernelEventRow) (now : Int)
    (serverId : Nat) : serverRisks metrics events now serverId =
      risksOf (okMetrics metrics now serverId) (recentXids events now serverId) := by
  rw [serverRisks, risksOf, sampledUuids, List.foldl_flatMap]
  rfl

variable {metrics rows rows' : List ServerMetric} {events xids xids' : List KernelEventRow}
  {now : Int} {serverIds : List Nat} {s : Nat} {u : Text}

theorem mem_keys_ofList_unit (serverIds : List Nat) (s : Nat) :
    s ∈ (Dict.ofList (serverIds.map fun s => (s, ()))).keys ↔ s ∈ serverIds := by
  rw [Dict.mem_keys_iff, Dict.get?_ofList_graph]
  split <;> simp_all

/-- The shared dictionaries give each server the list of its own rows. -/
theorem riskScores_eq (hRows : ∀ m ∈ rows, m.serverId ∈ serverIds)
    (hXids : ∀ r ∈ xids, r.serverId ∈ serverIds) :
    ∃ table, riskScores serverIds rows xids = some table ∧ ∀ s ∈ serverIds,
      table.get? s = some
        (risksOf (group ServerMetric.serverId s rows) (group KernelEventRow.serverId s xids)) := by
  have hStart : ∀ s ∈ serverIds, (Dict.ofList ((Dict.ofList (serverIds.map fun s => (s, ()))).keys.map
      fun s => (s, (Dict.empty : Dict Text GpuRisk)))).get? s = some .empty := by
    intro s hs
    rw [Dict.get?_ofList_graph, if_pos ((mem_keys_ofList_unit serverIds s).mpr hs)]
  obtain ⟨sampled, hSampled, hGet⟩ := exists_updateAll (l := rows) ServerMetric.serverId
    sampleRow fun m hm => by
      rw [hStart _ (hRows m hm)]
      rfl
  have hPresent : ∀ s ∈ serverIds, sampled.get? s =
      some ((group ServerMetric.serverId s rows).foldl sampleRow .empty) := by
    intro s hs
    rw [hGet, hStart s hs]
    rfl
  obtain ⟨counted, hCounted, hGet'⟩ := exists_updateAll (l := xids) (d := sampled)
    KernelEventRow.serverId countXid fun r hr => by
      rw [hPresent _ (hXids r hr)]
      rfl
  refine ⟨counted.mapValues rank, ?_, fun s hs => ?_⟩
  · rw [riskScores]
    simp only [hSampled, hCounted, Option.bind_eq_bind, Option.bind_some]
    rfl
  · rw [Dict.get?_mapValues, hGet', hPresent s hs]
    rfl

/-- A server alone has the list of `serverRisks`. -/
theorem riskScore_eq_serverRisks (metrics : List ServerMetric) (events : List KernelEventRow)
    (now : Int) (serverId : Nat) :
    riskScore serverId (okMetrics metrics now serverId) (recentXids events now serverId) =
      some (serverRisks metrics events now serverId) := by
  have hRows : ∀ m ∈ okMetrics metrics now serverId, m.serverId = serverId := by
    intro m hm
    have hm := (List.mem_insertionSort _).mp hm
    simp only [List.mem_filter, Bool.and_eq_true, decide_eq_true_eq] at hm
    exact hm.2.1.1
  have hXids : ∀ r ∈ recentXids events now serverId, r.serverId = serverId := by
    intro r hr
    simp only [recentXids, List.mem_filter, Bool.and_eq_true, decide_eq_true_eq] at hr
    exact hr.2.1.1
  obtain ⟨table, hTable, hGet⟩ := riskScores_eq
    (fun m hm => List.mem_singleton.mpr (hRows m hm)) fun r hr => List.mem_singleton.mpr (hXids r hr)
  rw [riskScore, hTable, Option.bind_some, hGet serverId List.mem_cons_self, serverRisks_eq, group,
    group, List.filter_eq_self.mpr fun m hm => decide_eq_true (hRows m hm),
    List.filter_eq_self.mpr fun r hr => decide_eq_true (hXids r hr)]

/-! ## The tally of a card -/

/-- The samples of a card. -/
def samplesOf (rows : List ServerMetric) (u : Text) : List (Gpu ℚ) :=
  (rows.flatMap ServerMetric.gpus).filter fun g => g.uuid = some u

/-- What the samples and the events of a card add up to. -/
def tally (u : Text) (samples : List (Gpu ℚ)) (xids : Nat) : GpuRisk :=
  { samples.foldl (fun d g => addSample g d) { uuid := u } with xidEvents := xids }

/-- The score does not look at the index and the name that the first sample gave. -/
def anonymous (d : GpuRisk) : GpuRisk := { d with index := none, name := [] }

theorem anonymous_addSample (g : Gpu ℚ) (d : GpuRisk) :
    anonymous (addSample g d) = addSample g (anonymous d) := rfl

/-- The entry of a card, as far as the score looks at it. -/
def entryOf (uuids : Dict Text GpuRisk) (u : Text) : GpuRisk :=
  anonymous ((uuids.get? u).getD { uuid := u })

theorem entryOf_foldl_sampleGpu (gpus : List (Gpu ℚ)) (uuids : Dict Text GpuRisk) (hu : u ≠ []) :
    entryOf (gpus.foldl sampleGpu uuids) u =
      (gpus.filter fun g => g.uuid = some u).foldl (fun d g => addSample g d) (entryOf uuids u) := by
  induction gpus generalizing uuids with
  | nil => rfl
  | cons g gpus ih =>
    rw [List.foldl_cons, ih]
    by_cases hg : g.uuid = some u
    · have hEntry : entryOf (sampleGpu uuids g) u = addSample g (entryOf uuids u) := by
        rw [entryOf, get?_sampleGpu, if_pos ⟨hu, hg⟩, Option.getD_some, anonymous_addSample,
          entryOf]
        cases uuids.get? u <;> rfl
      rw [hEntry, List.filter_cons_of_pos (by simp [hg]), List.foldl_cons]
    · have hEntry : entryOf (sampleGpu uuids g) u = entryOf uuids u := by
        rw [entryOf, get?_sampleGpu, if_neg fun h => hg h.2, entryOf]
      rw [hEntry, List.filter_cons_of_neg (by simp [hg])]

theorem foldl_sampleRow (rows : List ServerMetric) : rows.foldl sampleRow .empty =
    (rows.flatMap ServerMetric.gpus).foldl sampleGpu .empty := by
  rw [List.foldl_flatMap]
  rfl

/-- The cards that have an entry are those of the samples. -/
theorem isSome_get?_rows : ((rows.foldl sampleRow .empty).get? u).isSome ↔
    u ≠ [] ∧ samplesOf rows u ≠ [] := by
  have hSome : samplesOf rows u ≠ [] ↔ ∃ g ∈ rows.flatMap ServerMetric.gpus, g.uuid = some u := by
    rw [samplesOf, ne_eq, List.filter_eq_nil_iff]
    push Not
    simp only [decide_eq_true_eq]
  rw [foldl_sampleRow, isSome_get?_foldl, hSome, Dict.get?_empty]
  simp only [Option.isSome_none, Bool.false_eq_true, false_or]

/-- The risk of a card by its samples and events. -/
theorem risk_eq {d : GpuRisk} (h : d ∈ risksOf rows xids) : d.risk =
    riskOf (tally d.uuid (samplesOf rows d.uuid) (xids.countP fun r => r.gpuUuid = d.uuid)) := by
  obtain ⟨u, e, he, rfl⟩ := mem_scored.mp h
  have hSampled : Sampled (rows.foldl sampleRow .empty) := by
    rw [foldl_sampleRow]
    exact sampled_foldl _ ⟨nofun, nofun⟩
  have hu : u ≠ [] := (isSome_get?_rows.mp (Option.isSome_iff_exists.mpr ⟨e, he⟩)).1
  have hEntry : anonymous e = (samplesOf rows u).foldl (fun d g => addSample g d) { uuid := u } := by
    have hFold := entryOf_foldl_sampleGpu (rows.flatMap ServerMetric.gpus) .empty hu
    rw [← foldl_sampleRow, entryOf, he] at hFold
    exact hFold
  have hUuid : e.uuid = u := hSampled.uuid u e he
  have hNone : e.xidEvents = 0 := hSampled.noXid u e he
  change riskOf _ = riskOf (tally e.uuid (samplesOf rows e.uuid) _)
  rw [hUuid, tally, ← hEntry, hNone, zero_add]
  rfl

/-- The cards of the list are those that some sample has. -/
theorem exists_risk_iff :
    (∃ d ∈ risksOf rows xids, d.uuid = u) ↔ u ≠ [] ∧ samplesOf rows u ≠ [] := by
  have hSampled : Sampled (rows.foldl sampleRow .empty) := by
    rw [foldl_sampleRow]
    exact sampled_foldl _ ⟨nofun, nofun⟩
  rw [← isSome_get?_rows, Option.isSome_iff_exists]
  constructor
  · rintro ⟨d, hd, rfl⟩
    obtain ⟨u, e, he, rfl⟩ := mem_scored.mp hd
    have hUuid : e.uuid = u := hSampled.uuid u e he
    exact ⟨e, hUuid.symm ▸ he⟩
  · rintro ⟨e, he⟩
    exact ⟨_, mem_scored.mpr ⟨u, e, he, rfl⟩, hSampled.uuid u e he⟩

/-! ## More events and samples -/

/-- No term of the score of the first entry is above that of the second. -/
structure AtMost (d e : GpuRisk) : Prop where
  xidEvents : d.xidEvents ≤ e.xidEvents
  eccUncorrected : d.eccUncorrectedMax ≤ e.eccUncorrectedMax
  eccCorrected : d.eccCorrectedMax ≤ e.eccCorrectedMax
  throttled : d.thermalThrottleSamples ≤ e.thermalThrottleSamples
  maxTemp : d.maxTemp ≤ e.maxTemp
  degraded : max 1 (d.samples / 10) < d.pcieDegradedSamples →
    max 1 (e.samples / 10) < e.pcieDegradedSamples

theorem AtMost.refl (d : GpuRisk) : AtMost d d := ⟨le_rfl, le_rfl, le_rfl, le_rfl, le_rfl, id⟩

/-- A bonus that is given on a condition. -/
theorem ite_bonus_le {p q : Prop} [Decidable p] [Decidable q] {x y : ℚ} (h : p → q) (hxy : x ≤ y)
    (hy : 0 ≤ y) : (if p then x else 0) ≤ if q then y else 0 := by
  by_cases hp : p
  · rwa [if_pos hp, if_pos (h hp)]
  · rw [if_neg hp]
    split
    · exact hy
    · exact le_rfl

theorem AtMost.riskOf_le {d e : GpuRisk} (h : AtMost d e) : riskOf d ≤ riskOf e := by
  have hXid : (d.xidEvents : ℚ) ≤ e.xidEvents := by exact_mod_cast h.xidEvents
  have hThrottled : (d.thermalThrottleSamples : ℚ) ≤ e.thermalThrottleSamples := by
    exact_mod_cast h.throttled
  have hEcc := h.eccUncorrected
  have hCorrected : (if 100 < d.eccCorrectedMax then (10 : ℚ)
      else if 0 < d.eccCorrectedMax then 5 else 0) ≤
      if 100 < e.eccCorrectedMax then 10 else if 0 < e.eccCorrectedMax then 5 else 0 := by
    have hLe := h.eccCorrected
    split_ifs <;> linarith
  refine min_le_min_left 100 (add_le_add (add_le_add (add_le_add (add_le_add (add_le_add ?_ ?_)
    hCorrected) ?_) ?_) ?_)
  · gcongr
  · gcongr
  · exact ite_bonus_le (fun hSome => hSome.trans_le h.throttled)
      (min_le_min_left 15 (by linarith)) (by positivity)
  · exact ite_bonus_le (fun hHot => hHot.trans h.maxTemp) le_rfl (by norm_num)
  · exact ite_bonus_le h.degraded le_rfl (by norm_num)

/-- One more event does not lower the score. -/
theorem riskOf_tally_xid (u : Text) (samples : List (Gpu ℚ)) {m n : Nat} (h : m ≤ n) :
    riskOf (tally u samples m) ≤ riskOf (tally u samples n) :=
  AtMost.riskOf_le { AtMost.refl (tally u samples m) with xidEvents := h }

/-- The samples of a card add up in any order. -/
theorem tally_perm {samples samples' : List (Gpu ℚ)} (h : samples.Perm samples') (n : Nat) :
    tally u samples n = tally u samples' n := by
  have hComm : RightCommutative fun (d : GpuRisk) g => addSample g d := ⟨fun d g g' => by
    simp only [addSample, max_right_comm, Nat.add_right_comm]⟩
  rw [tally, tally, h.foldl_eq]

/-- One more sample in which the card is throttled and its link narrow does not lower the score:
the samples that the narrow ones are compared with grow by at most one for each tenth. -/
theorem riskOf_tally_sample (u : Text) (samples : List (Gpu ℚ)) (n : Nat) {g : Gpu ℚ}
    (hDegraded : pcieDegraded g) :
    riskOf (tally u samples n) ≤ riskOf (tally u (samples ++ [g]) n) := by
  apply AtMost.riskOf_le
  simp only [tally, List.foldl_append, List.foldl_cons, List.foldl_nil]
  refine ⟨le_rfl, le_max_left _ _, le_max_left _ _, Nat.le_add_right _ _, le_max_left _ _, ?_⟩
  simp only [addSample, hDegraded, Bool.toNat_true]
  omega

/-! ## The order of the events -/

theorem keys_countXid (uuids : Dict Text GpuRisk) (r : KernelEventRow) :
    (countXid uuids r).keys = uuids.keys := by
  unfold countXid
  split
  · rename_i d hd
    exact Dict.keys_set_of_mem _ ((Dict.mem_keys_iff uuids _).mpr (by rw [hd]; rfl))
  · rfl

theorem keys_foldl_countXid (xids : List KernelEventRow) (uuids : Dict Text GpuRisk) :
    (xids.foldl countXid uuids).keys = uuids.keys := by
  induction xids generalizing uuids with
  | nil => rfl
  | cons r xids ih => rw [List.foldl_cons, ih, keys_countXid]

theorem foldl_countXid_perm (h : xids.Perm xids') (uuids : Dict Text GpuRisk) :
    xids.foldl countXid uuids = xids'.foldl countXid uuids := by
  apply Dict.ext_get?
  · rw [keys_foldl_countXid, keys_foldl_countXid]
  · intro u
    rw [get?_foldl_countXid, get?_foldl_countXid, h.countP_eq]

theorem risksOf_perm (h : xids.Perm xids') : risksOf rows xids = risksOf rows xids' := by
  rw [risksOf, foldl_countXid_perm h, risksOf]

/-! ## Bounds and order -/

theorem riskOf_nonneg {d : GpuRisk} (h : 0 ≤ d.eccUncorrectedMax) : 0 ≤ riskOf d := by
  unfold riskOf
  positivity

theorem eccUncorrectedMax_nonneg (samples : List (Gpu ℚ)) {d : GpuRisk}
    (h : 0 ≤ d.eccUncorrectedMax) :
    0 ≤ (samples.foldl (fun d g => addSample g d) d).eccUncorrectedMax := by
  induction samples generalizing d with
  | nil => exact h
  | cons g samples ih => exact ih (h.trans (le_max_left _ _))

theorem risk_mem {d : GpuRisk} (h : d ∈ risksOf rows xids) : 0 ≤ d.risk ∧ d.risk ≤ 100 := by
  rw [risk_eq h]
  exact ⟨riskOf_nonneg (eccUncorrectedMax_nonneg _ le_rfl), min_le_left _ _⟩

theorem risksOf_sorted (rows : List ServerMetric) (xids : List KernelEventRow) :
    (risksOf rows xids).Pairwise fun a b => b.risk ≤ a.risk := by
  have : Std.Total fun a b : GpuRisk => b.risk ≤ a.risk := ⟨fun a b => le_total b.risk a.risk⟩
  have : IsTrans GpuRisk fun a b => b.risk ≤ a.risk := ⟨fun a b c hab hbc => hbc.trans hab⟩
  exact List.pairwise_insertionSort _ _

/-- A card is in both lists, with a risk that is not lower in the second. -/
theorem exists_risk_le (hSamples : samplesOf rows u ≠ [] → samplesOf rows' u ≠ [])
    (hRisk : riskOf (tally u (samplesOf rows u) (xids.countP fun r => r.gpuUuid = u)) ≤
      riskOf (tally u (samplesOf rows' u) (xids'.countP fun r => r.gpuUuid = u))) :
    ∀ d ∈ risksOf rows xids, d.uuid = u → ∃ e ∈ risksOf rows' xids', e.uuid = u ∧ d.risk ≤ e.risk := by
  rintro d hd rfl
  obtain ⟨hUuid, hSome⟩ := exists_risk_iff.mp ⟨d, hd, rfl⟩
  obtain ⟨e, he, heUuid⟩ : ∃ e ∈ risksOf rows' xids', e.uuid = d.uuid :=
    exists_risk_iff.mpr ⟨hUuid, hSamples hSome⟩
  refine ⟨e, he, heUuid, ?_⟩
  rw [risk_eq hd, risk_eq he, heUuid]
  exact hRisk

/-! ## The answers of the queries -/

theorem MetricAnswer.server (h : MetricAnswer metrics now serverIds rows) :
    ∀ m ∈ rows, m.serverId ∈ serverIds := by
  intro m hm
  have hRecent := List.of_mem_filter (h.perm.subset hm)
  simp only [isRecentMetric, Bool.and_eq_true, decide_eq_true_eq] at hRecent
  exact hRecent.1.1

theorem XidAnswer.server (h : XidAnswer events now serverIds xids) :
    ∀ r ∈ xids, r.serverId ∈ serverIds := by
  intro r hr
  have hRecent := List.of_mem_filter (h.subset hr)
  simp only [isRecentXid, Bool.and_eq_true, decide_eq_true_eq] at hRecent
  exact hRecent.1.1

/-- The events of one server are the same for a batch and for the server alone. -/
theorem XidAnswer.group_perm (hs : s ∈ serverIds) (h : XidAnswer events now serverIds xids)
    (h' : XidAnswer events now [s] xids') :
    (group KernelEventRow.serverId s xids).Perm (group KernelEventRow.serverId s xids') := by
  refine (h.filter _).trans (.trans ?_ (h'.filter _).symm)
  rw [List.filter_filter, List.filter_filter]
  refine .of_eq (List.filter_congr fun r _ => ?_)
  by_cases hr : r.serverId = s
  · simp [isRecentXid, hr, hs]
  · simp [hr]

theorem samplesOf_perm (h : rows.Perm rows') (s : Nat) (u : Text) :
    (samplesOf (group ServerMetric.serverId s rows) u).Perm
      (samplesOf (group ServerMetric.serverId s rows') u) :=
  ((h.filter _).flatMap_right _).filter _

/-- One more row adds its sample of the card, or nothing. -/
theorem MetricAnswer.samples_cons {m : ServerMetric} {g : Gpu ℚ}
    (h : MetricAnswer metrics now serverIds rows)
    (h' : MetricAnswer (m :: metrics) now serverIds rows')
    (hg : m.gpus.filter (fun g => g.uuid = some u) = [g]) :
    let samples := samplesOf (group ServerMetric.serverId s rows) u
    let samples' := samplesOf (group ServerMetric.serverId s rows') u
    samples'.Perm samples ∨ samples'.Perm (samples ++ [g]) := by
  intro samples samples'
  have hOld := samplesOf_perm h.perm s u
  have hNew := samplesOf_perm h'.perm s u
  by_cases hRecent : isRecentMetric now serverIds m = true ∧ m.serverId = s
  · right
    have hGroup : ∀ l, group ServerMetric.serverId s (m :: l) =
        m :: group ServerMetric.serverId s l :=
      fun l => List.filter_cons_of_pos (by simp [hRecent.2])
    have hSamples : ∀ l, samplesOf (m :: l) u = g :: samplesOf l u := fun l => by
      rw [samplesOf, List.flatMap_cons, List.filter_append, hg]
      rfl
    rw [List.filter_cons_of_pos hRecent.1, hGroup, hSamples] at hNew
    exact hNew.trans ((hOld.symm.cons g).trans (List.perm_append_singleton g samples).symm)
  · left
    have hSame : group ServerMetric.serverId s ((m :: metrics).filter (isRecentMetric now serverIds)) =
        group ServerMetric.serverId s (metrics.filter (isRecentMetric now serverIds)) := by
      rw [List.filter_cons]
      split
      · rename_i hSome
        rw [group, List.filter_cons_of_neg (by simpa using fun hs => hRecent ⟨hSome, hs⟩), group]
      · rfl
    rw [hSame] at hNew
    exact hNew.trans hOld.symm

/-- One more event does not lower the number of events of a card. -/
theorem XidAnswer.countP_le {x : KernelEventRow} (h : XidAnswer events now serverIds xids)
    (h' : XidAnswer (x :: events) now serverIds xids') (p : KernelEventRow → Bool) :
    (group KernelEventRow.serverId s xids).countP p ≤
      (group KernelEventRow.serverId s xids').countP p := by
  rw [group, (h.filter _).countP_eq, group, (h'.filter _).countP_eq]
  have hSub : (events.filter (isRecentXid now serverIds)).Sublist
      ((x :: events).filter (isRecentXid now serverIds)) := (List.sublist_cons_self x events).filter _
  exact (hSub.filter _).countP_le

/-- The scores of a server in a batch: those of the server alone, in their bounds and order, and
not lowered by one more event or one more sample in which the card is throttled and degraded. -/
theorem risk_scores_batch (hs : s ∈ serverIds) (hRows : MetricAnswer metrics now serverIds rows)
    (hXids : XidAnswer events now serverIds xids) :
    ∃ table risks, riskScores serverIds rows xids = some table ∧ table.get? s = some risks ∧
      (∀ rows' xids', MetricAnswer metrics now [s] rows' → XidAnswer events now [s] xids' →
        rows' = rows.filter (fun m => m.serverId = s) → riskScore s rows' xids' = some risks) ∧
      (∀ d ∈ risks, 0 ≤ d.risk ∧ d.risk ≤ 100) ∧
      risks.Pairwise (fun a b => b.risk ≤ a.risk) ∧
      (∀ x rows' xids', MetricAnswer metrics now serverIds rows' →
        XidAnswer (x :: events) now serverIds xids' →
        ∃ table' risks', riskScores serverIds rows' xids' = some table' ∧
          table'.get? s = some risks' ∧
          ∀ d ∈ risks, ∃ e ∈ risks', e.uuid = d.uuid ∧ d.risk ≤ e.risk) ∧
      ∀ m g u rows' xids', m.gpus.filter (fun g => g.uuid = some u) = [g] →
        thermalThrottled g → pcieDegraded g → MetricAnswer (m :: metrics) now serverIds rows' →
        XidAnswer events now serverIds xids' →
        ∃ table' risks', riskScores serverIds rows' xids' = some table' ∧
          table'.get? s = some risks' ∧
          ∀ d ∈ risks, d.uuid = u → ∃ e ∈ risks', e.uuid = u ∧ d.risk ≤ e.risk := by
  obtain ⟨table, hTable, hGet⟩ := riskScores_eq hRows.server hXids.server
  refine ⟨table, _, hTable, hGet s hs, ?_, fun d hd => risk_mem hd, risksOf_sorted _ _, ?_, ?_⟩
  · rintro rows' xids' hRows' hXids' hSame
    obtain ⟨table', hTable', hGet'⟩ := riskScores_eq hRows'.server hXids'.server
    have hGroup : group ServerMetric.serverId s rows' = group ServerMetric.serverId s rows := by
      rw [hSame, group, group, List.filter_filter]
      simp only [Bool.and_self]
    rw [riskScore, hTable', Option.bind_some, hGet' s List.mem_cons_self, hGroup,
      risksOf_perm (hXids.group_perm hs hXids')]
  · intro x rows' xids' hRows' hXids'
    obtain ⟨table', hTable', hGet'⟩ := riskScores_eq hRows'.server hXids'.server
    refine ⟨table', _, hTable', hGet' s hs, fun d hd => ?_⟩
    have hSamples := samplesOf_perm (hRows.perm.trans hRows'.perm.symm) s d.uuid
    refine exists_risk_le (fun hne hNil => hne ?_) ?_ d hd rfl
    · rw [hNil] at hSamples
      exact hSamples.eq_nil
    · rw [tally_perm hSamples]
      exact riskOf_tally_xid _ _ (hXids.countP_le hXids' _)
  · intro m g u rows' xids' hg _ hDegraded hRows' hXids'
    obtain ⟨table', hTable', hGet'⟩ := riskScores_eq hRows'.server hXids'.server
    refine ⟨table', _, hTable', hGet' s hs, ?_⟩
    have hCount : (group KernelEventRow.serverId s xids).countP (fun r => r.gpuUuid = u) =
        (group KernelEventRow.serverId s xids').countP fun r => r.gpuUuid = u :=
      ((hXids.trans hXids'.symm).filter _).countP_eq _
    rcases hRows.samples_cons (s := s) hRows' hg with hSame | hMore
    · refine exists_risk_le (fun hne hNil => hne ?_) ?_
      · rw [hNil] at hSame
        exact hSame.symm.eq_nil
      · rw [tally_perm hSame, hCount]
    · refine exists_risk_le (fun hne hNil => hne ?_) ?_
      · rw [hNil] at hMore
        exact absurd hMore.symm.eq_nil (by simp)
      · rw [tally_perm hMore, hCount]
        exact riskOf_tally_sample u _ _ hDegraded

theorem risk_scores_batch_seen : ∃ table risks,
    riskScores [7, 3, 7] sampleSeen [] = some table ∧ table.get? 7 = some risks ∧
      (∀ d ∈ risks, 0 ≤ d.risk ∧ d.risk ≤ 100) ∧ riskScore 7 sampleSeen [] = some risks := by
  have hRows : MetricAnswer sampleSeen 1772359290000000 [7, 3, 7] sampleSeen :=
    ⟨by decide, List.pairwise_singleton _ _⟩
  have hXids : XidAnswer [] 1772359290000000 [7, 3, 7] [] := List.Perm.refl []
  obtain ⟨table, risks, hTable, hGet, hAlone, hBounds, -⟩ :=
    risk_scores_batch (s := 7) (by decide) hRows hXids
  exact ⟨table, risks, hTable, hGet, hBounds,
    hAlone _ _ ⟨by decide, List.pairwise_singleton _ _⟩ (List.Perm.refl []) rfl⟩

end GpuMon.Kernel

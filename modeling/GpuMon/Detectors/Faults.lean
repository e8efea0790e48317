import GpuMon.Detectors.Findings
import GpuMon.Library.Runs

/-!
# Faults of items over runs of reports

`run_detectors` calls the detectors of `Findings` again and again; new GPUs are registered in
between, and events are closed by other people. The ECC detector also compares a counter with the
highest value it has seen.

* `open_iff_last_report`: after a report the event of an item is open, once, exactly if the last
  that was found about the item is a problem.
* `ecc_open_iff`: the ECC event of a GPU is open after a report exactly if there are errors of
  this boot, or the counter exceeds all of its earlier readings.
* `openTexts_detectServices`: the one detector that rewrites its message keeps to one open event,
  which says what the latest slow sample lists.
-/

namespace GpuMon.Detectors

open PyText Runs

variable (numberText : ℚ → Text)

/-! ## Reports -/

/-- The detectors that look at items. -/
inductive ItemDetector
  | throttle
  | ecc
  | nvme
  | raid
  deriving DecidableEq

def ItemDetector.name : ItemDetector → Text
  | .throttle => "GPU_THERMAL_THROTTLE"
  | .ecc => "GPU_ECC_UNCORRECTED"
  | .nvme => "NVME_HEALTH"
  | .raid => "RAID_DEGRADED"

def allItemDetectors : List ItemDetector := [.throttle, .ecc, .nvme, .raid]

theorem mem_allItemDetectors (d : ItemDetector) : d ∈ allItemDetectors := by
  cases d <;> decide

/-- The call of a detector in `run_detectors`. -/
inductive Report
  | throttle (name : Text) (gpus : List GpuHealth)
  | ecc (name : Text) (gpus : List GpuHealth)
  | nvme (latest : Option (List NvmeDevice))
  | raid (latest : Option Mdraid)

def Report.detector : Report → ItemDetector
  | .throttle _ _ => .throttle
  | .ecc _ _ => .ecc
  | .nvme _ => .nvme
  | .raid _ => .raid

def Report.pass (env : Environment) (server : Server) (baseline : EccBaseline)
    (events : Table AlertEvent) : Report → EccBaseline × Table AlertEvent
  | .throttle name gpus => (baseline, detectGpuThrottle numberText env server name gpus events)
  | .ecc name gpus => detectGpuEcc env server name gpus baseline events
  | .nvme latest => (baseline, detectNvme env server latest events)
  | .raid latest => (baseline, detectRaid env server latest events)

/-- What the detector finds. -/
def Report.findings (baseline : EccBaseline) : Report → List Finding
  | .throttle _ gpus => gpus.map (throttleFinding numberText)
  | .ecc _ gpus => (eccFindings baseline gpus).2
  | .nvme latest => (latest.getD []).map nvmeFinding
  | .raid latest => ((latest.map Mdraid.arrays).getD []).map raidFinding

/-- The counters that the ECC detector reads. -/
def readingsOf (baseline : EccBaseline) (gpus : List GpuHealth) : List (Text × Int) :=
  gpus.filterMap fun g =>
    if g.eccSupported && g.uuid.getD [] ≠ [] && baseline.contains (g.uuid.getD []) then
      some (g.uuid.getD [], g.total)
    else none

def Report.readings (baseline : EccBaseline) : Report → List (Text × Int)
  | .ecc _ gpus => readingsOf baseline gpus
  | _ => []

/-- A new GPU gets a baseline row, without a counter. -/
def registerUuid (baseline : EccBaseline) (uuid : Text) : EccBaseline :=
  if uuid = [] ∨ baseline.contains uuid = true then baseline else baseline.set uuid none

/-- One server and the events. `found` has what each detector has found so far, `readings` the
counters that were read. -/
structure Faults where
  server : Server
  baseline : EccBaseline
  events : Table AlertEvent
  found : ItemDetector → List Finding := fun _ => []
  readings : List (Text × Int) := []

/-- The texts of the open events of a detector. -/
def Faults.texts (s : Faults) (d : ItemDetector) : List Text :=
  openTexts s.events d.name s.server.id

inductive FaultAction
  | report (env : Environment) (r : Report)
  | register (uuids : List Text)
  /-- Other detectors and servers, and people who close events. -/
  | elsewhere (events : Table AlertEvent)

def Faults.afterReport (s : Faults) (env : Environment) (r : Report) : Faults :=
  let pass := r.pass numberText env s.server s.baseline s.events
  { s with
    baseline := pass.1
    events := pass.2
    found := Function.update s.found r.detector
      (s.found r.detector ++ r.findings numberText s.baseline)
    readings := s.readings ++ r.readings s.baseline }

def faultStep (s : Faults) : FaultAction → Option Faults
  | .report env r => some (s.afterReport numberText env r)
  | .register uuids => some { s with baseline := uuids.foldl registerUuid s.baseline }
  | .elsewhere events =>
    if allItemDetectors.all fun d => (openTexts events d.name s.server.id).isSublist (s.texts d) then
      some { s with events }
    else none

/-- Nothing was found yet and no GPU is known. -/
structure FaultStart (s : Faults) : Prop where
  baseline : s.baseline = Dict.empty
  found : s.found = fun _ => []
  readings : s.readings = []
  noneOpen : ∀ d, s.texts d = []

/-- No item is found by the event of another one, among all that a detector has found. -/
def SeparatedStep (s : Faults) : FaultAction → Prop
  | .report _ r => Separated (s.found r.detector ++ r.findings numberText s.baseline)
  | _ => True

section Run

variable {numberText} {s s' : Faults} {a : FaultAction}

/-- A report settles what it finds, and touches no other detector. -/
theorem texts_afterReport (s : Faults) (env : Environment) (r : Report) :
    (s.afterReport numberText env r).texts r.detector =
      (r.findings numberText s.baseline).foldl settleText (s.texts r.detector) := by
  cases r with
  | throttle name gpus => exact openTexts_settleAll ..
  | ecc name gpus => exact openTexts_settleAll ..
  | nvme latest =>
    cases latest with
    | none => rfl
    | some devices => exact openTexts_settleAll ..
  | raid latest =>
    have hPass : (s.afterReport numberText env (.raid latest)).events =
        detectRaid env s.server latest s.events := rfl
    rw [Faults.texts, hPass, detectRaid_eq]
    exact openTexts_settleAll ..

theorem openTexts_settleAll_of_ne {env : Environment} {detector other : Text} {serverId : Nat}
    {serverName : Text} {events : Table AlertEvent} (hne : other ≠ detector)
    (findings : List Finding) :
    openTexts (findings.foldl (settle env detector serverId serverName) events) other serverId =
      openTexts events other serverId := by
  induction findings generalizing events with
  | nil => rfl
  | cons f findings ih =>
    rw [List.foldl_cons, ih]
    unfold settle
    split
    · exact openTexts_fire_of_ne (.inl hne)
    · exact openTexts_recover_of_ne (.inl hne)

theorem ItemDetector.name_injective : Function.Injective ItemDetector.name := by
  intro d d' h
  cases d <;> cases d' <;> first | rfl | exact absurd h (by decide)

theorem texts_afterReport_of_ne (s : Faults) (env : Environment) {r : Report} {d : ItemDetector}
    (hne : d ≠ r.detector) : (s.afterReport numberText env r).texts d = s.texts d := by
  have hName : d.name ≠ r.detector.name := fun h => hne (ItemDetector.name_injective h)
  cases r with
  | throttle name gpus => exact openTexts_settleAll_of_ne hName _
  | ecc name gpus => exact openTexts_settleAll_of_ne hName _
  | nvme latest =>
    cases latest with
    | none => rfl
    | some devices => exact openTexts_settleAll_of_ne hName _
  | raid latest =>
    have hPass : (s.afterReport numberText env (.raid latest)).events =
        detectRaid env s.server latest s.events := rfl
    rw [Faults.texts, hPass, detectRaid_eq]
    exact openTexts_settleAll_of_ne hName _

theorem found_afterReport (s : Faults) (env : Environment) (r : Report) :
    (s.afterReport numberText env r).found r.detector =
      s.found r.detector ++ r.findings numberText s.baseline :=
  Function.update_self ..

theorem found_afterReport_of_ne (s : Faults) (env : Environment) {r : Report} {d : ItemDetector}
    (hne : d ≠ r.detector) : (s.afterReport numberText env r).found d = s.found d :=
  Function.update_of_ne hne ..

theorem settled_step (hSettled : ∀ d, Settled (s.found d) (s.texts d))
    (hOk : SeparatedStep numberText s a) (h : faultStep numberText s a = some s') :
    ∀ d, Settled (s'.found d) (s'.texts d) := by
  intro d
  cases a with
  | register uuids =>
    cases h
    exact hSettled d
  | elsewhere events =>
    dsimp only [faultStep] at h
    split at h <;> cases h
    rename_i hAll
    have hSub := List.all_eq_true.mp hAll d (mem_allItemDetectors d)
    exact (hSettled d).sublist (List.isSublist_iff_sublist.mp hSub)
  | report env r =>
    cases h
    by_cases hd : d = r.detector
    · subst hd
      rw [texts_afterReport, found_afterReport]
      exact (settled_report (hSettled _) hOk).1
    · rw [texts_afterReport_of_ne s env hd, found_afterReport_of_ne s env hd]
      exact hSettled d

theorem settled_of_reach
    (h : Reach (faultStep numberText) FaultStart (SeparatedStep numberText) s) :
    ∀ d, Settled (s.found d) (s.texts d) := by
  refine h.invariant (fun t hStart d => ?_) fun _ _ _ hHere hOk hStep => settled_step hHere hOk hStep
  rw [hStart.noneOpen d, congrFun hStart.found d]
  exact settled_nil

/-- In every run, with events being closed by anyone in between: after a report each of its items
has exactly one open event if the last that was found about it is a problem, and none otherwise;
and at no time is an event open whose item was last found to be in order. -/
theorem open_iff_last_report
    (h : Reach (faultStep numberText) FaultStart (SeparatedStep numberText) s) :
    (∀ d, ∀ f ∈ s.found d, alarmed (s.found d) f.key = false →
      (s.texts d).countP (matchesKey f.key) = 0) ∧
    ∀ env r, SeparatedStep numberText s (.report env r) →
      ∀ f ∈ r.findings numberText s.baseline,
        ((s.afterReport numberText env r).texts r.detector).countP (matchesKey f.key) =
          (alarmed (s.found r.detector ++ r.findings numberText s.baseline) f.key).toNat := by
  have hSettled := settled_of_reach h
  constructor
  · intro d f hf hOrder
    have hCount := (hSettled d).count f hf
    rw [hOrder] at hCount
    exact Nat.le_zero.mp hCount
  · intro env r hOk f hf
    rw [texts_afterReport]
    exact (settled_report (hSettled r.detector) hOk).2 f hf

/-! ## The highest reading -/

/-- The highest of the readings of a GPU. -/
def peak (readings : List (Text × Int)) (uuid : Text) : Option Int :=
  ((readings.filter fun p => p.1 = uuid).map Prod.snd).max?

theorem mem_readings_iff {readings : List (Text × Int)} {uuid : Text} {n : Int} :
    n ∈ (readings.filter fun p => p.1 = uuid).map Prod.snd ↔ (uuid, n) ∈ readings := by
  simp

theorem peak_concat_of_ne {readings : List (Text × Int)} {uuid : Text} {p : Text × Int}
    (h : p.1 ≠ uuid) : peak (readings ++ [p]) uuid = peak readings uuid := by
  rw [peak, List.filter_append, List.filter_singleton, decide_eq_false h]
  simp [peak]

theorem peak_concat_none {readings : List (Text × Int)} {uuid : Text} (h : peak readings uuid = none)
    (n : Int) : peak (readings ++ [(uuid, n)]) uuid = some n := by
  have hNil := List.max?_eq_none_iff.mp h
  rw [peak, List.filter_append, List.map_append, hNil]
  simp

theorem peak_concat_some {readings : List (Text × Int)} {uuid : Text} {m : Int}
    (h : peak readings uuid = some m) (n : Int) :
    peak (readings ++ [(uuid, n)]) uuid = some (max m n) := by
  obtain ⟨hMem, hMax⟩ := List.max?_eq_some_iff.mp h
  refine List.max?_eq_some_iff.mpr ⟨?_, fun x hx => ?_⟩
  · rw [mem_readings_iff, List.mem_append]
    rcases max_choice m n with hEq | hEq <;> rw [hEq]
    · exact .inl (mem_readings_iff.mp hMem)
    · exact .inr List.mem_cons_self
  · rw [mem_readings_iff, List.mem_append, List.mem_singleton] at hx
    rcases hx with hx | hx
    · exact (hMax x (mem_readings_iff.mpr hx)).trans (le_max_left m n)
    · cases hx
      exact le_max_right m n

/-- A number above the peak is above every reading, and there is one. -/
theorem exceeds_peak_iff {readings : List (Text × Int)} {uuid : Text} {n : Int} :
    (∃ m, peak readings uuid = some m ∧ m < n) ↔
      (∃ m, (uuid, m) ∈ readings) ∧ ∀ m, (uuid, m) ∈ readings → m < n := by
  constructor
  · rintro ⟨m, hPeak, hLt⟩
    obtain ⟨hMem, hMax⟩ := List.max?_eq_some_iff.mp hPeak
    exact ⟨⟨m, mem_readings_iff.mp hMem⟩,
      fun x hx => (hMax x (mem_readings_iff.mpr hx)).trans_lt hLt⟩
  · rintro ⟨⟨x, hx⟩, hAll⟩
    cases hPeak : peak readings uuid with
    | none =>
      rw [← mem_readings_iff, List.max?_eq_none_iff.mp hPeak] at hx
      cases hx
    | some m =>
      obtain ⟨hMem, -⟩ := List.max?_eq_some_iff.mp hPeak
      exact ⟨m, rfl, hAll m (mem_readings_iff.mp hMem)⟩

/-- What is stored for a GPU is the highest of its readings. -/
structure Peaks (baseline : EccBaseline) (readings : List (Text × Int)) : Prop where
  stored : ∀ uuid m, baseline.get? uuid = some m → m = peak readings uuid
  known : ∀ p ∈ readings, (baseline.get? p.1).isSome = true

theorem growth_isSome_iff {baseline : EccBaseline} {readings : List (Text × Int)}
    (h : Peaks baseline readings) {g : GpuHealth} (hUuid : g.uuid.getD [] ≠ [])
    (hKnown : baseline.contains (g.uuid.getD []) = true) :
    (compareTotal baseline g).2.isSome = true ↔
      ∃ m, peak readings (g.uuid.getD []) = some m ∧ m < g.total := by
  obtain ⟨stored, hGet⟩ := Option.isSome_iff_exists.mp ((Dict.contains_iff _ _).mp hKnown)
  have hStored := h.stored _ _ hGet
  unfold compareTotal
  simp only [if_neg hUuid, hGet]
  cases stored with
  | none => simp [← hStored]
  | some m =>
    dsimp only
    rw [← hStored]
    by_cases hLt : m < g.total <;> simp [hLt]

theorem contains_compareTotal (baseline : EccBaseline) (g : GpuHealth) (uuid : Text) :
    (compareTotal baseline g).1.contains uuid = baseline.contains uuid := by
  have hSet (value : Option Int) (hKnown : (baseline.get? (g.uuid.getD [])).isSome = true) :
      (baseline.set (g.uuid.getD []) value).contains uuid = baseline.contains uuid := by
    rw [Bool.eq_iff_iff, Dict.contains_iff, Dict.contains_iff, Dict.get?_set]
    split
    · rename_i hSame
      rw [hSame, hKnown]
      rfl
    · rfl
  unfold compareTotal
  dsimp only
  split
  · rfl
  · split
    · rfl
    · rename_i hGet
      exact hSet _ (by rw [hGet]; rfl)
    · rename_i hGet
      split
      · exact hSet _ (by rw [hGet]; rfl)
      · rfl

theorem readingsOf_congr {baseline baseline' : EccBaseline}
    (h : ∀ uuid, baseline'.contains uuid = baseline.contains uuid) (gpus : List GpuHealth) :
    readingsOf baseline' gpus = readingsOf baseline gpus := by
  unfold readingsOf
  simp only [h]

/-- One GPU: the baseline is the highest reading again. -/
theorem Peaks.turn {baseline : EccBaseline} {readings : List (Text × Int)}
    (h : Peaks baseline readings) {g : GpuHealth} (hSupported : g.eccSupported = true) :
    Peaks (compareTotal baseline g).1 (readings ++ readingsOf baseline [g]) := by
  have hStored (uuid : Text) (m : Option Int) (hGet : baseline.get? uuid = some m) :=
    h.stored uuid m hGet
  by_cases hRead : g.uuid.getD [] ≠ [] ∧ baseline.contains (g.uuid.getD []) = true
  · obtain ⟨hUuid, hKnown⟩ := hRead
    have hReadings : readingsOf baseline [g] = [(g.uuid.getD [], g.total)] := by
      simp [readingsOf, hSupported, hUuid, hKnown]
    obtain ⟨stored, hGet⟩ := Option.isSome_iff_exists.mp ((Dict.contains_iff _ _).mp hKnown)
    rw [hReadings]
    refine ⟨fun uuid m hm => ?_, fun p hp => ?_⟩
    · by_cases hSame : uuid = g.uuid.getD []
      · subst hSame
        have hOwn := hStored _ _ hGet
        unfold compareTotal at hm
        simp only [if_neg hUuid, hGet] at hm
        cases stored with
        | none =>
          dsimp only at hm
          rw [Dict.get?_set, if_pos rfl] at hm
          rw [peak_concat_none hOwn.symm, ← Option.some.inj hm]
        | some old =>
          dsimp only at hm
          rw [peak_concat_some hOwn.symm]
          split at hm
          · rename_i hLt
            rw [Dict.get?_set, if_pos rfl] at hm
            rw [← Option.some.inj hm, max_eq_right hLt.le]
          · rename_i hNot
            rw [hGet] at hm
            rw [← Option.some.inj hm, max_eq_left (not_lt.mp hNot)]
      · rw [peak_concat_of_ne (Ne.symm hSame)]
        refine hStored uuid m ?_
        unfold compareTotal at hm
        simp only [if_neg hUuid, hGet] at hm
        cases stored with
        | none => simpa [Dict.get?_set, hSame] using hm
        | some old =>
          dsimp only at hm
          split at hm
          · simpa [Dict.get?_set, hSame] using hm
          · exact hm
    · rw [← Dict.contains_iff, contains_compareTotal, Dict.contains_iff]
      rcases List.mem_append.mp hp with hp | hp
      · exact h.known p hp
      · rw [List.mem_singleton.mp hp, hGet]
        rfl
  · have hReadings : readingsOf baseline [g] = [] := by
      simp only [readingsOf, List.filterMap_cons, List.filterMap_nil, hSupported, Bool.true_and]
      rw [if_neg (by simpa using hRead)]
    have hSame : (compareTotal baseline g).1 = baseline := by
      unfold compareTotal
      dsimp only
      split
      · rfl
      · rename_i hUuid
        have hNone : baseline.get? (g.uuid.getD []) = none := by
          rw [← Option.not_isSome_iff_eq_none, ← Dict.contains_iff]
          exact fun hKnown => hRead ⟨hUuid, hKnown⟩
        rw [hNone]
    rw [hReadings, List.append_nil, hSame]
    exact h

theorem eccFindings_of_not {baseline : EccBaseline} {g : GpuHealth} {gpus : List GpuHealth}
    (h : g.eccSupported = false) : eccFindings baseline (g :: gpus) = eccFindings baseline gpus := by
  rw [eccFindings, h]
  rfl

theorem eccFindings_cons {baseline : EccBaseline} {g : GpuHealth} {gpus : List GpuHealth}
    (h : g.eccSupported = true) : eccFindings baseline (g :: gpus) =
      ((eccFindings (compareTotal baseline g).1 gpus).1,
        eccFinding g (compareTotal baseline g).2 ::
          (eccFindings (compareTotal baseline g).1 gpus).2) := by
  rw [eccFindings, h]
  rfl

theorem readingsOf_cons (baseline : EccBaseline) (g : GpuHealth) (gpus : List GpuHealth) :
    readingsOf baseline (g :: gpus) = readingsOf baseline [g] ++ readingsOf baseline gpus := by
  unfold readingsOf
  rw [← List.filterMap_append]
  rfl

theorem readingsOf_of_not {baseline : EccBaseline} {g : GpuHealth} (h : g.eccSupported = false) :
    readingsOf baseline [g] = [] := by
  simp [readingsOf, h]

/-- A pass keeps the peaks and loses no GPU. -/
theorem Peaks.pass {baseline : EccBaseline} {readings : List (Text × Int)}
    (h : Peaks baseline readings) (gpus : List GpuHealth) :
    Peaks (eccFindings baseline gpus).1 (readings ++ readingsOf baseline gpus) ∧
      ∀ uuid, (eccFindings baseline gpus).1.contains uuid = baseline.contains uuid := by
  induction gpus generalizing baseline readings with
  | nil =>
    rw [readingsOf, List.filterMap_nil, List.append_nil]
    exact ⟨h, fun _ => rfl⟩
  | cons g gpus ih =>
    rw [readingsOf_cons, ← List.append_assoc]
    cases hSupported : g.eccSupported with
    | false =>
      rw [eccFindings_of_not hSupported, readingsOf_of_not hSupported, List.append_nil]
      exact ih h
    | true =>
      obtain ⟨hPeaks, hContains⟩ := ih (h.turn hSupported)
      rw [readingsOf_congr (contains_compareTotal baseline g)] at hPeaks
      rw [eccFindings_cons hSupported]
      exact ⟨hPeaks, fun uuid => (hContains uuid).trans (contains_compareTotal baseline g uuid)⟩

theorem eccFindings_append (baseline : EccBaseline) (before after : List GpuHealth) :
    (eccFindings baseline (before ++ after)).2 = (eccFindings baseline before).2 ++
      (eccFindings (eccFindings baseline before).1 after).2 := by
  induction before generalizing baseline with
  | nil => rfl
  | cons g before ih =>
    rw [List.cons_append]
    cases hSupported : g.eccSupported with
    | false => rw [eccFindings_of_not hSupported, eccFindings_of_not hSupported, ih]
    | true =>
      rw [eccFindings_cons hSupported, eccFindings_cons hSupported, ih]
      rfl

theorem key_of_mem_eccFindings {baseline : EccBaseline} {gpus : List GpuHealth} {f : Finding}
    (h : f ∈ (eccFindings baseline gpus).2) : ∃ g ∈ gpus, g.eccSupported = true ∧ f.key = eccKey g := by
  induction gpus generalizing baseline with
  | nil => cases h
  | cons g gpus ih =>
    cases hSupported : g.eccSupported with
    | false =>
      rw [eccFindings_of_not hSupported] at h
      obtain ⟨g', hg', hRest⟩ := ih h
      exact ⟨g', List.mem_cons_of_mem g hg', hRest⟩
    | true =>
      rw [eccFindings_cons hSupported] at h
      rcases List.mem_cons.mp h with rfl | h
      · exact ⟨g, List.mem_cons_self, hSupported, rfl⟩
      · obtain ⟨g', hg', hRest⟩ := ih h
        exact ⟨g', List.mem_cons_of_mem g hg', hRest⟩

theorem alarm_eccFinding_iff (g : GpuHealth) (growth : Option Int) :
    (eccFinding g growth).alarm.isSome = true ↔ 0 < g.volatile ∨ growth.isSome = true := by
  have hProblems : eccProblems g.volatile growth = [] ↔ ¬0 < g.volatile ∧ growth = none := by
    unfold eccProblems
    cases growth <;> by_cases hVolatile : 0 < g.volatile <;> simp [hVolatile]
  unfold eccFinding
  dsimp only
  by_cases hNone : eccProblems g.volatile growth = []
  · rw [if_pos hNone]
    obtain ⟨hVolatile, rfl⟩ := hProblems.mp hNone
    simpa using hVolatile
  · rw [if_neg hNone]
    refine iff_of_true rfl ?_
    by_contra hNot
    push Not at hNot
    exact hNone (hProblems.mpr ⟨not_lt.mpr hNot.1, by simpa using hNot.2⟩)

/-- The last finding about a key decides. -/
theorem alarmed_of_last {before after : List Finding} {f : Finding}
    (h : ∀ g ∈ after, g.key ≠ f.key) : alarmed (before ++ f :: after) f.key = f.alarm.isSome := by
  induction after using List.reverseRecOn with
  | nil => rw [alarmed_concat, if_pos rfl]
  | append_singleton after g ih =>
    rw [← List.cons_append, ← List.append_assoc, alarmed_concat,
      if_neg (h g (List.mem_append_right _ List.mem_cons_self))]
    exact ih fun x hx => h x (List.mem_append_left _ hx)

theorem peaks_register {baseline : EccBaseline} {readings : List (Text × Int)}
    (h : Peaks baseline readings) (uuid : Text) : Peaks (registerUuid baseline uuid) readings := by
  unfold registerUuid
  split
  · exact h
  · rename_i hNew
    rw [not_or] at hNew
    have hAbsent : ∀ p ∈ readings, p.1 ≠ uuid := by
      intro p hp hSame
      exact hNew.2 ((Dict.contains_iff _ _).mpr (hSame ▸ h.known p hp))
    refine ⟨fun other m hm => ?_, fun p hp => ?_⟩
    · rw [Dict.get?_set] at hm
      split at hm
      · rename_i hSame
        subst hSame
        cases Option.some.inj hm
        refine (List.max?_eq_none_iff.mpr (List.map_eq_nil_iff.mpr (List.filter_eq_nil_iff.mpr ?_))).symm
        intro p hp hEq
        exact hAbsent p hp (of_decide_eq_true hEq)
      · exact h.stored other m hm
    · rw [Dict.get?_set, if_neg (hAbsent p hp)]
      exact h.known p hp

theorem peaks_registerAll {baseline : EccBaseline} {readings : List (Text × Int)}
    (h : Peaks baseline readings) (uuids : List Text) :
    Peaks (uuids.foldl registerUuid baseline) readings := by
  induction uuids generalizing baseline with
  | nil => exact h
  | cons uuid uuids ih => exact ih (peaks_register h uuid)

theorem peaks_of_reach
    (h : Reach (faultStep numberText) FaultStart (SeparatedStep numberText) s) :
    Peaks s.baseline s.readings := by
  refine h.invariant (I := fun t => Peaks t.baseline t.readings) (fun t hStart => ?_)
    fun t a t' hPeaks _ hStep => ?_
  · rw [hStart.baseline, hStart.readings]
    exact ⟨nofun, nofun⟩
  · cases a with
    | elsewhere events =>
      dsimp only [faultStep] at hStep
      split at hStep <;> cases hStep
      exact hPeaks
    | register uuids =>
      cases hStep
      exact peaks_registerAll hPeaks uuids
    | report env r =>
      cases hStep
      have hNoReading : Peaks t.baseline (t.readings ++ []) := by
        rw [List.append_nil]
        exact hPeaks
      cases r with
      | ecc name gpus => exact (hPeaks.pass gpus).1
      | throttle name gpus => exact hNoReading
      | nvme latest => exact hNoReading
      | raid latest => exact hNoReading

/-- In every run: after a report a registered GPU has an open ECC event, and only one, exactly if
it has errors of this boot, or its counter was read before and exceeds every earlier reading. -/
theorem ecc_open_iff (h : Reach (faultStep numberText) FaultStart (SeparatedStep numberText) s)
    {env : Environment} {name : Text} {before after : List GpuHealth} {g : GpuHealth}
    (hOk : SeparatedStep numberText s (.report env (.ecc name (before ++ g :: after))))
    (hSupported : g.eccSupported = true) (hUuid : g.uuid.getD [] ≠ [])
    (hKnown : s.baseline.contains (g.uuid.getD []) = true)
    (hLast : ∀ g' ∈ after, eccKey g' ≠ g.uuid.getD []) :
    let earlier := s.readings ++ readingsOf s.baseline before
    let count := ((s.afterReport numberText env (.ecc name (before ++ g :: after))).texts .ecc).countP
      (matchesKey (g.uuid.getD []))
    count ≤ 1 ∧ (count = 1 ↔ 0 < g.volatile ∨ (∃ m, (g.uuid.getD [], m) ∈ earlier) ∧
      ∀ m, (g.uuid.getD [], m) ∈ earlier → m < g.total) := by
  intro earlier count
  obtain ⟨hPeaks, hContains⟩ := (peaks_of_reach h).pass before
  have hKey : eccKey g = g.uuid.getD [] := if_neg hUuid
  let growth := (compareTotal (eccFindings s.baseline before).1 g).2
  have hFindings : (eccFindings s.baseline (before ++ g :: after)).2 =
      (eccFindings s.baseline before).2 ++ eccFinding g growth ::
        (eccFindings (compareTotal (eccFindings s.baseline before).1 g).1 after).2 := by
    rw [eccFindings_append, eccFindings_cons hSupported]
  have hMem : eccFinding g growth ∈ (eccFindings s.baseline (before ++ g :: after)).2 := by
    rw [hFindings]
    exact List.mem_append_right _ List.mem_cons_self
  have hExact := (open_iff_last_report h).2 env _ hOk _ hMem
  have hAlarmed : alarmed (s.found .ecc ++ (eccFindings s.baseline (before ++ g :: after)).2)
      (eccFinding g growth).key = (eccFinding g growth).alarm.isSome := by
    rw [hFindings, ← List.append_assoc]
    refine alarmed_of_last fun f hf => ?_
    obtain ⟨g', hg', -, hOther⟩ := key_of_mem_eccFindings hf
    rw [hOther]
    exact fun hSame => hLast g' hg' (hSame.trans hKey)
  have hCount : count = ((eccFinding g growth).alarm.isSome).toNat := by
    change List.countP (matchesKey (g.uuid.getD [])) _ = _
    rw [← hAlarmed, ← hKey]
    exact hExact
  have hGrowth : growth.isSome = true ↔ _ :=
    growth_isSome_iff hPeaks hUuid ((hContains _).trans hKnown)
  rw [hCount]
  refine ⟨Bool.toNat_le _, ?_⟩
  rw [Bool.toNat_eq_one, alarm_eccFinding_iff, hGrowth, exceeds_peak_iff]

end Run

/-! ## A counter that grows -/

/-- A GPU with a counter. -/
def countingGpu (total : Int) : GpuHealth where
  index := some 0
  uuid := some "GPU-a"
  eccSupported := true
  eccUncorrectedTotal := some total

def freshFaults : Faults where
  server := { id := 3, name := "gpu-3" }
  baseline := Dict.empty
  events := .empty

theorem freshFaults_start : FaultStart freshFaults :=
  ⟨rfl, rfl, rfl, fun d => by cases d <;> rfl⟩

/-- The findings about one item are separated. -/
theorem separated_of_one {findings : List Finding} {key : Text} (h : ∀ f ∈ findings, f.key = key) :
    Separated findings :=
  fun f hf g hg hne => absurd ((h g hg).trans (h f hf).symm) hne

/-- The GPU is registered, and its counter is read for the first time. -/
def readOnce : Faults :=
  ({ freshFaults with baseline := registerUuid Dict.empty "GPU-a" } : Faults).afterReport
    (fun _ => []) quietClock (.ecc "gpu-3" [countingGpu 5])

theorem reach_readOnce :
    Reach (faultStep fun _ => []) FaultStart (SeparatedStep fun _ => []) readOnce := by
  have hStart : Reach (faultStep fun _ => []) FaultStart (SeparatedStep fun _ => []) freshFaults :=
    .start freshFaults_start
  have hFree : SeparatedStep (fun _ => []) freshFaults (.register ["GPU-a"]) := trivial
  refine (hStart.next hFree rfl).next (a := .report quietClock (.ecc "gpu-3" [countingGpu 5])) ?_ rfl
  exact @separated_of_one _ "GPU-a" (by decide +kernel)

theorem ecc_open_iff_countingGpu : ∃ s : Faults,
    (s.texts .ecc).countP (matchesKey "GPU-a") = 1 := by
  have hOk : SeparatedStep (fun _ => []) readOnce
      (.report quietClock (.ecc "gpu-3" ([] ++ countingGpu 7 :: []))) :=
    @separated_of_one _ "GPU-a" (by decide +kernel)
  have hOpen := ecc_open_iff reach_readOnce hOk rfl (List.cons_ne_nil _ _) (by decide +kernel)
    (fun _ h => absurd h List.not_mem_nil)
  refine ⟨_, hOpen.2.mpr (.inr ?_)⟩
  have hEarlier : readOnce.readings ++ readingsOf readOnce.baseline [] =
      [("GPU-a".toList, (5 : Int))] := by
    decide +kernel
  rw [hEarlier]
  refine ⟨⟨5, List.mem_cons_self⟩, fun m hm => ?_⟩
  cases List.mem_singleton.mp hm
  decide

/-- A GPU that slows down because it is hot. -/
def hotGpu : GpuHealth := { countingGpu 7 with throttleReasons := ["SW_THERMAL_SLOWDOWN"] }

theorem open_iff_last_report_hotGpu : ∃ s : Faults,
    (s.texts .throttle).countP (matchesKey "GPU-a") = 1 := by
  have hOk : SeparatedStep (fun _ => []) readOnce (.report quietClock (.throttle "gpu-3" [hotGpu])) :=
    @separated_of_one _ "GPU-a" (by decide +kernel)
  have hOpen := (open_iff_last_report reach_readOnce).2 quietClock (.throttle "gpu-3" [hotGpu]) hOk
    (throttleFinding (fun _ => []) hotGpu) List.mem_cons_self
  exact ⟨_, hOpen⟩

/-! ## Failed services -/

def serviceMessage (failed : List Text) : Text :=
  natText failed.length ++ " 个 systemd 单元失败: ".toList ++ join ", " (failed.take 5)

/-- `_detect_services`, on the units that the latest slow sample lists. -/
def detectServices (env : Environment) (server : Server) (latest : Option (List Text))
    (events : Table AlertEvent) : Table AlertEvent :=
  match latest with
  | none => events
  | some failed =>
    if failed = [] then recover env events "SERVICE_FAILED" server.id []
    else match openEvent events "SERVICE_FAILED" server.id [] with
      | some ev =>
        if ev.message ≠ serviceMessage failed then
          events.modify ev.id (fun ev => { ev with message := serviceMessage failed }) fun _ => rfl
        else events
      | none =>
        fire env events "SERVICE_FAILED" server.id server.name (serviceMessage failed) 0 0 []

section Services

variable {env : Environment} {server : Server} {events : Table AlertEvent} {failed : List Text}

theorem matchesKey_nil (text : Text) : matchesKey [] text = true := rfl

/-- The texts after the message of an event was rewritten. -/
theorem openTexts_rewrite {detector : Text} {serverId : Nat} {ev : AlertEvent} {message : Text}
    {before after : List AlertEvent} (hRows : events.rows = before ++ ev :: after)
    (hOpen : isOpenOf detector serverId ev = true) :
    openTexts (events.modify ev.id (fun ev => { ev with message }) fun _ => rfl) detector serverId =
      (before.filter (isOpenOf detector serverId)).map AlertEvent.message ++
        message :: (after.filter (isOpenOf detector serverId)).map AlertEvent.message := by
  have hNew : (events.modify (Keyed.key ev) (fun ev => { ev with message }) fun _ => rfl).rows =
      before ++ { ev with message } :: after := Table.rows_modify hRows
  have hStill : isOpenOf detector serverId { ev with message } = true := hOpen
  unfold openTexts
  change ((events.modify (Keyed.key ev) _ _).rows.filter _).map _ = _
  rw [hNew, List.filter_append, List.filter_cons_of_pos hStill, List.map_append]
  rfl

/-- With at most one open event, the texts after a pass are what the slow sample says. -/
theorem openTexts_detectServices
    (hOne : (openTexts events "SERVICE_FAILED" server.id).length ≤ 1) :
    openTexts (detectServices env server (some failed) events) "SERVICE_FAILED" server.id =
      if failed = [] then [] else [serviceMessage failed] := by
  unfold detectServices
  dsimp only
  by_cases hNone : failed = []
  · rw [if_pos hNone, if_pos hNone, openTexts_recover]
    match hTexts : openTexts events "SERVICE_FAILED" server.id, hOne with
    | [], _ => rfl
    | [t], _ => exact List.eraseP_cons_of_pos (matchesKey_nil t)
  · rw [if_neg hNone, if_neg hNone]
    split
    · rename_i ev hFound
      obtain ⟨hOpen, -, before, after, hRows, -⟩ := openEvent_eq_some hFound
      have hSplit : openTexts events "SERVICE_FAILED" server.id =
          (before.filter (isOpenOf "SERVICE_FAILED" server.id)).map AlertEvent.message ++
            ev.message :: (after.filter (isOpenOf "SERVICE_FAILED" server.id)).map
              AlertEvent.message := by
        rw [openTexts, hRows, List.filter_append, List.filter_cons_of_pos hOpen, List.map_append]
        rfl
      rw [hSplit, List.length_append, List.length_cons] at hOne
      have hBefore : (before.filter (isOpenOf "SERVICE_FAILED" server.id)).map
          AlertEvent.message = [] := List.eq_nil_of_length_eq_zero (by omega)
      have hAfter : (after.filter (isOpenOf "SERVICE_FAILED" server.id)).map
          AlertEvent.message = [] := List.eq_nil_of_length_eq_zero (by omega)
      split
      · rw [openTexts_rewrite hRows hOpen, hBefore, hAfter]
        rfl
      · rename_i hSame
        rw [hSplit, hBefore, hAfter, not_not.mp hSame]
        rfl
    · rename_i hFound
      have hEmpty : openTexts events "SERVICE_FAILED" server.id = [] := by
        rw [List.eq_nil_iff_forall_not_mem]
        intro t ht
        have hAny := openEvent_isSome_iff.mpr (List.any_eq_true.mpr ⟨t, ht, matchesKey_nil t⟩)
        rw [hFound] at hAny
        cases hAny
      rw [openTexts_fire, hEmpty]
      rfl

end Services

end GpuMon.Detectors

import GpuMon.Detectors.OpenTexts
import GpuMon.Library.Runs

/-!
# Missing GPUs over runs of polls (`update_gpu_baseline`, `_detect_gpu_missing`)

A successful poll registers the GPUs of its sample, which also clears their `missing_since`, and
runs the detectors; during maintenance the first part goes on and the second is silent. So what
is missing is told by two pieces of state: `missing_since` and the open events.

* `inv_step`: a card marked missing has an open event, and only cards of the baseline have one.
* `missing_open_iff`: after a pass the open events are those of the missing cards, one each, in
  every run whose passes find no card in the event of another.
* `named_card_unreported`: a card with the key of another in its name goes missing unreported.
-/

namespace GpuMon.Detectors

open PyText

/-! ## The baseline -/

section Baseline

variable {ν : Type}

/-- The value of a key, or what is stored when it is missing or empty. -/
def orStored (new : Option Text) (stored : Text) : Text :=
  if new.getD [] = [] then stored else new.getD []

/-- The row of a GPU that is listed again. -/
def refreshRow (now : Int) (g : Gpu ν) (b : GpuBaseline) : GpuBaseline :=
  { b with
    lastSeen := now
    missingSince := none
    name := orStored g.name b.name
    serial := orStored g.serial b.serial
    pciBusId := orStored g.pciBusId b.pciBusId }

/-- The row of a GPU that is listed for the first time. -/
def newRow (serverId : Nat) (now : Int) (uuid : Text) (g : Gpu ν) : GpuBaseline where
  serverId
  gpuUuid := uuid
  name := g.name.getD []
  serial := g.serial.getD []
  pciBusId := g.pciBusId.getD []
  lastSeen := now

/-- One turn of the loop of `update_gpu_baseline`; a GPU without a uuid was filtered out. -/
def registerGpu (serverId : Nat) (now : Int) (rows : List GpuBaseline) (g : Gpu ν) :
    List GpuBaseline :=
  match validUuid g with
  | none => rows
  | some uuid =>
    if uuid ∈ rows.map GpuBaseline.gpuUuid then
      rows.map fun b => if b.gpuUuid = uuid then refreshRow now g b else b
    else rows ++ [newRow serverId now uuid g]

/-- `update_gpu_baseline`, on the rows of the server; no two of them have one uuid. -/
def updateGpuBaseline (serverId : Nat) (now : Int) (gpus : List (Gpu ν))
    (rows : List GpuBaseline) : List GpuBaseline :=
  gpus.foldl (registerGpu serverId now) rows

end Baseline

/-! ## Polls -/

/-- `run_detectors` after a sample with the status `ok`, as far as missing GPUs go. -/
def runDetectors (env : Environment) (server : Server) (hostname : Text) (gpus : List (Gpu ℚ))
    (rows : List GpuBaseline) (events : Table AlertEvent) :
    List GpuBaseline × Table AlertEvent :=
  if server.status = .maintenance then (rows, events)
  else detectGpuMissing env server hostname gpus rows events

/-- One server and the events. `listed` has the uuids of all successful polls so far. -/
structure Watch where
  server : Server
  baseline : List GpuBaseline
  events : Table AlertEvent
  listed : List Text

inductive WatchAction
  | okPoll (env : Environment) (hostname : Text) (gpus : List (Gpu ℚ))
  | errorPoll
  | setStatus (status : ServerStatus)
  /-- Anything else: other detectors, other servers, rules and their events. -/
  | elsewhere (events : Table AlertEvent)

/-- A uuid that is not empty and has no bracket and no wildcard. -/
def plainUuid (uuid : Text) : Bool :=
  uuid ≠ [] && uuid.all fun c => c ∉ ['[', ']', '%', '_']

/-- The uuids of the sample are plain. -/
def plainSample (gpus : List (Gpu ℚ)) : Bool :=
  gpus.all fun g => (g.uuid.map plainUuid).getD true

def Watch.afterPoll (w : Watch) (env : Environment) (hostname : Text) (gpus : List (Gpu ℚ)) :
    Watch :=
  let rows := updateGpuBaseline w.server.id env.now gpus w.baseline
  let pass := runDetectors env w.server hostname gpus rows w.events
  { w with baseline := pass.1, events := pass.2, listed := w.listed ++ validUuids gpus }

/-- The texts of the open events of missing cards. -/
def Watch.missingTexts (w : Watch) : List Text := openTexts w.events "GPU_MISSING" w.server.id

/-- One step of a run. A failed poll stores its sample and changes nothing here. -/
def watchStep (w : Watch) : WatchAction → Option Watch
  | .okPoll env hostname gpus =>
    if plainSample gpus then some (w.afterPoll env hostname gpus) else none
  | .errorPoll => some w
  | .setStatus status => some { w with server := { w.server with status } }
  | .elsewhere events =>
    if openTexts events "GPU_MISSING" w.server.id = w.missingTexts then some { w with events }
    else none

/-- No GPU was listed and none has an open event. -/
structure WatchStart (w : Watch) : Prop where
  baseline : w.baseline = []
  listed : w.listed = []
  noneOpen : w.missingTexts = []

/-- An open event for the card. -/
def MissingEvent (events : Table AlertEvent) (serverId : Nat) (uuid : Text) (ev : AlertEvent) :
    Prop :=
  ev ∈ events.rows ∧ ∃ message, FiredWith "GPU_MISSING" serverId uuid message ev

/-! ## Registration -/

section Registration

variable {ν : Type} {serverId : Nat} {now : Int} {rows : List GpuBaseline} {gpus : List (Gpu ν)}

theorem uuids_registerGpu (g : Gpu ν) :
    (registerGpu serverId now rows g).map GpuBaseline.gpuUuid =
      rows.map GpuBaseline.gpuUuid ++
        (validUuid g).toList.filter fun uuid => uuid ∉ rows.map GpuBaseline.gpuUuid := by
  unfold registerGpu
  cases validUuid g with
  | none => exact (List.append_nil _).symm
  | some uuid =>
    by_cases hKnown : uuid ∈ rows.map GpuBaseline.gpuUuid
    · simp only [if_pos hKnown, Option.toList_some, List.map_map]
      rw [List.filter_cons_of_neg (by simpa using hKnown), List.filter_nil, List.append_nil]
      refine List.map_congr_left fun b _ => ?_
      change (if b.gpuUuid = uuid then refreshRow now g b else b).gpuUuid = b.gpuUuid
      split <;> rfl
    · simp only [if_neg hKnown, Option.toList_some, List.map_append]
      rw [List.filter_cons_of_pos (by simpa using hKnown)]
      rfl

theorem exists_uuids_update : ∃ new,
    (updateGpuBaseline serverId now gpus rows).map GpuBaseline.gpuUuid =
      rows.map GpuBaseline.gpuUuid ++ new := by
  unfold updateGpuBaseline
  induction gpus generalizing rows with
  | nil => exact ⟨[], (List.append_nil _).symm⟩
  | cons g gpus ih =>
    obtain ⟨new, hNew⟩ := @ih (registerGpu serverId now rows g)
    rw [uuids_registerGpu, List.append_assoc] at hNew
    exact ⟨_, hNew⟩

theorem mem_uuids_update {uuid : Text} :
    uuid ∈ (updateGpuBaseline serverId now gpus rows).map GpuBaseline.gpuUuid ↔
      uuid ∈ rows.map GpuBaseline.gpuUuid ∨ uuid ∈ validUuids gpus := by
  unfold updateGpuBaseline validUuids
  induction gpus generalizing rows with
  | nil => simp
  | cons g gpus ih =>
    rw [List.foldl_cons, ih, uuids_registerGpu, List.mem_append, or_assoc]
    by_cases hKnown : uuid ∈ rows.map GpuBaseline.gpuUuid
    · exact iff_of_true (.inl hKnown) (.inl hKnown)
    · refine or_congr_right ?_
      cases hValid : validUuid g with
      | none => simp [hValid]
      | some other =>
        rw [List.filterMap_cons_some hValid, List.mem_cons, Option.toList_some, List.mem_filter,
          List.mem_singleton]
        refine or_congr_left ⟨And.left, fun h => ⟨h, ?_⟩⟩
        simpa [← h] using hKnown

theorem nodup_update (hNodup : (rows.map GpuBaseline.gpuUuid).Nodup) :
    ((updateGpuBaseline serverId now gpus rows).map GpuBaseline.gpuUuid).Nodup := by
  unfold updateGpuBaseline
  induction gpus generalizing rows with
  | nil => exact hNodup
  | cons g gpus ih =>
    refine ih ?_
    rw [uuids_registerGpu, List.nodup_append]
    refine ⟨hNodup, ?_, ?_⟩
    · cases validUuid g with
      | none => exact List.nodup_nil
      | some uuid => exact (List.nodup_singleton uuid).filter _
    · intro uuid hOld other hNew hSame
      subst hSame
      simpa [hOld] using (List.mem_filter.mp hNew).2

/-- A row after the update is new or refreshed, or it is an old row that was not listed. -/
theorem mem_update {b : GpuBaseline} (h : b ∈ updateGpuBaseline serverId now gpus rows) :
    (b.missingSince = none ∧ b.gpuUuid ∈ validUuids gpus) ∨
      (b ∈ rows ∧ b.gpuUuid ∉ validUuids gpus) := by
  unfold updateGpuBaseline at h
  induction gpus generalizing rows with
  | nil => exact .inr ⟨h, List.not_mem_nil⟩
  | cons g gpus ih =>
    have hCons : validUuids (g :: gpus) = (validUuid g).toList ++ validUuids gpus := by
      unfold validUuids
      cases hValid : validUuid g with
      | none => rw [List.filterMap_cons_none hValid]; rfl
      | some uuid => rw [List.filterMap_cons_some hValid]; rfl
    rw [hCons, List.mem_append, not_or]
    rcases ih h with ⟨hNone, hListed⟩ | ⟨hRow, hLater⟩
    · exact .inl ⟨hNone, .inr hListed⟩
    unfold registerGpu at hRow
    cases hValid : validUuid g with
    | none =>
      rw [hValid] at hRow
      exact .inr ⟨hRow, List.not_mem_nil, hLater⟩
    | some uuid =>
      rw [hValid] at hRow
      simp only [Option.toList_some, List.mem_singleton]
      dsimp only at hRow
      split at hRow
      · obtain ⟨old, hOld, rfl⟩ := List.mem_map.mp hRow
        split at hLater <;> rename_i hSame
        · rw [if_pos hSame]
          exact .inl ⟨rfl, .inl hSame⟩
        · rw [if_neg hSame]
          exact .inr ⟨hOld, hSame, hLater⟩
      · rename_i hUnknown
        rcases List.mem_append.mp hRow with hOld | hNew
        · refine .inr ⟨hOld, fun hSame => hUnknown ?_, hLater⟩
          exact hSame ▸ List.mem_map_of_mem hOld
        · obtain rfl := List.mem_singleton.mp hNew
          exact .inl ⟨rfl, .inl rfl⟩

end Registration

/-! ## One pass -/

/-- The text of an open event, from its key and its message. -/
def pairText (p : Text × Text) : Text := keyedMessage p.1 p.2

/-- The open events of missing cards, with the key and the message of each. -/
structure Holds (events : Table AlertEvent) (serverId : Nat) (pairs : List (Text × Text)) :
    Prop where
  texts : openTexts events "GPU_MISSING" serverId = pairs.map pairText
  nodup : (pairs.map Prod.fst).Nodup

/-- The pass asks for the event of a card. -/
def Asks (seen : List (Option Text)) (b : GpuBaseline) : Prop :=
  some b.gpuUuid ∈ seen ∨ b.missingSince = none

/-- The pass opens an event for a card. -/
def Opens (seen : List (Option Text)) (b : GpuBaseline) : Prop :=
  some b.gpuUuid ∉ seen ∧ b.missingSince = none

theorem eraseP_key {pairs : List (Text × Text)} {q : Text × Text → Bool} {key : Text}
    (hNodup : (pairs.map Prod.fst).Nodup) (hq : ∀ p ∈ pairs, q p = true ↔ p.1 = key) :
    pairs.eraseP q = pairs.filter fun p => p.1 ≠ key := by
  induction pairs with
  | nil => rfl
  | cons p pairs ih =>
    rw [List.map_cons, List.nodup_cons] at hNodup
    have hHead := hq p List.mem_cons_self
    by_cases hKey : p.1 = key
    · rw [List.eraseP_cons_of_pos (hHead.mpr hKey), List.filter_cons_of_neg (by simpa using hKey)]
      refine (List.filter_eq_self.mpr fun x hx => ?_).symm
      have hNe : x.1 ≠ key := fun h => hNodup.1 (hKey ▸ h ▸ List.mem_map_of_mem hx)
      simpa using hNe
    · rw [List.eraseP_cons_of_neg (fun h => hKey (hHead.mp h)),
        List.filter_cons_of_pos (by simpa using hKey),
        ih hNodup.2 fun x hx => hq x (List.mem_cons_of_mem p hx)]

section Pass

variable {env : Environment} {server : Server} {hostname : Text} {seen : List (Option Text)}
  {events : Table AlertEvent} {pairs : List (Text × Text)}

/-- Among the open events the key finds its own and no other. -/
def FindsOwn (pairs : List (Text × Text)) (uuid : Text) : Prop :=
  ∀ p ∈ pairs, p.1 ≠ uuid → ¬ Confused uuid p.1 p.2

theorem FindsOwn.matches_iff {uuid : Text} (hFinds : FindsOwn pairs uuid) {p : Text × Text}
    (hp : p ∈ pairs) : matchesKey uuid (pairText p) = true ↔ p.1 = uuid := by
  rw [pairText, matchesKey_keyedMessage_iff]
  constructor
  · intro hConfused
    by_contra hNe
    exact hFinds p hp hNe hConfused
  · intro hSame
    rw [← hSame, ← matchesKey_keyedMessage_iff]
    exact matchesKey_self p.1 p.2

theorem holds_recover {uuid : Text} (hHolds : Holds events server.id pairs)
    (hFinds : FindsOwn pairs uuid) :
    Holds (recover env events "GPU_MISSING" server.id uuid) server.id
      (pairs.filter fun p => p.1 ≠ uuid) := by
  have hErase : pairs.eraseP (matchesKey uuid ∘ pairText) = pairs.filter fun p => p.1 ≠ uuid :=
    eraseP_key hHolds.nodup fun p hp => hFinds.matches_iff hp
  constructor
  · rw [openTexts_recover, hHolds.texts, List.eraseP_map, hErase]
  · exact hHolds.nodup.sublist (List.filter_sublist.map Prod.fst)

theorem holds_fire_known {uuid message serverName : Text} (hHolds : Holds events server.id pairs)
    (hFinds : FindsOwn pairs uuid) (hKnown : uuid ∈ pairs.map Prod.fst) :
    Holds (fire env events "GPU_MISSING" server.id serverName message 0 0 uuid) server.id
      pairs := by
  obtain ⟨p, hp, hKey⟩ := List.mem_map.mp hKnown
  refine ⟨?_, hHolds.nodup⟩
  rw [openTexts_fire, fireText, if_pos, hHolds.texts]
  rw [List.any_eq_true, hHolds.texts]
  exact ⟨pairText p, List.mem_map_of_mem hp, (hFinds.matches_iff hp).mpr hKey⟩

theorem holds_fire_new {uuid message serverName : Text} (hHolds : Holds events server.id pairs)
    (hFinds : FindsOwn pairs uuid) (hNew : uuid ∉ pairs.map Prod.fst) :
    Holds (fire env events "GPU_MISSING" server.id serverName message 0 0 uuid) server.id
      (pairs ++ [(uuid, message)]) := by
  constructor
  · rw [openTexts_fire, hHolds.texts, fireText, if_neg, List.map_append]
    · rfl
    · rw [List.any_map, List.any_eq_true]
      rintro ⟨p, hp, hMatch⟩
      exact hNew ((hFinds.matches_iff hp).mp hMatch ▸ List.mem_map_of_mem hp)
  · rw [List.map_append, List.map_singleton, List.nodup_append]
    refine ⟨hHolds.nodup, List.nodup_singleton _, ?_⟩
    intro other hOther uuid' hUuid hSame
    rw [List.mem_singleton] at hUuid
    rw [hSame, hUuid] at hOther
    exact hNew hOther

/-- What looking for one card does to the open events, when no other card is found instead. -/
theorem holds_row (env : Environment) (hostname : Text) {b : GpuBaseline}
    (hHolds : Holds events server.id pairs)
    (hMarked : b.missingSince ≠ none → b.gpuUuid ∈ pairs.map Prod.fst)
    (hFinds : Asks seen b → FindsOwn pairs b.gpuUuid) :
    ∃ pairs', Holds (detectGpuMissingRow env server hostname seen b events).2 server.id pairs' ∧
      (∀ p ∈ pairs', p ∈ pairs ∨ Opens seen b ∧ p = (b.gpuUuid, missingMessage b)) ∧
      ∀ uuid, uuid ∈ pairs'.map Prod.fst ↔
        (uuid ≠ b.gpuUuid ∧ uuid ∈ pairs.map Prod.fst) ∨
          (uuid = b.gpuUuid ∧ some b.gpuUuid ∉ seen) := by
  unfold detectGpuMissingRow
  by_cases hSeen : some b.gpuUuid ∈ seen
  · rw [if_pos hSeen]
    refine ⟨_, holds_recover hHolds (hFinds (.inl hSeen)), fun p hp => ?_, fun uuid => ?_⟩
    · exact .inl (List.mem_filter.mp hp).1
    · simp only [List.mem_map, List.mem_filter, decide_eq_true_eq]
      constructor
      · rintro ⟨p, ⟨hp, hNe⟩, rfl⟩
        exact .inl ⟨hNe, p, hp, rfl⟩
      · rintro (⟨hNe, p, hp, rfl⟩ | ⟨-, hAbsent⟩)
        · exact ⟨p, ⟨hp, hNe⟩, rfl⟩
        · exact absurd hSeen hAbsent
  rw [if_neg hSeen]
  by_cases hKnown : b.gpuUuid ∈ pairs.map Prod.fst
  · -- the card is missing and has its event already
    have hUuids : ∀ uuid, uuid ∈ pairs.map Prod.fst ↔
        (uuid ≠ b.gpuUuid ∧ uuid ∈ pairs.map Prod.fst) ∨
          (uuid = b.gpuUuid ∧ some b.gpuUuid ∉ seen) := by
      intro uuid
      by_cases hUuid : uuid = b.gpuUuid
      · subst hUuid
        exact iff_of_true hKnown (.inr ⟨rfl, hSeen⟩)
      · simp [hUuid]
    split
    · rename_i hNone
      have hAsks : Asks seen b := .inr (by simpa using hNone)
      exact ⟨_, holds_fire_known hHolds (hFinds hAsks) hKnown, fun p hp => .inl hp, hUuids⟩
    · exact ⟨_, hHolds, fun p hp => .inl hp, hUuids⟩
  · -- the card is missing for the first time
    have hNone : b.missingSince = none := by
      by_contra hSome
      exact hKnown (hMarked hSome)
    rw [if_pos (by rw [hNone]; rfl)]
    refine ⟨_, holds_fire_new hHolds (hFinds (.inr hNone)) hKnown, fun p hp => ?_, fun uuid => ?_⟩
    · rcases List.mem_append.mp hp with hp | hp
      · exact .inl hp
      · exact .inr ⟨⟨hSeen, hNone⟩, List.mem_singleton.mp hp⟩
    · rw [List.map_append, List.mem_append, List.map_singleton, List.mem_singleton]
      constructor
      · rintro (h | rfl)
        · exact .inl ⟨fun hSame => hKnown (hSame ▸ h), h⟩
        · exact .inr ⟨rfl, hSeen⟩
      · rintro (⟨-, h⟩ | ⟨rfl, -⟩)
        · exact .inl h
        · exact .inr rfl

/-- The events that a pass opens for some of its rows. -/
def openedPairs (seen : List (Option Text)) (rows : List GpuBaseline) : List (Text × Text) :=
  (rows.filter fun c => some c.gpuUuid ∉ seen ∧ c.missingSince = none).map
    fun c => (c.gpuUuid, missingMessage c)

theorem mem_openedPairs {rows : List GpuBaseline} {p : Text × Text} :
    p ∈ openedPairs seen rows ↔
      ∃ c ∈ rows, Opens seen c ∧ p = (c.gpuUuid, missingMessage c) := by
  simp only [openedPairs, List.mem_map, List.mem_filter, decide_eq_true_eq]
  constructor
  · rintro ⟨c, ⟨hc, hOpens⟩, rfl⟩
    exact ⟨c, hc, hOpens, rfl⟩
  · rintro ⟨c, hc, hOpens, rfl⟩
    exact ⟨c, ⟨hc, hOpens⟩, rfl⟩

/-- No card that a pass asks for is found in the event of another, open before the pass or
opened by it. -/
def PassClear (seen : List (Option Text)) (rows : List GpuBaseline)
    (pairs : List (Text × Text)) : Prop :=
  ∀ before b after, rows = before ++ b :: after → Asks seen b →
    FindsOwn (pairs ++ openedPairs seen before) b.gpuUuid

/-- What a pass does to the open events and the marks. -/
theorem holds_pass (env : Environment) (hostname : Text) {gpus : List (Gpu ℚ)}
    {rows : List GpuBaseline}
    (hHolds : Holds events server.id pairs) (hNodup : (rows.map GpuBaseline.gpuUuid).Nodup)
    (hMarked : ∀ b ∈ rows, b.missingSince ≠ none → b.gpuUuid ∈ pairs.map Prod.fst)
    (hClear : PassClear (gpus.map Gpu.uuid) rows pairs) :
    ∃ pairs', Holds (detectGpuMissing env server hostname gpus rows events).2 server.id pairs' ∧
      ∀ uuid, uuid ∈ pairs'.map Prod.fst ↔
        (uuid ∉ rows.map GpuBaseline.gpuUuid ∧ uuid ∈ pairs.map Prod.fst) ∨
          (uuid ∈ rows.map GpuBaseline.gpuUuid ∧ some uuid ∉ gpus.map Gpu.uuid) := by
  induction rows generalizing events pairs with
  | nil => exact ⟨pairs, hHolds, fun uuid => by simp⟩
  | cons b rows ih =>
    rw [List.map_cons, List.nodup_cons] at hNodup
    obtain ⟨hFirst, hRest⟩ := hNodup
    have hFinds : Asks (gpus.map Gpu.uuid) b → FindsOwn pairs b.gpuUuid := by
      intro hAsks p hp
      exact hClear [] b rows rfl hAsks p (List.mem_append_left _ hp)
    obtain ⟨pairs', hHolds', hSub, hUuids⟩ :=
      holds_row env hostname hHolds (hMarked b List.mem_cons_self) hFinds
    have hMarked' : ∀ c ∈ rows, c.missingSince ≠ none → c.gpuUuid ∈ pairs'.map Prod.fst := by
      intro c hc hSome
      have hNe : c.gpuUuid ≠ b.gpuUuid := fun h => hFirst (h ▸ List.mem_map_of_mem hc)
      exact (hUuids _).mpr (.inl ⟨hNe, hMarked c (List.mem_cons_of_mem b hc) hSome⟩)
    have hClear' : PassClear (gpus.map Gpu.uuid) rows pairs' := by
      intro before c after hSplit hAsks p hp
      refine hClear (b :: before) c after (by rw [hSplit]; rfl) hAsks p ?_
      rw [List.mem_append, mem_openedPairs] at hp ⊢
      rcases hp with hp | ⟨d, hd, hOpens⟩
      · rcases hSub p hp with hp | hOpens
        · exact .inl hp
        · exact .inr ⟨b, List.mem_cons_self, hOpens⟩
      · exact .inr ⟨d, List.mem_cons_of_mem b hd, hOpens⟩
    obtain ⟨pairs'', hHolds'', hUuids'⟩ := ih hHolds' hRest hMarked' hClear'
    refine ⟨pairs'', hHolds'', fun uuid => ?_⟩
    rw [hUuids', hUuids, List.map_cons, List.mem_cons]
    by_cases hUuid : uuid = b.gpuUuid
    · subst hUuid
      simp [hFirst]
    · simp [hUuid]

theorem uuid_row (b : GpuBaseline) :
    (detectGpuMissingRow env server hostname seen b events).1.gpuUuid = b.gpuUuid := by
  unfold detectGpuMissingRow
  split
  · rfl
  · split <;> rfl

theorem uuids_detectGpuMissing {gpus : List (Gpu ℚ)} (rows : List GpuBaseline) :
    (detectGpuMissing env server hostname gpus rows events).1.map GpuBaseline.gpuUuid =
      rows.map GpuBaseline.gpuUuid := by
  induction rows generalizing events with
  | nil => rfl
  | cons b rows ih => exact congrArg₂ List.cons (uuid_row b) ih

/-- A card that a pass leaves marked is not in the sample. -/
theorem absent_of_marked {gpus : List (Gpu ℚ)} {rows : List GpuBaseline} {b : GpuBaseline}
    (h : b ∈ (detectGpuMissing env server hostname gpus rows events).1)
    (hMarked : b.missingSince ≠ none) : some b.gpuUuid ∉ gpus.map Gpu.uuid := by
  induction rows generalizing events with
  | nil => cases h
  | cons c rows ih =>
    have hRows : (detectGpuMissing env server hostname gpus (c :: rows) events).1 =
        (detectGpuMissingRow env server hostname (gpus.map Gpu.uuid) c events).1 ::
          (detectGpuMissing env server hostname gpus rows
            (detectGpuMissingRow env server hostname (gpus.map Gpu.uuid) c events).2).1 := rfl
    rw [hRows, List.mem_cons] at h
    rcases h with hRow | h
    · intro hSeen
      rw [hRow, uuid_row] at hSeen
      rw [hRow] at hMarked
      exact hMarked (missing_of_listed_row env server hostname events hSeen)
    · exact ih h

end Pass

/-! ## Plain uuids -/

/-- What stands between the first character of a text and the first closing bracket. -/
def keyOf (t : Text) : Text := (t.drop 1).takeWhile (· ≠ ']')

theorem ne_nil_of_plain {uuid : Text} (h : plainUuid uuid = true) : uuid ≠ [] := by
  simp only [plainUuid, Bool.and_eq_true, decide_eq_true_eq] at h
  exact h.1

theorem keyOf_keyedMessage {uuid message : Text} (h : plainUuid uuid = true) :
    keyOf (keyedMessage uuid message) = uuid := by
  have hNoBracket : ∀ c ∈ uuid, decide (c ≠ ']') = true := by
    intro c hc
    simp only [plainUuid, Bool.and_eq_true, List.all_eq_true, decide_eq_true_eq] at h
    rw [decide_eq_true_eq]
    rintro rfl
    exact h.2 _ hc (by decide)
  rw [keyedMessage, if_neg (ne_nil_of_plain h), keyOf, keyText]
  simp only [List.cons_append, List.drop_succ_cons, List.drop_zero, List.append_assoc]
  rw [List.takeWhile_append_of_pos hNoBracket, List.takeWhile_cons_of_neg (by simp),
    List.append_nil]

theorem plain_of_mem_validUuids {gpus : List (Gpu ℚ)} (hPlain : plainSample gpus = true)
    {uuid : Text} (h : uuid ∈ validUuids gpus) : plainUuid uuid = true := by
  obtain ⟨-, hMem⟩ := mem_validUuids.mp h
  obtain ⟨g, hg, hUuid⟩ := List.mem_map.mp hMem
  have hg' := List.all_eq_true.mp hPlain g hg
  rw [hUuid] at hg'
  exact hg'

section Events

variable {events : Table AlertEvent} {serverId : Nat} {pairs : List (Text × Text)}

theorem mem_openTexts_iff {detector t : Text} : t ∈ openTexts events detector serverId ↔
    ∃ ev ∈ events.rows, isOpenOf detector serverId ev = true ∧ ev.message = t := by
  simp only [openTexts, List.mem_map, List.mem_filter, and_assoc]

theorem missingEvent_iff {uuid : Text} {ev : AlertEvent} (hPlain : plainUuid uuid = true)
    (hHolds : Holds events serverId pairs) (hKeys : ∀ p ∈ pairs, plainUuid p.1 = true) :
    MissingEvent events serverId uuid ev ↔ ev ∈ events.rows ∧
      isOpenOf "GPU_MISSING" serverId ev = true ∧ keyOf ev.message = uuid := by
  rw [MissingEvent, isOpenOf_iff]
  constructor
  · rintro ⟨hev, message, hFired⟩
    refine ⟨hev, ⟨hFired.ruleId, hFired.metric, hFired.server, hFired.isOpen⟩, ?_⟩
    rw [hFired.text, keyOf_keyedMessage hPlain]
  · rintro ⟨hev, ⟨hRule, hMetric, hServer, hOpen⟩, hKey⟩
    have hText := mem_openTexts_iff.mpr
      ⟨ev, hev, isOpenOf_iff.mpr ⟨hRule, hMetric, hServer, hOpen⟩, rfl⟩
    rw [hHolds.texts] at hText
    obtain ⟨p, hp, hSame⟩ := List.mem_map.mp hText
    rw [← hSame, pairText, keyOf_keyedMessage (hKeys p hp)] at hKey
    exact ⟨hev, p.2, hRule, hMetric, hServer, hKey ▸ hSame.symm, hOpen⟩

theorem exists_missingEvent_iff {uuid : Text} (hPlain : plainUuid uuid = true)
    (hHolds : Holds events serverId pairs) (hKeys : ∀ p ∈ pairs, plainUuid p.1 = true) :
    (∃ ev, MissingEvent events serverId uuid ev) ↔ uuid ∈ pairs.map Prod.fst := by
  simp only [missingEvent_iff hPlain hHolds hKeys]
  constructor
  · rintro ⟨ev, hev, hOpen, hKey⟩
    have hText := mem_openTexts_iff.mpr ⟨ev, hev, hOpen, rfl⟩
    rw [hHolds.texts] at hText
    obtain ⟨p, hp, hSame⟩ := List.mem_map.mp hText
    rw [← hSame, pairText, keyOf_keyedMessage (hKeys p hp)] at hKey
    exact hKey ▸ List.mem_map_of_mem hp
  · intro h
    obtain ⟨p, hp, rfl⟩ := List.mem_map.mp h
    have hText : pairText p ∈ openTexts events "GPU_MISSING" serverId :=
      hHolds.texts ▸ List.mem_map_of_mem hp
    obtain ⟨ev, hev, hOpen, hSame⟩ := mem_openTexts_iff.mp hText
    exact ⟨ev, hev, hOpen, by rw [hSame, pairText, keyOf_keyedMessage hPlain]⟩

theorem missingEvent_unique {uuid : Text} {ev ev' : AlertEvent} (hPlain : plainUuid uuid = true)
    (hHolds : Holds events serverId pairs) (hKeys : ∀ p ∈ pairs, plainUuid p.1 = true)
    (h : MissingEvent events serverId uuid ev) (h' : MissingEvent events serverId uuid ev') :
    ev = ev' := by
  obtain ⟨hev, hOpen, hKey⟩ := (missingEvent_iff hPlain hHolds hKeys).mp h
  obtain ⟨hev', hOpen', hKey'⟩ := (missingEvent_iff hPlain hHolds hKeys).mp h'
  have hMap : (events.rows.filter (isOpenOf "GPU_MISSING" serverId)).map
      (fun ev => keyOf ev.message) = pairs.map Prod.fst := by
    have hTexts := congrArg (List.map keyOf) hHolds.texts
    rw [openTexts, List.map_map, List.map_map] at hTexts
    refine hTexts.trans (List.map_congr_left fun p hp => ?_)
    exact keyOf_keyedMessage (hKeys p hp)
  exact List.inj_on_of_nodup_map (hMap ▸ hHolds.nodup) (List.mem_filter.mpr ⟨hev, hOpen⟩)
    (List.mem_filter.mpr ⟨hev', hOpen'⟩) (hKey.trans hKey'.symm)

end Events

/-! ## Runs -/

/-- The pass after a sample asks for the card: it is listed, or not yet marked missing. -/
def Watch.Asked (w : Watch) (gpus : List (Gpu ℚ)) (uuid : Text) : Prop :=
  uuid ∈ validUuids gpus ∨ ∃ b ∈ w.baseline, b.gpuUuid = uuid ∧ b.missingSince = none

/-- No card that the pass asks for is found in the event of another: one that is open, or one
that the pass opens before it comes to the card. -/
structure ClearPass (w : Watch) (gpus : List (Gpu ℚ)) : Prop where
  stored : ∀ uuid, w.Asked gpus uuid → ∀ b ∈ w.baseline, b.gpuUuid ≠ uuid →
    ∀ message, ∀ ev ∈ w.events.rows,
      FiredWith "GPU_MISSING" w.server.id b.gpuUuid message ev →
        ¬ Confused uuid b.gpuUuid message
  opened : ∀ uuid, w.Asked gpus uuid → ∀ c ∈ w.baseline, c.gpuUuid ∉ validUuids gpus →
    c.missingSince = none →
      (∀ before b after, w.baseline = before ++ b :: after → b.gpuUuid = uuid → c ∈ before) →
        ¬ Confused uuid c.gpuUuid (missingMessage c)

/-- Every pass of the run is clear; during maintenance there is none. -/
def ClearStep : Watch → WatchAction → Prop
  | w, .okPoll _ _ gpus => w.server.status ≠ .maintenance → ClearPass w gpus
  | _, _ => True

/-- The open events and the marks: only cards of the baseline have an event, and a card that is
marked missing has one. -/
structure WatchInv (w : Watch) (pairs : List (Text × Text)) : Prop where
  holds : Holds w.events w.server.id pairs
  uuidsNodup : (w.baseline.map GpuBaseline.gpuUuid).Nodup
  registered : ∀ p ∈ pairs, p.1 ∈ w.baseline.map GpuBaseline.gpuUuid
  marked : ∀ b ∈ w.baseline, b.missingSince ≠ none → b.gpuUuid ∈ pairs.map Prod.fst
  listed : ∀ uuid, uuid ∈ w.baseline.map GpuBaseline.gpuUuid ↔ uuid ∈ w.listed
  plain : ∀ uuid ∈ w.listed, plainUuid uuid = true

section Inv

variable {w : Watch} {pairs : List (Text × Text)} {env : Environment} {hostname : Text}
  {gpus : List (Gpu ℚ)}

theorem WatchInv.plainKeys (hInv : WatchInv w pairs) : ∀ p ∈ pairs, plainUuid p.1 = true :=
  fun p hp => hInv.plain p.1 ((hInv.listed p.1).mp (hInv.registered p hp))

theorem mem_baseline_iff_listed (hInv : WatchInv w pairs) (now : Int) (uuid : Text) :
    uuid ∈ (updateGpuBaseline w.server.id now gpus w.baseline).map GpuBaseline.gpuUuid ↔
      uuid ∈ w.listed ++ validUuids gpus := by
  rw [mem_uuids_update, List.mem_append, hInv.listed]

theorem plain_listed (hInv : WatchInv w pairs) (hPlain : plainSample gpus = true) :
    ∀ uuid ∈ w.listed ++ validUuids gpus, plainUuid uuid = true := by
  intro uuid h
  rcases List.mem_append.mp h with h | h
  · exact hInv.plain uuid h
  · exact plain_of_mem_validUuids hPlain h

/-- A card of the baseline that is marked after the registration was marked before. -/
theorem marked_update (hInv : WatchInv w pairs) {now : Int} {b : GpuBaseline}
    (hb : b ∈ updateGpuBaseline w.server.id now gpus w.baseline) (hMarked : b.missingSince ≠ none) :
    b.gpuUuid ∈ pairs.map Prod.fst := by
  rcases mem_update hb with ⟨hNone, -⟩ | ⟨hOld, -⟩
  · exact absurd hNone hMarked
  · exact hInv.marked b hOld hMarked

theorem passClear_of_clearPass (hInv : WatchInv w pairs) (hPlain : plainSample gpus = true)
    (hClear : ClearPass w gpus) (now : Int) :
    PassClear (gpus.map Gpu.uuid) (updateGpuBaseline w.server.id now gpus w.baseline) pairs := by
  intro before b after hSplit hAsks p hp hNe
  have hRow : ∀ c ∈ before ++ b :: after,
      c ∈ updateGpuBaseline w.server.id now gpus w.baseline := fun c hc => hSplit ▸ hc
  have hb := hRow b (List.mem_append_right before List.mem_cons_self)
  have hSeen : ∀ c ∈ before ++ b :: after,
      some c.gpuUuid ∈ gpus.map Gpu.uuid → c.gpuUuid ∈ validUuids gpus := by
    intro c hc hMem
    have hListed := (mem_baseline_iff_listed hInv now c.gpuUuid).mp (List.mem_map_of_mem (hRow c hc))
    exact mem_validUuids.mpr ⟨ne_nil_of_plain (plain_listed hInv hPlain _ hListed), hMem⟩
  have hAsked : w.Asked gpus b.gpuUuid := by
    rcases hAsks with hListed | hNone
    · exact .inl (hSeen b (List.mem_append_right before List.mem_cons_self) hListed)
    · rcases mem_update hb with ⟨-, hListed⟩ | ⟨hOld, -⟩
      · exact .inl hListed
      · exact .inr ⟨b, hOld, rfl, hNone⟩
  rcases List.mem_append.mp hp with hp | hp
  · obtain ⟨c, hc, hKey⟩ := List.mem_map.mp (hInv.registered p hp)
    have hText : pairText p ∈ openTexts w.events "GPU_MISSING" w.server.id :=
      hInv.holds.texts ▸ List.mem_map_of_mem hp
    obtain ⟨ev, hev, hOpen, hSame⟩ := mem_openTexts_iff.mp hText
    obtain ⟨hRule, hMetric, hServer, hIsOpen⟩ := isOpenOf_iff.mp hOpen
    rw [← hKey] at hNe ⊢
    refine hClear.stored b.gpuUuid hAsked c hc hNe p.2 ev hev ⟨hRule, hMetric, hServer, ?_, hIsOpen⟩
    rw [hSame, hKey]
    rfl
  · obtain ⟨c, hc, ⟨hAbsent, hNone⟩, rfl⟩ := mem_openedPairs.mp hp
    have hcRow := hRow c (List.mem_append_left _ hc)
    have hNotListed : c.gpuUuid ∉ validUuids gpus := fun h => hAbsent (mem_validUuids.mp h).2
    obtain ⟨hOld, -⟩ : c ∈ w.baseline ∧ c.gpuUuid ∉ validUuids gpus := by
      rcases mem_update hcRow with ⟨-, hListed⟩ | h
      · exact absurd hListed hNotListed
      · exact h
    refine hClear.opened b.gpuUuid hAsked c hOld hNotListed hNone ?_
    -- the rows stand in the order in which they were registered
    intro before' b' after' hSplit' hSame
    obtain ⟨new, hNew⟩ : ∃ new,
        (updateGpuBaseline w.server.id now gpus w.baseline).map GpuBaseline.gpuUuid =
          w.baseline.map GpuBaseline.gpuUuid ++ new := exists_uuids_update
    have hNodup : ((updateGpuBaseline w.server.id now gpus w.baseline).map
        GpuBaseline.gpuUuid).Nodup := nodup_update hInv.uuidsNodup
    have hOldNodup := hInv.uuidsNodup
    rw [hSplit, List.map_append, List.map_cons] at hNew hNodup
    rw [hSplit', List.map_append, List.map_cons] at hNew hOldNodup
    rw [hSame, List.append_assoc, List.cons_append] at hNew
    rw [hSame] at hOldNodup
    have hFront : b.gpuUuid ∉ before.map GpuBaseline.gpuUuid := fun h =>
      (List.nodup_append.mp hNodup).2.2 _ h _ List.mem_cons_self rfl
    have hFront' : b.gpuUuid ∉ before'.map GpuBaseline.gpuUuid := fun h =>
      (List.nodup_append.mp hOldNodup).2.2 _ h _ List.mem_cons_self rfl
    obtain ⟨hBefore, -⟩ := append_mark_inj hFront hFront' hNew
    have hcUuid := List.mem_map_of_mem (f := GpuBaseline.gpuUuid) hc
    rw [hBefore] at hcUuid
    obtain ⟨c', hc', hcSame⟩ := List.mem_map.mp hcUuid
    have hcOld : c' ∈ w.baseline := hSplit' ▸ List.mem_append_left _ hc'
    exact List.inj_on_of_nodup_map hInv.uuidsNodup hcOld hOld hcSame ▸ hc'

/-- What a poll outside maintenance does. -/
theorem exists_inv_pass (env : Environment) (hostname : Text) (hInv : WatchInv w pairs)
    (hPlain : plainSample gpus = true)
    (hActive : w.server.status ≠ .maintenance) (hClear : ClearPass w gpus) :
    ∃ pairs', WatchInv (w.afterPoll env hostname gpus) pairs' ∧
      ∀ uuid, uuid ∈ pairs'.map Prod.fst ↔
        uuid ∈ w.listed ++ validUuids gpus ∧ some uuid ∉ gpus.map Gpu.uuid := by
  obtain ⟨pairs', hHolds, hUuids⟩ := holds_pass env hostname hInv.holds
    (nodup_update hInv.uuidsNodup) (fun b => marked_update hInv)
    (passClear_of_clearPass hInv hPlain hClear env.now)
  simp only [mem_baseline_iff_listed hInv env.now] at hUuids
  have hIff : ∀ uuid, uuid ∈ pairs'.map Prod.fst ↔
      uuid ∈ w.listed ++ validUuids gpus ∧ some uuid ∉ gpus.map Gpu.uuid := by
    intro uuid
    rw [hUuids, or_iff_right]
    rintro ⟨hUnknown, hMem⟩
    obtain ⟨p, hp, rfl⟩ := List.mem_map.mp hMem
    exact hUnknown (List.mem_append_left _ ((hInv.listed _).mp (hInv.registered p hp)))
  have hPass : w.afterPoll env hostname gpus =
      { w with
        baseline := (detectGpuMissing env w.server hostname gpus
          (updateGpuBaseline w.server.id env.now gpus w.baseline) w.events).1
        events := (detectGpuMissing env w.server hostname gpus
          (updateGpuBaseline w.server.id env.now gpus w.baseline) w.events).2
        listed := w.listed ++ validUuids gpus } := by
    simp only [Watch.afterPoll, runDetectors, if_neg hActive]
  have hListed : ∀ uuid, uuid ∈ (detectGpuMissing env w.server hostname gpus
      (updateGpuBaseline w.server.id env.now gpus w.baseline) w.events).1.map
        GpuBaseline.gpuUuid ↔ uuid ∈ w.listed ++ validUuids gpus := by
    intro uuid
    rw [uuids_detectGpuMissing, mem_baseline_iff_listed hInv]
  refine ⟨pairs', ?_, hIff⟩
  rw [hPass]
  refine ⟨hHolds, ?_, ?_, ?_, hListed, plain_listed hInv hPlain⟩
  · rw [uuids_detectGpuMissing]
    exact nodup_update hInv.uuidsNodup
  · intro p hp
    exact (hListed _).mpr ((hIff _).mp (List.mem_map_of_mem hp)).1
  · intro b hb hMarked
    exact (hIff _).mpr ⟨(hListed _).mp (List.mem_map_of_mem hb), absent_of_marked hb hMarked⟩

/-- During maintenance a poll registers its cards and leaves the events alone. -/
theorem inv_silent (hInv : WatchInv w pairs) (hPlain : plainSample gpus = true)
    (hSilent : w.server.status = .maintenance) :
    WatchInv (w.afterPoll env hostname gpus) pairs := by
  have hPass : w.afterPoll env hostname gpus =
      { w with
        baseline := updateGpuBaseline w.server.id env.now gpus w.baseline
        listed := w.listed ++ validUuids gpus } := by
    simp only [Watch.afterPoll, runDetectors, if_pos hSilent]
  rw [hPass]
  refine ⟨hInv.holds, nodup_update hInv.uuidsNodup, ?_, fun b => marked_update hInv,
    mem_baseline_iff_listed hInv env.now, plain_listed hInv hPlain⟩
  intro p hp
  exact mem_uuids_update.mpr (.inl (hInv.registered p hp))

end Inv

theorem inv_step {w w' : Watch} {a : WatchAction} {pairs : List (Text × Text)}
    (hInv : WatchInv w pairs) (hClear : ClearStep w a) (hStep : watchStep w a = some w') :
    ∃ pairs', WatchInv w' pairs' := by
  cases a with
  | okPoll env hostname gpus =>
    obtain ⟨hPlain, rfl⟩ := Option.ite_some_none_eq_some.mp hStep
    by_cases hActive : w.server.status = .maintenance
    · exact ⟨pairs, inv_silent hInv hPlain hActive⟩
    · obtain ⟨pairs', hInv', -⟩ := exists_inv_pass env hostname hInv hPlain hActive (hClear hActive)
      exact ⟨pairs', hInv'⟩
  | errorPoll =>
    cases hStep
    exact ⟨pairs, hInv⟩
  | setStatus status =>
    cases hStep
    exact ⟨pairs, ⟨hInv.holds, hInv.uuidsNodup, hInv.registered, hInv.marked, hInv.listed,
      hInv.plain⟩⟩
  | elsewhere events =>
    obtain ⟨hSame, rfl⟩ := Option.ite_some_none_eq_some.mp hStep
    exact ⟨pairs, ⟨⟨hSame.trans hInv.holds.texts, hInv.holds.nodup⟩, hInv.uuidsNodup,
      hInv.registered, hInv.marked, hInv.listed, hInv.plain⟩⟩

theorem inv_of_watch {w : Watch} (hReach : Runs.Reach watchStep WatchStart ClearStep w) :
    ∃ pairs, WatchInv w pairs := by
  refine hReach.invariant (I := fun w => ∃ pairs, WatchInv w pairs) ?_ ?_
  · intro w hStart
    refine ⟨[], ⟨hStart.noneOpen, List.nodup_nil⟩, ?_, ?_, ?_, ?_, ?_⟩
    · rw [hStart.baseline]
      exact List.nodup_nil
    · intro p hp
      cases hp
    · intro b hb
      rw [hStart.baseline] at hb
      cases hb
    · intro uuid
      rw [hStart.baseline, hStart.listed]
      exact Iff.rfl
    · intro uuid h
      rw [hStart.listed] at h
      cases h
  · rintro w a w' ⟨pairs, hInv⟩ hClear hStep
    exact inv_step hInv hClear hStep

/-- After a pass that follows a successful poll, the cards with an open event are those that some
poll has listed and the last one has not, and each has one event. -/
theorem missing_open_iff {w w' : Watch} {env : Environment} {hostname : Text}
    {gpus : List (Gpu ℚ)} (hReach : Runs.Reach watchStep WatchStart ClearStep w)
    (hActive : w.server.status ≠ .maintenance) (hClear : ClearPass w gpus)
    (hPoll : watchStep w (.okPoll env hostname gpus) = some w') :
    ∀ uuid, plainUuid uuid = true →
      ((∃ ev, MissingEvent w'.events w'.server.id uuid ev) ↔
        uuid ∈ w'.listed ∧ uuid ∉ validUuids gpus) ∧
      ∀ ev ev', MissingEvent w'.events w'.server.id uuid ev →
        MissingEvent w'.events w'.server.id uuid ev' → ev = ev' := by
  obtain ⟨pairs, hInv⟩ := inv_of_watch hReach
  obtain ⟨hPlain, rfl⟩ := Option.ite_some_none_eq_some.mp hPoll
  obtain ⟨pairs', hInv', hIff⟩ := exists_inv_pass env hostname hInv hPlain hActive hClear
  intro uuid hUuid
  constructor
  · rw [exists_missingEvent_iff hUuid hInv'.holds hInv'.plainKeys, hIff, mem_validUuids,
      not_and_or, not_not, or_iff_right (ne_nil_of_plain hUuid)]
    rfl
  · intro ev ev'
    exact missingEvent_unique hUuid hInv'.holds hInv'.plainKeys

/-- A server before its first poll. -/
def freshWatch : Watch := ⟨{ id := 3, name := "gpu-3" }, [], .empty, []⟩

theorem freshWatch_start : WatchStart freshWatch := ⟨rfl, rfl, rfl⟩

/-- A card, with a name that the host reports. -/
def card (uuid name : Text) : Gpu ℚ := { uuid := some uuid, name := some name }

/-- The server after a poll that has listed one card. -/
def oneCardWatch : Watch := freshWatch.afterPoll quietClock "gpu-3" [card "GPU-a" "A100"]

theorem oneCardWatch_reached : Runs.Reach watchStep WatchStart ClearStep oneCardWatch := by
  refine (Runs.Reach.start freshWatch_start).next
    (a := .okPoll quietClock "gpu-3" [card "GPU-a" "A100"]) ?_ rfl
  intro _
  constructor
  · intro uuid _ b hb
    cases hb
  · intro uuid _ c hc
    cases hc

theorem oneCardWatch_clear : ClearPass oneCardWatch [] := by
  constructor
  · intro uuid _ b _ _ message ev hev
    cases hev
  · intro uuid hAsked c hc _ _ hBefore
    rcases hAsked with h | ⟨b, hb, hSame, -⟩
    · cases h
    · obtain rfl := List.mem_singleton.mp hb
      cases hBefore [] _ [] rfl hSame

/-- The server after a second poll that has listed none. -/
def noCardWatch : Watch := oneCardWatch.afterPoll quietClock "gpu-3" []

theorem noCardWatch_eq :
    watchStep oneCardWatch (.okPoll quietClock "gpu-3" []) = some noCardWatch := rfl

/-- The only card of a server is gone: it has an open event. -/
theorem missing_open_iff_one :
    ((∃ ev, MissingEvent noCardWatch.events 3 "GPU-a" ev) ↔
      ("GPU-a" : Text) ∈ noCardWatch.listed ∧ ("GPU-a" : Text) ∉ validUuids ([] : List (Gpu ℚ))) ∧
    ∀ ev ev', MissingEvent noCardWatch.events 3 "GPU-a" ev →
      MissingEvent noCardWatch.events 3 "GPU-a" ev' → ev = ev' :=
  missing_open_iff oneCardWatch_reached (by decide) oneCardWatch_clear noCardWatch_eq "GPU-a"
    (by decide)

/-- The server after a poll that has listed two cards, one with the key of the other in its
name. -/
def namedWatch : Watch :=
  freshWatch.afterPoll quietClock "gpu-3" [card "GPU-a" "A100 [GPU-b]", card "GPU-b" "A100"]

/-- The card with the key of another in its name goes missing, and the pass that opens its event
closes it again when it comes to the other card. -/
theorem named_card_unreported : ∃ w w',
    Runs.Reach watchStep WatchStart Runs.Always w ∧ w.server.status ≠ .maintenance ∧
      watchStep w (.okPoll quietClock "gpu-3" [card "GPU-b" "A100"]) = some w' ∧
      ("GPU-a" : Text) ∈ w'.listed ∧ ("GPU-a" : Text) ∉ validUuids [card "GPU-b" "A100"] ∧
      ¬ ∃ ev, MissingEvent w'.events w'.server.id "GPU-a" ev := by
  have hReach : Runs.Reach watchStep WatchStart Runs.Always namedWatch :=
    (Runs.Reach.start freshWatch_start).next (a := .okPoll quietClock "gpu-3"
      [card "GPU-a" "A100 [GPU-b]", card "GPU-b" "A100"]) trivial rfl
  refine ⟨namedWatch, _, hReach, by decide, rfl, by decide, by decide, ?_⟩
  rintro ⟨ev, hev, message, hFired⟩
  have hClosed : ∀ ev ∈ (namedWatch.afterPoll quietClock "gpu-3"
      [card "GPU-b" "A100"]).events.rows, ev.isOpen = false := by decide +kernel
  have hOpen := hFired.isOpen
  rw [hClosed ev hev] at hOpen
  cases hOpen

end GpuMon.Detectors

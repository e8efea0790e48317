import GpuMon.IdleBackfill
import GpuMon.Library.Runs

/-!
# The idle state over runs

The document says of every GPU since when it has been held idle: since the first sample of the
run of successful samples, ending at the latest one, in all of which it is held idle. A call
either finds the start in the document or walks back through the history, page by page; a
restart drops the copy in memory.

* `backfillIdleStart_eq_run`: the walk finds the first sample of the run before the call.
* `get?_edit_same`, `get?_edit_other`: what one call does to the keys of its own server and to
  those of the others.
* `idle_since_tracks_run`: the document after every poll of every run.
-/

namespace GpuMon.IdleState

open PyText

/-- The GPU with the uuid is held idle in the sample. -/
def heldIn (uuid : Text) (m : ServerMetric) : Bool :=
  uuid ≠ [] && (findGpu m.gpus uuid).any gpuIsIdleHeld

/-- The samples at the end of a history in all of which the GPU is held idle. -/
def idleRun (uuid : Text) (samples : List ServerMetric) : List ServerMetric :=
  samples.rtakeWhile (heldIn uuid)

/-- The successful samples of a server, in the order in which they were stored. -/
def okSamples (metrics : List ServerMetric) (serverId : Nat) : List ServerMetric :=
  metrics.filter fun m => m.serverId = serverId && m.status = .ok

/-- The samples of each server are stored in the order of their times. -/
def Ascending (metrics : List ServerMetric) : Prop :=
  metrics.Pairwise fun a b => a.serverId = b.serverId → a.collectedAt < b.collectedAt

/-! ## The walk through the history -/

section Backfill

variable {metrics : List ServerMetric} {serverId : Nat} {uuid : Text}

theorem older_ascending (hAscending : Ascending metrics) (serverId : Nat) (cursor : Int) :
    (metrics.filter (isOlder serverId cursor)).Pairwise
      fun a b => a.collectedAt < b.collectedAt := by
  refine (hAscending.filter _).imp_of_mem ?_
  intro a b ha hb hLt
  have ha' := List.of_mem_filter ha
  have hb' := List.of_mem_filter hb
  simp only [isOlder, Bool.and_eq_true, decide_eq_true_eq] at ha' hb'
  exact hLt (ha'.1.1.trans hb'.1.1.symm)

theorem distinctTimes_of_ascending (hAscending : Ascending metrics) (serverId : Nat) :
    DistinctTimes metrics serverId := by
  refine (hAscending.filter _).imp_of_mem fun {a b} ha hb hLt => ?_
  have ha' := List.of_mem_filter ha
  have hb' := List.of_mem_filter hb
  simp only [Bool.and_eq_true, decide_eq_true_eq] at ha' hb'
  exact (hLt (ha'.1.trans hb'.1.symm)).ne

/-- The query returns the samples of the server from the newest to the oldest. -/
theorem olderSamples_eq (hAscending : Ascending metrics) (cursor : Int) :
    olderSamples metrics serverId cursor =
      (metrics.filter (isOlder serverId cursor)).reverse := by
  have hTimes := distinctTimes_of_ascending hAscending serverId
  refine (olderSamples_descending hTimes cursor).eq_of_perm ?_ ?_
  · exact List.pairwise_reverse.mpr (older_ascending hAscending serverId cursor)
  · exact (List.perm_insertionSort _ _).trans (List.reverse_perm _).symm

/-- The samples of a server before an instant. -/
theorem backfillIdleStart_eq_run (hAscending : Ascending metrics) (hUuid : uuid ≠ [])
    (before : Int) : backfillIdleStart metrics serverId uuid before =
      (idleRun uuid (metrics.filter (isOlder serverId before))).head?.map
        ServerMetric.collectedAt := by
  have hHeld : heldIn uuid = idleIn uuid := by
    funext m
    rw [heldIn, decide_eq_true hUuid, Bool.true_and, idleIn]
  rw [backfillIdleStart, backfillFrom_before (distinctTimes_of_ascending hAscending serverId)
    (Nat.lt_succ_self _), scanPage_eq, olderSamples_eq hAscending, idleRun, hHeld,
    List.rtakeWhile, List.head?_reverse, Option.or_none]

end Backfill

/-! ## One call -/

theorem keyPrefix_inj {s s' : Nat} {u u' : Text} (h : keyPrefix s ++ u = keyPrefix s' ++ u') :
    s = s' ∧ u = u' := by
  have hColon : ∀ n, ':' ∉ natText n := fun n h => absurd (isDigit_of_mem_natText h) (by decide)
  have hMark : natText s ++ ':' :: u = natText s' ++ ':' :: u' := by
    simpa [keyPrefix] using h
  obtain ⟨hNat, hRest⟩ := append_mark_inj (hColon s) (hColon s') hMark
  have hNumber := congrArg parseNat hNat
  rw [parseNat_natText, parseNat_natText] at hNumber
  exact ⟨hNumber, hRest⟩

theorem startsWith_keyPrefix_iff {s s' : Nat} {u : Text} :
    startsWith (keyPrefix s' ++ u) (keyPrefix s) = true ↔ s' = s := by
  rw [startsWith, List.isPrefixOf_iff_prefix]
  constructor
  · rintro ⟨u', h⟩
    exact (keyPrefix_inj h).1.symm
  · rintro rfl
    exact List.prefix_append _ _

section Call

variable {metrics : List ServerMetric} {call : Call}

/-- The value that a call gives to the key of a GPU that is held idle. -/
def startOf (metrics : List ServerMetric) (call : Call) (base : Doc) (u : Text) : Int :=
  (base.get? (keyPrefix call.serverId ++ u)).getD
    ((backfillIdleStart metrics call.serverId u call.collectedAt).getD call.collectedAt)

/-- What one GPU of the sample makes of its key. -/
def entryOf (metrics : List ServerMetric) (call : Call) (base : Doc) (u : Text) (g : Gpu ℚ) :
    Option Int :=
  if gpuIsIdleHeld g then some (startOf metrics call base u) else none

theorem editGpu_of_none {e : Edit} {g : Gpu ℚ} (h : validUuid g = none) :
    editGpu metrics call e g = e := by
  unfold editGpu
  split
  · rfl
  · rfl
  · rename_i u hNe hUuid
    rw [validUuid_eq_some.mpr ⟨hUuid, hNe⟩] at h
    cases h

theorem get?_of_contains {d : Doc} {k : Text} (h : d.contains k = true) :
    d.get? k = some ((d.get? k).getD 0) := by
  rw [Dict.contains_iff] at h
  obtain ⟨v, hv⟩ := Option.isSome_iff_exists.mp h
  rw [hv]
  rfl

theorem get?_of_not_contains {d : Doc} {k : Text} (h : d.contains k ≠ true) :
    d.get? k = none := by
  rw [ne_eq, Dict.contains_iff, Option.not_isSome_iff_eq_none] at h
  exact h

theorem editGpu_of_some {e : Edit} {g : Gpu ℚ} {u : Text} (h : validUuid g = some u) :
    (editGpu metrics call e g).seen = (keyPrefix call.serverId ++ u) :: e.seen ∧
      ∀ k, (editGpu metrics call e g).state.get? k =
        if k = keyPrefix call.serverId ++ u then entryOf metrics call e.state u g
        else e.state.get? k := by
  obtain ⟨hUuid, hNe⟩ := validUuid_eq_some.mp h
  cases u with
  | nil => exact absurd rfl hNe
  | cons c u =>
    unfold editGpu entryOf startOf
    rw [hUuid]
    dsimp only
    by_cases hHeld : gpuIsIdleHeld g = true
    · rw [if_pos hHeld, if_pos hHeld]
      split
      · rename_i hKnown
        refine ⟨rfl, fun k => ?_⟩
        split
        · rename_i hKey
          rw [hKey, get?_of_contains hKnown]
          rfl
        · rfl
      · rename_i hUnknown
        refine ⟨rfl, fun k => ?_⟩
        rw [Dict.get?_set, get?_of_not_contains hUnknown]
        rfl
    · rw [if_neg hHeld, if_neg hHeld]
      split
      · exact ⟨rfl, fun k => Dict.get?_erase _ _ k⟩
      · rename_i hUnknown
        refine ⟨rfl, fun k => ?_⟩
        split
        · rename_i hKey
          rw [hKey, get?_of_not_contains hUnknown]
        · rfl

theorem validUuids_cons_some {g : Gpu ℚ} {gpus : List (Gpu ℚ)} {u : Text}
    (h : validUuid g = some u) : validUuids (g :: gpus) = u :: validUuids gpus :=
  List.filterMap_cons_some h

theorem validUuids_cons_none {g : Gpu ℚ} {gpus : List (Gpu ℚ)} (h : validUuid g = none) :
    validUuids (g :: gpus) = validUuids gpus := List.filterMap_cons_none h

theorem mem_seen_foldl {gpus : List (Gpu ℚ)} {e : Edit} {k : Text} :
    k ∈ (gpus.foldl (editGpu metrics call) e).seen ↔
      k ∈ e.seen ∨ ∃ u ∈ validUuids gpus, k = keyPrefix call.serverId ++ u := by
  induction gpus generalizing e with
  | nil => simp [validUuids]
  | cons g gpus ih =>
    rw [List.foldl_cons, ih]
    cases hUuid : validUuid g with
    | none => rw [editGpu_of_none hUuid, validUuids_cons_none hUuid]
    | some u =>
      rw [(editGpu_of_some hUuid).1, validUuids_cons_some hUuid, List.mem_cons, or_assoc,
        or_left_comm]
      simp only [List.mem_cons, exists_eq_or_imp]

/-- A key that no GPU of the sample has is left alone by the loop. -/
theorem get?_foldl_of_not_listed {gpus : List (Gpu ℚ)} {e : Edit} {k : Text}
    (h : ∀ u ∈ validUuids gpus, k ≠ keyPrefix call.serverId ++ u) :
    (gpus.foldl (editGpu metrics call) e).state.get? k = e.state.get? k := by
  induction gpus generalizing e with
  | nil => rfl
  | cons g gpus ih =>
    rw [List.foldl_cons]
    cases hUuid : validUuid g with
    | none =>
      rw [validUuids_cons_none hUuid] at h
      rw [editGpu_of_none hUuid, ih h]
    | some u =>
      rw [validUuids_cons_some hUuid] at h
      rw [ih fun u' hu' => h u' (List.mem_cons_of_mem u hu'), (editGpu_of_some hUuid).2,
        if_neg (h u List.mem_cons_self)]

/-- The key of a GPU of the sample is edited once. -/
theorem get?_foldl_of_listed {gpus : List (Gpu ℚ)} {e : Edit} {u : Text} {g : Gpu ℚ}
    (hNodup : (validUuids gpus).Nodup) (hUuid : u ≠ []) (hFind : findGpu gpus u = some g) :
    (gpus.foldl (editGpu metrics call) e).state.get? (keyPrefix call.serverId ++ u) =
      entryOf metrics call e.state u g := by
  induction gpus generalizing e with
  | nil => cases hFind
  | cons g' gpus ih =>
    rw [List.foldl_cons]
    by_cases hHead : g'.uuid = some u
    · have hValid : validUuid g' = some u := validUuid_eq_some.mpr ⟨hHead, hUuid⟩
      obtain rfl : g' = g := by
        unfold findGpu at hFind
        rw [List.find?_cons_of_pos (by simpa using hHead)] at hFind
        exact Option.some.inj hFind
      rw [validUuids_cons_some hValid, List.nodup_cons] at hNodup
      rw [get?_foldl_of_not_listed, (editGpu_of_some hValid).2, if_pos rfl]
      intro u' hu' hKey
      exact hNodup.1 ((keyPrefix_inj hKey).2 ▸ hu')
    · unfold findGpu at hFind
      rw [List.find?_cons_of_neg (by simpa using hHead)] at hFind
      cases hValid : validUuid g' with
      | none =>
        rw [validUuids_cons_none hValid] at hNodup
        rw [editGpu_of_none hValid, ih hNodup hFind]
      | some u' =>
        rw [validUuids_cons_some hValid, List.nodup_cons] at hNodup
        rw [ih hNodup.2 hFind]
        have hOther : keyPrefix call.serverId ++ u ≠ keyPrefix call.serverId ++ u' := by
          intro hKey
          obtain rfl := (keyPrefix_inj hKey).2
          exact hHead (validUuid_eq_some.mp hValid).1
        unfold entryOf startOf
        rw [(editGpu_of_some hValid).2, if_neg hOther]

theorem get?_foldl_dropKey (keys : List Text) (e : Edit) (k : Text) :
    (keys.foldl dropKey e).state.get? k = if k ∈ keys then none else e.state.get? k := by
  induction keys generalizing e with
  | nil => simp
  | cons key keys ih =>
    rw [List.foldl_cons, ih, dropKey, Dict.get?_erase]
    by_cases hKey : k = key
    · simp [hKey]
    · simp [hKey]

/-- A call leaves the keys of the other servers alone. -/
theorem get?_edit_other {base : Doc} {serverId : Nat} {u : Text}
    (hOther : serverId ≠ call.serverId) :
    (edit metrics call base).state.get? (keyPrefix serverId ++ u) =
      base.get? (keyPrefix serverId ++ u) := by
  unfold edit
  dsimp only
  rw [get?_foldl_dropKey, if_neg, get?_foldl_of_not_listed]
  · intro u' _ hKey
    exact hOther (keyPrefix_inj hKey).1
  · intro hStale
    have hPrefix := (List.mem_filter.mp hStale).2
    rw [Bool.and_eq_true, startsWith_keyPrefix_iff] at hPrefix
    exact hOther hPrefix.1

/-- What a call makes of a key of its own server. -/
theorem get?_edit_same {base : Doc} {u : Text} (hNodup : (validUuids call.gpus).Nodup) :
    (edit metrics call base).state.get? (keyPrefix call.serverId ++ u) =
      if u ≠ [] ∧ (findGpu call.gpus u).any gpuIsIdleHeld = true then
        some (startOf metrics call base u)
      else none := by
  have hSeen : keyPrefix call.serverId ++ u ∈
      (call.gpus.foldl (editGpu metrics call) { state := base }).seen ↔ u ∈ validUuids call.gpus := by
    rw [mem_seen_foldl, or_iff_right List.not_mem_nil]
    constructor
    · rintro ⟨u', hu', hKey⟩
      exact (keyPrefix_inj hKey).2 ▸ hu'
    · intro h
      exact ⟨u, h, rfl⟩
  unfold edit
  dsimp only
  rw [get?_foldl_dropKey]
  by_cases hListed : u ∈ validUuids call.gpus
  · obtain ⟨hUuid, hMem⟩ := mem_validUuids.mp hListed
    obtain ⟨g, hFind⟩ : ∃ g, findGpu call.gpus u = some g := by
      obtain ⟨g, hg, hSame⟩ := List.mem_map.mp hMem
      exact Option.isSome_iff_exists.mp (List.find?_isSome.mpr ⟨g, hg, by simpa using hSame⟩)
    rw [if_neg, get?_foldl_of_listed hNodup hUuid hFind, hFind]
    · simp [entryOf, hUuid]
    · intro hStale
      simpa [hSeen.mpr hListed] using (List.mem_filter.mp hStale).2
  · have hAbsent : ¬ (u ≠ [] ∧ (findGpu call.gpus u).any gpuIsIdleHeld = true) := by
      rintro ⟨hUuid, hAny⟩
      obtain ⟨g, hFind, -⟩ := (Option.any_eq_true _ _).mp hAny
      refine hListed (mem_validUuids.mpr ⟨hUuid, ?_⟩)
      exact List.mem_map.mpr ⟨g, List.mem_of_find?_eq_some hFind, by simpa using List.find?_some hFind⟩
    rw [if_neg hAbsent]
    split
    · rfl
    · -- a key that is there and was not seen would be stale
      rename_i hKept
      by_contra hSome
      refine hKept (List.mem_filter.mpr ⟨?_, ?_⟩)
      · exact (Dict.mem_keys_iff _ _).mpr (Option.isSome_iff_ne_none.mpr hSome)
      · rw [startsWith_keyPrefix_iff.mpr rfl]
        simpa [hSeen] using hListed

end Call

/-! ## Runs -/

/-- The samples of all servers and the idle state. -/
structure IdleWatch where
  metrics : List ServerMetric
  shared : Shared

inductive IdleAction
  | poll (m : ServerMetric)
  | restart

/-- The newest sample of its server, with a different uuid for each GPU. -/
def nextSample (metrics : List ServerMetric) (m : ServerMetric) : Prop :=
  (∀ r ∈ metrics, r.serverId = m.serverId → r.collectedAt < m.collectedAt) ∧
    (m.status = .ok → (validUuids m.gpus).Nodup)

instance (metrics : List ServerMetric) (m : ServerMetric) : Decidable (nextSample metrics m) := by
  unfold nextSample
  infer_instance

/-- The call of a poll, which has stored its sample before. -/
def callOf (m : ServerMetric) : Call := ⟨m.serverId, m.collectedAt, m.gpus⟩

def IdleWatch.poll (w : IdleWatch) (m : ServerMetric) : IdleWatch where
  metrics := w.metrics ++ [m]
  shared :=
    if m.status = .ok then updateGpuIdleState (w.metrics ++ [m]) w.shared (callOf m) else w.shared

/-- Polls, one at a time, and restarts, which drop `_gpu_idle_mem`. -/
def idleStep (w : IdleWatch) : IdleAction → Option IdleWatch
  | .poll m => if nextSample w.metrics m then some (w.poll m) else none
  | .restart => some { w with shared := { w.shared with mem := none } }

/-- No history and no idle state. -/
def IdleStart (w : IdleWatch) : Prop := w = ⟨[], {}⟩

/-- The value of the key of a GPU. -/
def IdleWatch.since (w : IdleWatch) (serverId : Nat) (u : Text) : Option Int :=
  (rowDoc w.shared.persisted).get? (keyPrefix serverId ++ u)

/-- The times ascend, the memory is what is persisted, and the document has the start of every
idle run. -/
structure IdleInv (w : IdleWatch) : Prop where
  ascending : Ascending w.metrics
  consistent : w.shared.Consistent
  since_eq : ∀ serverId u, w.since serverId u =
    (idleRun u (okSamples w.metrics serverId)).head?.map ServerMetric.collectedAt

section Poll

variable {w : IdleWatch} {m : ServerMetric}

theorem consistent_poll (h : w.shared.Consistent) : (w.poll m).shared.Consistent := by
  change Shared.Consistent (if m.status = .ok then _ else _)
  split
  · exact (updateGpuIdleState_spec h).1
  · exact h

theorem ascending_poll (hAscending : Ascending w.metrics) (hNext : nextSample w.metrics m) :
    Ascending (w.metrics ++ [m]) := by
  refine List.pairwise_append.mpr ⟨hAscending, List.pairwise_singleton _ _, ?_⟩
  intro r hr m' hm' hServer
  rw [List.mem_singleton.mp hm'] at hServer ⊢
  exact hNext.1 r hr hServer

theorem okSamples_poll_other {serverId : Nat} (hOther : serverId ≠ m.serverId) :
    okSamples (w.metrics ++ [m]) serverId = okSamples w.metrics serverId := by
  unfold okSamples
  rw [List.filter_append, List.filter_cons_of_neg (by simp [hOther.symm]), List.filter_nil,
    List.append_nil]

theorem okSamples_poll_error (hError : m.status ≠ .ok) (serverId : Nat) :
    okSamples (w.metrics ++ [m]) serverId = okSamples w.metrics serverId := by
  unfold okSamples
  rw [List.filter_append, List.filter_cons_of_neg (by simp [hError]), List.filter_nil,
    List.append_nil]

theorem okSamples_poll (hOk : m.status = .ok) :
    okSamples (w.metrics ++ [m]) m.serverId = okSamples w.metrics m.serverId ++ [m] := by
  unfold okSamples
  rw [List.filter_append, List.filter_cons_of_pos (by simp [hOk]), List.filter_nil]

/-- The samples that a call finds before its own are the successful ones so far. -/
theorem older_poll (hNext : nextSample w.metrics m) :
    (w.metrics ++ [m]).filter (isOlder m.serverId m.collectedAt) =
      okSamples w.metrics m.serverId := by
  unfold okSamples
  rw [List.filter_append, List.filter_cons_of_neg (by simp [isOlder]), List.filter_nil,
    List.append_nil]
  refine List.filter_congr fun r hr => ?_
  by_cases hServer : r.serverId = m.serverId
  · simp [isOlder, hServer, hNext.1 r hr hServer]
  · simp [isOlder, hServer]

theorem heldIn_iff {u : Text} : heldIn u m = true ↔
    u ≠ [] ∧ (findGpu (callOf m).gpus u).any gpuIsIdleHeld = true := by
  rw [heldIn, Bool.and_eq_true, decide_eq_true_eq]
  rfl

theorem since_poll (hConsistent : w.shared.Consistent) (hOk : m.status = .ok) (serverId : Nat)
    (u : Text) : (w.poll m).since serverId u =
      (edit (w.metrics ++ [m]) (callOf m) (rowDoc w.shared.persisted)).state.get?
        (keyPrefix serverId ++ u) := by
  unfold IdleWatch.since IdleWatch.poll
  dsimp only
  rw [if_pos hOk, (updateGpuIdleState_spec hConsistent).2]

theorem since_poll_error (hError : m.status ≠ .ok) (serverId : Nat) (u : Text) :
    (w.poll m).since serverId u = w.since serverId u := by
  unfold IdleWatch.since IdleWatch.poll
  dsimp only
  rw [if_neg hError]

/-- A poll leaves the keys of the other servers alone. -/
theorem since_poll_other (hConsistent : w.shared.Consistent) {serverId : Nat} {u : Text}
    (hOther : serverId ≠ m.serverId) : (w.poll m).since serverId u = w.since serverId u := by
  by_cases hOk : m.status = .ok
  · rw [since_poll hConsistent hOk]
    exact get?_edit_other hOther
  · exact since_poll_error hOk serverId u

/-- A poll extends, starts or ends the run of each GPU of its server. -/
theorem since_poll_same (hInv : IdleInv w) (hNext : nextSample w.metrics m)
    (hOk : m.status = .ok) (u : Text) : (w.poll m).since m.serverId u =
      (idleRun u (okSamples w.metrics m.serverId ++ [m])).head?.map ServerMetric.collectedAt := by
  have hAscending := ascending_poll hInv.ascending hNext
  rw [since_poll hInv.consistent hOk]
  change (edit _ (callOf m) _).state.get? (keyPrefix (callOf m).serverId ++ u) = _
  rw [get?_edit_same (hNext.2 hOk), idleRun, List.rtakeWhile_concat]
  by_cases h : heldIn u m = true
  · have hUuid := (heldIn_iff.mp h).1
    have hBefore := hInv.since_eq m.serverId u
    unfold IdleWatch.since at hBefore
    rw [if_pos (heldIn_iff.mp h), if_pos h]
    unfold startOf callOf
    dsimp only
    rw [hBefore, backfillIdleStart_eq_run hAscending hUuid, older_poll hNext, List.head?_append]
    unfold idleRun
    cases ((okSamples w.metrics m.serverId).rtakeWhile (heldIn u)).head? <;> rfl
  · rw [if_neg fun hAny => h (heldIn_iff.mpr hAny), if_neg h]
    rfl

end Poll

theorem inv_idleStep {w w' : IdleWatch} {a : IdleAction} (hInv : IdleInv w)
    (hStep : idleStep w a = some w') : IdleInv w' := by
  cases a with
  | restart =>
    cases hStep
    exact ⟨hInv.ascending, (fun d hd => by cases hd), hInv.since_eq⟩
  | poll m =>
    obtain ⟨hNext, rfl⟩ := Option.ite_some_none_eq_some.mp hStep
    refine ⟨ascending_poll hInv.ascending hNext, consistent_poll hInv.consistent,
      fun serverId u => ?_⟩
    change _ = (idleRun u (okSamples (w.metrics ++ [m]) serverId)).head?.map _
    by_cases hServer : serverId = m.serverId
    · subst hServer
      by_cases hOk : m.status = .ok
      · rw [okSamples_poll hOk]
        exact since_poll_same hInv hNext hOk u
      · rw [okSamples_poll_error hOk, ← hInv.since_eq]
        exact since_poll_error hOk m.serverId u
    · rw [okSamples_poll_other hServer, ← hInv.since_eq]
      exact since_poll_other hInv.consistent hServer

theorem inv_of_idle {w : IdleWatch} (hReach : Runs.Reach idleStep IdleStart Runs.Always w) :
    IdleInv w := by
  refine hReach.invariant ?_ fun w a w' hInv _ hStep => inv_idleStep hInv hStep
  rintro w rfl
  exact ⟨List.Pairwise.nil, (fun d hd => by cases hd), fun serverId u => rfl⟩

/-- The run of a GPU, when the history is cut where it began. -/
theorem idleRun_of_split {u : Text} {front run : List ServerMetric}
    (hRun : ∀ m ∈ run, heldIn u m = true) (hFront : ∀ m ∈ front.getLast?, heldIn u m = false) :
    idleRun u (front ++ run) = run := by
  induction run using List.reverseRecOn with
  | nil =>
    unfold idleRun
    rw [List.append_nil, List.rtakeWhile_eq_nil_iff]
    intro hne
    rw [hFront _ (List.getLast?_eq_getLast_of_ne_nil hne)]
    decide
  | append_singleton run m ih =>
    unfold idleRun at ih ⊢
    rw [← List.append_assoc, List.rtakeWhile_concat_pos _ _ _
      (hRun m (List.mem_append_right run List.mem_cons_self)),
      ih fun r hr => hRun r (List.mem_append_left _ hr)]

/-- After every poll the document has a key for exactly the GPUs that are held idle in the
latest successful sample of their server, the value is the time of the first sample of the run
in which they have been, and a poll changes no key of another server. -/
theorem idle_since_tracks_run {w : IdleWatch}
    (hReach : Runs.Reach idleStep IdleStart Runs.Always w) :
    (∀ serverId u, (rowDoc w.shared.persisted).contains (keyPrefix serverId ++ u) = true ↔
      ∃ m, (okSamples w.metrics serverId).getLast? = some m ∧ heldIn u m = true) ∧
    (∀ serverId u front first rest,
      okSamples w.metrics serverId = front ++ first :: rest →
        (∀ m ∈ first :: rest, heldIn u m = true) →
          (∀ m ∈ front.getLast?, heldIn u m = false) →
            (rowDoc w.shared.persisted).get? (keyPrefix serverId ++ u) =
              some first.collectedAt) ∧
    ∀ m w', idleStep w (.poll m) = some w' → ∀ serverId u, serverId ≠ m.serverId →
      (rowDoc w'.shared.persisted).get? (keyPrefix serverId ++ u) =
        (rowDoc w.shared.persisted).get? (keyPrefix serverId ++ u) := by
  have hInv := inv_of_idle hReach
  refine ⟨fun serverId u => ?_, ?_, ?_⟩
  · rw [Dict.contains_iff]
    change (w.since serverId u).isSome = true ↔ _
    rw [hInv.since_eq, Option.isSome_map, List.isSome_head?]
    rcases List.eq_nil_or_concat' (okSamples w.metrics serverId) with hNil | ⟨front, m, hLast⟩
    · rw [hNil]
      simp [idleRun]
    · rw [hLast, idleRun, List.rtakeWhile_concat]
      by_cases h : heldIn u m = true
      · simp [h]
      · simp [h]
  · intro serverId u front first rest hSplit hRun hFront
    change w.since serverId u = _
    rw [hInv.since_eq, hSplit, idleRun_of_split hRun hFront]
    rfl
  · intro m w' hStep serverId u hOther
    obtain ⟨-, rfl⟩ := Option.ite_some_none_eq_some.mp hStep
    exact since_poll_other hInv.consistent hOther

/-- A sample with one GPU that is held idle. -/
def heldSample (id serverId : Nat) (collectedAt : Int) : ServerMetric where
  id
  serverId
  collectedAt
  gpus := [{ uuid := some "GPU-a", memUsedMb := some 50, memTotalMb := some 100 }]

/-- Two servers whose ids begin alike, and a restart. -/
def twoServers : List IdleAction :=
  [.poll (heldSample 1 1 10), .poll (heldSample 2 11 15), .restart, .poll (heldSample 3 1 20)]

/-- Server 1 keeps its start over the poll of server 11 and the restart. -/
theorem idle_since_tracks_run_two : ∃ w,
    Runs.Reach idleStep IdleStart Runs.Always w ∧
      (rowDoc w.shared.persisted).contains (keyPrefix 1 ++ "GPU-a".toList) = true ∧
      (rowDoc w.shared.persisted).get? (keyPrefix 1 ++ "GPU-a".toList) = some 10 := by
  have hRun : (Runs.exec idleStep Runs.Always ⟨[], {}⟩ twoServers).any (fun w =>
      w.metrics = [heldSample 1 1 10, heldSample 2 11 15, heldSample 3 1 20]) = true := by
    decide +kernel
  obtain ⟨w, hw, hMetrics⟩ := (Option.any_eq_true _ _).mp hRun
  have hStart : IdleStart ⟨[], {}⟩ := rfl
  have hReach := (Runs.Reach.start hStart).of_exec hw
  have hSamples : okSamples w.metrics 1 = [heldSample 1 1 10, heldSample 3 1 20] := by
    rw [of_decide_eq_true hMetrics]
    decide
  have hHeld : ∀ m ∈ [heldSample 1 1 10, heldSample 3 1 20], heldIn "GPU-a" m = true := by
    decide +kernel
  obtain ⟨hKeys, hValues, -⟩ := idle_since_tracks_run hReach
  refine ⟨w, hReach, (hKeys 1 "GPU-a").mpr ⟨heldSample 3 1 20, by rw [hSamples]; rfl, ?_⟩, ?_⟩
  · exact hHeld _ (by simp)
  · exact hValues 1 "GPU-a" [] (heldSample 1 1 10) [heldSample 3 1 20] hSamples hHeld
      fun m hm => by cases hm

end GpuMon.IdleState

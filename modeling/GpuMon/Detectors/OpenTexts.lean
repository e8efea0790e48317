import GpuMon.Detectors.Keys

/-!
# The open events of a detector, as texts

What a detector reads and changes of the events of a server is the list of the texts of its open
ones: `_fire` adds a text unless one with the key is there, and `_recover` removes the first text
with the key. Both leave the texts of every other detector and server as they are.

* `openTexts_fire`, `openTexts_recover`: the table refines the list of texts.
* `open_iff_alarm_iff`: when a series of alarms leaves exactly its own keys open.
-/

namespace GpuMon.Detectors

open PyText

/-- The query of `_open_event`, less the key. -/
def isOpenOf (detector : Text) (serverId : Nat) (ev : AlertEvent) : Bool :=
  ev.ruleId.isNone && ev.metric = detector && ev.serverId = serverId && ev.isOpen

/-- The condition of the query on the message. -/
def matchesKey (key text : Text) : Bool := key = [] || likeContains (keyText key) text

/-- The open events of a detector and a server. -/
def openRows (events : Table AlertEvent) (detector : Text) (serverId : Nat) : List AlertEvent :=
  events.rows.filter (isOpenOf detector serverId)

/-- The texts of the open events of a detector and a server. -/
def openTexts (events : Table AlertEvent) (detector : Text) (serverId : Nat) : List Text :=
  (events.rows.filter (isOpenOf detector serverId)).map AlertEvent.message

/-- `_fire` on the texts. -/
def fireText (key message : Text) (texts : List Text) : List Text :=
  if texts.any (matchesKey key) then texts else texts ++ [keyedMessage key message]

theorem isOpenOf_iff {detector : Text} {serverId : Nat} {ev : AlertEvent} :
    isOpenOf detector serverId ev = true ↔ ev.ruleId = none ∧ ev.metric = detector ∧
      ev.serverId = serverId ∧ ev.isOpen = true := by
  simp [isOpenOf, and_assoc]

theorem matchesKey_keyedMessage_iff {key other message : Text} :
    matchesKey key (keyedMessage other message) = true ↔ Confused key other message := by
  rw [matchesKey, Bool.or_eq_true, decide_eq_true_eq, likeContains_iff]
  rfl

/-- The text of an event is found with its own key. -/
theorem matchesKey_self (key message : Text) : matchesKey key (keyedMessage key message) = true := by
  rw [matchesKey_keyedMessage_iff]
  by_cases hNil : key = []
  · exact .inl hNil
  · refine .inr ⟨[], keyText key, ' ' :: message, ?_, Like.refl _⟩
    rw [keyedMessage, if_neg hNil]
    rfl

section Refinement

variable {env : Environment} {events : Table AlertEvent} {detector detector' serverName message
  key : Text} {serverId serverId' : Nat} {value threshold : ℚ}

theorem openEvent_eq : openEvent events detector serverId key =
    events.rows.find? fun ev => isOpenOf detector serverId ev && matchesKey key ev.message := rfl

theorem openEvent_eq_some {ev : AlertEvent} (h : openEvent events detector serverId key = some ev) :
    isOpenOf detector serverId ev = true ∧ matchesKey key ev.message = true ∧
      ∃ before after, events.rows = before ++ ev :: after ∧
        ∀ x ∈ before, isOpenOf detector serverId x = true → matchesKey key x.message = false := by
  obtain ⟨hev, before, after, hRows, hBefore⟩ := List.find?_eq_some_iff_append.mp h
  obtain ⟨hOpenOf, hMatch⟩ := Bool.and_eq_true_iff.mp hev
  refine ⟨hOpenOf, hMatch, before, after, hRows, ?_⟩
  intro x hx hOpen
  have hNot : (!(isOpenOf detector serverId x && matchesKey key x.message)) = true := hBefore x hx
  rw [hOpen] at hNot
  simpa using hNot

theorem openEvent_isSome_iff : (openEvent events detector serverId key).isSome = true ↔
    (openTexts events detector serverId).any (matchesKey key) = true := by
  rw [openEvent_eq, List.find?_isSome, openTexts, List.any_map, List.any_filter, List.any_eq_true]
  rfl

theorem openTexts_insert (row : Nat → AlertEvent) (hKey : ∀ k, Keyed.key (row k) = k) :
    openTexts (events.insert row hKey) detector serverId =
      openTexts events detector serverId ++
        ([row events.nextKey].filter (isOpenOf detector serverId)).map AlertEvent.message := by
  unfold openTexts Table.insert
  rw [List.filter_append, List.map_append]

theorem openTexts_fire :
    openTexts (fire env events detector serverId serverName message value threshold key)
      detector serverId = fireText key message (openTexts events detector serverId) := by
  have hAny : (openEvent events detector serverId key).isSome = true ↔
    (openTexts events detector serverId).any (matchesKey key) = true := openEvent_isSome_iff
  unfold fire fireText
  cases hFound : openEvent events detector serverId key with
  | some ev => rw [if_pos (hAny.mp (by rw [hFound]; rfl))]
  | none =>
    have hNot : ¬ (openTexts events detector serverId).any (matchesKey key) = true := by
      rw [← hAny, hFound]
      decide
    rw [if_neg hNot]
    change openTexts (events.insert _ _) detector serverId = _
    rw [openTexts_insert, List.filter_cons_of_pos]
    · rfl
    · simp [isOpenOf, detectorEvent, AlertEvent.isOpen]

theorem openRows_fire_of_ne (hOther : detector' ≠ detector ∨ serverId' ≠ serverId) :
    openRows (fire env events detector serverId serverName message value threshold key)
      detector' serverId' = openRows events detector' serverId' := by
  unfold fire
  split
  · rfl
  · unfold openRows Table.insert
    rw [List.filter_append, List.filter_cons_of_neg]
    · exact List.append_nil _
    · rw [isOpenOf_iff]
      rintro ⟨-, hMetric, hServer, -⟩
      rcases hOther with h | h
      · exact h hMetric.symm
      · exact h hServer.symm

theorem openTexts_fire_of_ne (hOther : detector' ≠ detector ∨ serverId' ≠ serverId) :
    openTexts (fire env events detector serverId serverName message value threshold key)
      detector' serverId' = openTexts events detector' serverId' :=
  congrArg (List.map AlertEvent.message) (openRows_fire_of_ne hOther)

/-- What is left of the open events of a detector when one event is closed. -/
theorem openRows_close {ev : AlertEvent} {before after : List AlertEvent} {closedAt : Int}
    (hRows : events.rows = before ++ ev :: after) :
    openRows (events.modify ev.id (fun ev => { ev with recoveredAt := some closedAt }) fun _ => rfl)
      detector serverId = (before ++ after).filter (isOpenOf detector serverId) := by
  have hNew : (events.modify (Keyed.key ev) (fun ev => { ev with recoveredAt := some closedAt })
      fun _ => rfl).rows = before ++ { ev with recoveredAt := some closedAt } :: after :=
    Table.rows_modify hRows
  unfold openRows
  change (events.modify (Keyed.key ev) _ _).rows.filter _ = _
  rw [hNew, List.filter_append, List.filter_cons_of_neg, ← List.filter_append]
  simp [isOpenOf, AlertEvent.isOpen]

theorem openTexts_close {ev : AlertEvent} {before after : List AlertEvent} {closedAt : Int}
    (hRows : events.rows = before ++ ev :: after) :
    openTexts (events.modify ev.id (fun ev => { ev with recoveredAt := some closedAt }) fun _ => rfl)
      detector serverId =
      ((before ++ after).filter (isOpenOf detector serverId)).map AlertEvent.message :=
  congrArg (List.map AlertEvent.message) (openRows_close hRows)

theorem openTexts_recover :
    openTexts (recover env events detector serverId key) detector serverId =
      (openTexts events detector serverId).eraseP (matchesKey key) := by
  unfold recover
  cases hFound : openEvent events detector serverId key with
  | none =>
    rw [List.eraseP_of_forall_not]
    intro t ht hMatch
    have hAny := openEvent_isSome_iff.mpr (List.any_eq_true.mpr ⟨t, ht, hMatch⟩)
    rw [hFound] at hAny
    cases hAny
  | some ev =>
    obtain ⟨hOpenOf, hMatch, before, after, hRows, hBefore⟩ := openEvent_eq_some hFound
    change openTexts (events.modify ev.id _ _) detector serverId = _
    rw [openTexts_close hRows, openTexts, hRows]
    rw [List.filter_append, List.filter_append, List.filter_cons_of_pos hOpenOf, List.map_append,
      List.map_append, List.map_cons, List.eraseP_append_right, List.eraseP_cons_of_pos hMatch]
    -- nothing in front of the event has the key
    intro t ht hText
    obtain ⟨x, hx, rfl⟩ := List.mem_map.mp ht
    obtain ⟨hx, hOpen⟩ := List.mem_filter.mp hx
    rw [hBefore x hx hOpen] at hText
    cases hText

theorem openRows_recover_of_ne (hOther : detector' ≠ detector ∨ serverId' ≠ serverId) :
    openRows (recover env events detector serverId key) detector' serverId' =
      openRows events detector' serverId' := by
  unfold recover
  cases hFound : openEvent events detector serverId key with
  | none => rfl
  | some ev =>
    obtain ⟨hOpenOf, -, before, after, hRows, -⟩ := openEvent_eq_some hFound
    obtain ⟨-, hMetric, hServer, -⟩ := isOpenOf_iff.mp hOpenOf
    change openRows (events.modify ev.id _ _) detector' serverId' = _
    rw [openRows_close hRows, openRows, hRows, List.filter_append, List.filter_append,
      List.filter_cons_of_neg]
    rw [isOpenOf_iff]
    rintro ⟨-, hMetric', hServer', -⟩
    rcases hOther with h | h
    · exact h (hMetric'.symm.trans hMetric)
    · exact h (hServer'.symm.trans hServer)

theorem openTexts_recover_of_ne (hOther : detector' ≠ detector ∨ serverId' ≠ serverId) :
    openTexts (recover env events detector serverId key) detector' serverId' =
      openTexts events detector' serverId' :=
  congrArg (List.map AlertEvent.message) (openRows_recover_of_ne hOther)

theorem mem_fire_of_mem {ev : AlertEvent} (h : ev ∈ events.rows) :
    ev ∈ (fire env events detector serverId serverName message value threshold key).rows := by
  unfold fire
  split
  · exact h
  · exact Table.mem_insert.mpr (.inl h)

/-- What is opened by a recovery: nothing. -/
theorem openRows_recover_subset :
    openRows (recover env events detector serverId key) detector' serverId' ⊆
      openRows events detector' serverId' := by
  intro ev hev
  obtain ⟨hRow, hOpenOf⟩ := List.mem_filter.mp hev
  exact List.mem_filter.mpr ⟨isOpen_of_recover hRow (isOpenOf_iff.mp hOpenOf).2.2.2, hOpenOf⟩

end Refinement

/-! ## A detector whose messages are made of the key -/

section OpenKeys

variable (message : Text → Text)

/-- The text of the event of a key. -/
def textOf (key : Text) : Text := keyedMessage key (message key)

/-- `_fire` on the keys of the open events. -/
def fireKey (openKeys : List Text) (key : Text) : List Text :=
  if openKeys.any fun other => matchesKey key (textOf message other) then openKeys
  else openKeys ++ [key]

theorem fireText_map (openKeys : List Text) (key : Text) :
    fireText key (message key) (openKeys.map (textOf message)) =
      (fireKey message openKeys key).map (textOf message) := by
  have hAny : (openKeys.map (textOf message)).any (matchesKey key) =
      openKeys.any fun other => matchesKey key (textOf message other) := List.any_map
  unfold fireText fireKey
  rw [hAny]
  split
  · rfl
  · rw [List.map_append]
    rfl

variable {message} {openKeys : List Text} {key : Text}

theorem mem_fireKey {k : Text} (h : k ∈ fireKey message openKeys key) :
    k ∈ openKeys ∨ k = key := by
  unfold fireKey at h
  split at h
  · exact .inl h
  · simpa using h

theorem mem_fireKey_of_mem {k : Text} (h : k ∈ openKeys) : k ∈ fireKey message openKeys key := by
  unfold fireKey
  split
  · exact h
  · exact List.mem_append_left _ h

/-- A key that is not open after its alarm was taken for another one. -/
theorem key_mem_fireKey_iff : key ∈ fireKey message openKeys key ↔
    key ∈ openKeys ∨ ∀ other ∈ openKeys, ¬ Confused key other (message other) := by
  have hAny : (openKeys.any fun other => matchesKey key (textOf message other)) = true ↔
      ∃ other ∈ openKeys, Confused key other (message other) := by
    rw [List.any_eq_true]
    exact exists_congr fun other => and_congr_right fun _ => matchesKey_keyedMessage_iff
  unfold fireKey
  split
  · rename_i hMatch
    obtain ⟨other, hOther, hConfused⟩ := hAny.mp hMatch
    constructor
    · exact .inl
    · rintro (h | h)
      · exact h
      · exact absurd hConfused (h other hOther)
  · rename_i hNone
    constructor
    · intro _
      exact .inr fun other hOther hConfused => hNone (hAny.mpr ⟨other, hOther, hConfused⟩)
    · intro _
      exact List.mem_append_right _ List.mem_cons_self

theorem mem_foldl_fireKey {alarms : List Text} {k : Text}
    (h : k ∈ alarms.foldl (fireKey message) openKeys) : k ∈ openKeys ∨ k ∈ alarms := by
  induction alarms generalizing openKeys with
  | nil => exact .inl h
  | cons a alarms ih =>
    rcases ih h with h | h
    · rcases mem_fireKey h with h | rfl
      · exact .inl h
      · exact .inr List.mem_cons_self
    · exact .inr (List.mem_cons_of_mem a h)

theorem mem_foldl_fireKey_of_mem {alarms : List Text} {k : Text} (h : k ∈ openKeys) :
    k ∈ alarms.foldl (fireKey message) openKeys := by
  induction alarms generalizing openKeys with
  | nil => exact h
  | cons a alarms ih => exact ih (mem_fireKey_of_mem h)

/-- An alarm that was not raised the first time is not raised later: what is open stays open. -/
theorem not_raised_later {alarms : List Text} {other : Text} (hKey : key ∉ openKeys)
    (hOther : other ∈ openKeys) (hConfused : Confused key other (message other)) :
    key ∉ alarms.foldl (fireKey message) openKeys := by
  induction alarms generalizing openKeys with
  | nil => exact hKey
  | cons a alarms ih =>
    refine ih ?_ (mem_fireKey_of_mem hOther)
    intro hMem
    rcases mem_fireKey hMem with hMem | rfl
    · exact hKey hMem
    · rcases key_mem_fireKey_iff.mp hMem with hMem | hClear
      · exact hKey hMem
      · exact hClear other hOther hConfused

variable (message) in
/-- No key that is new among the alarms is confused with one that is open or came before it. -/
def ClearAlarms (openKeys alarms : List Text) : Prop :=
  ∀ before key after, alarms = before ++ key :: after → key ∉ openKeys → key ∉ before →
    ∀ other, other ∈ openKeys ∨ other ∈ before → ¬ Confused key other (message other)

/-- An alarm that was not raised was taken for an open one. -/
theorem raised_or_confused {alarms : List Text} {k : Text} (h : k ∈ alarms) :
    k ∈ alarms.foldl (fireKey message) openKeys ∨
      ∃ other ∈ alarms.foldl (fireKey message) openKeys, Confused k other (message other) := by
  induction alarms generalizing openKeys with
  | nil => cases h
  | cons a alarms ih =>
    by_cases hRest : k ∈ alarms
    · exact ih hRest
    obtain rfl : k = a := (List.mem_cons.mp h).resolve_right hRest
    rw [List.foldl_cons]
    by_cases hMem : k ∈ fireKey message openKeys k
    · exact .inl (mem_foldl_fireKey_of_mem hMem)
    · rw [key_mem_fireKey_iff, not_or] at hMem
      push Not at hMem
      obtain ⟨-, other, hOther, hConfused⟩ := hMem
      exact .inr ⟨other, mem_foldl_fireKey_of_mem (mem_fireKey_of_mem hOther), hConfused⟩

theorem clearAlarms_of_open {alarms : List Text}
    (hAll : ∀ k ∈ alarms, k ∈ alarms.foldl (fireKey message) openKeys) :
    ClearAlarms message openKeys alarms := by
  intro before key after hSplit hNew hFirst other hOther hConfused
  rw [hSplit, List.foldl_append] at hAll
  have hAbsent : key ∉ before.foldl (fireKey message) openKeys := by
    intro h
    rcases mem_foldl_fireKey h with h | h
    · exact hNew h
    · exact hFirst h
  have hPresent : other ∈ before.foldl (fireKey message) openKeys := by
    rcases hOther with h | h
    · exact mem_foldl_fireKey_of_mem h
    by_contra hNot
    rcases raised_or_confused h with h' | ⟨third, hThird, hConfused'⟩
    · exact hNot h'
    · exact not_raised_later hNot hThird hConfused' (hAll other (List.mem_append_left _ h))
  exact not_raised_later hAbsent hPresent hConfused
    (hAll key (List.mem_append_right before List.mem_cons_self))

theorem open_of_clearAlarms {alarms : List Text} (hClear : ClearAlarms message openKeys alarms) :
    ∀ k ∈ alarms, k ∈ alarms.foldl (fireKey message) openKeys := by
  induction alarms generalizing openKeys with
  | nil =>
    intro k hk
    cases hk
  | cons a alarms ih =>
    have hRaised : a ∈ fireKey message openKeys a := by
      rw [key_mem_fireKey_iff]
      by_cases hMem : a ∈ openKeys
      · exact .inl hMem
      · exact .inr fun other hOther =>
          hClear [] a alarms rfl hMem List.not_mem_nil other (.inl hOther)
    have hRest : ClearAlarms message (fireKey message openKeys a) alarms := by
      intro before key after hSplit hNew hFirst other hOther
      have hNe : key ≠ a := by
        rintro rfl
        exact hNew hRaised
      refine hClear (a :: before) key after (by rw [hSplit]; rfl)
        (fun h => hNew (mem_fireKey_of_mem h)) ?_ other ?_
      · intro h
        rcases List.mem_cons.mp h with h | h
        · exact hNe h
        · exact hFirst h
      · rcases hOther with h | h
        · rcases mem_fireKey h with h | rfl
          · exact .inl h
          · exact .inr List.mem_cons_self
        · exact .inr (List.mem_cons_of_mem a h)
    intro k hk
    rw [List.foldl_cons]
    rcases List.mem_cons.mp hk with rfl | hk
    · exact mem_foldl_fireKey_of_mem hRaised
    · exact ih hRest k hk

/-- After a series of alarms exactly the keys of the series are open if and only if those that
were open before are among them and no key is confused with another. -/
theorem open_iff_alarm_iff {alarms : List Text} :
    (∀ k, k ∈ alarms.foldl (fireKey message) openKeys ↔ k ∈ alarms) ↔
      (∀ k ∈ openKeys, k ∈ alarms) ∧ ClearAlarms message openKeys alarms := by
  constructor
  · intro h
    refine ⟨fun k hk => (h k).mp (mem_foldl_fireKey_of_mem hk), ?_⟩
    exact clearAlarms_of_open fun k hk => (h k).mpr hk
  · rintro ⟨hStill, hClear⟩ k
    constructor
    · intro hk
      rcases mem_foldl_fireKey hk with hk | hk
      · exact hStill k hk
      · exact hk
    · exact open_of_clearAlarms hClear k

end OpenKeys

end GpuMon.Detectors

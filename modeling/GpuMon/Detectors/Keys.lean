import GpuMon.Detectors
import GpuMon.Library.Like

/-!
# The keys of detector events

The open event of a detector, a server and a key is found by its text: `LIKE '%[key]%'` on the
message, and no condition at all for the empty key. The `LIKE` is that of SQLite, where the case
of the ASCII letters does not count and no character escapes another.

* `isolated_iff`: a key keeps clear of the events of another one exactly when it is not empty
  and no piece of their text matches `[key]` as a pattern.
* `confused_plain_iff`: between keys without wildcards and brackets, what is left to confuse
  them is upper and lower case and the body of the message.
* `underscore_key_confused`: `PSU_1` finds the event of `PSU 1`.
-/

namespace GpuMon.Detectors

open PyText

/-! ## `LIKE` -/

/-- The matcher of `likeRegex` follows the rules of `LIKE`. -/
theorem exists_mem_go_likeRegex {pattern rest : Text} {c : Regex.Cursor} :
    (∃ e ∈ Regex.go (likeRegex pattern) c, e.after = rest) ↔
      ∃ w, c.after = w ++ rest ∧ Like pattern w := by
  induction pattern generalizing c with
  | nil =>
    simp only [likeRegex, Regex.mem_go_eps, exists_eq_left, Like.nil_iff]
    constructor
    · intro h
      exact ⟨[], h, rfl⟩
    · rintro ⟨w, h, rfl⟩
      exact h
  | cons ch pattern ih =>
    unfold likeRegex
    by_cases hPercent : ch = '%'
    · subst hPercent
      rw [if_pos rfl]
      simp only [Regex.mem_go_seq, Regex.star, Regex.mem_go_rep, Like.percent_iff]
      constructor
      · rintro ⟨e, ⟨m, ⟨k, -, -, rfl⟩, he⟩, hRest⟩
        obtain ⟨w, hAfter, hw⟩ := ih.mp ⟨e, he, hRest⟩
        refine ⟨c.after.take k ++ w, ?_, c.after.take k, w, rfl, hw⟩
        rw [List.append_assoc, ← hAfter, Regex.Cursor.advance_after, List.take_append_drop]
      · rintro ⟨-, hAfter, a, w, rfl, hw⟩
        have hDrop : (c.advance a.length).after = w ++ rest := by
          rw [Regex.Cursor.advance_after, hAfter, List.append_assoc, List.drop_left]
        obtain ⟨e, he, hRest⟩ := ih.mpr ⟨w, hDrop, hw⟩
        refine ⟨e, ⟨c.advance a.length, ⟨a.length, Nat.zero_le _, ?_, rfl⟩, he⟩, hRest⟩
        simp [Regex.runLength, hAfter]
    by_cases hUnderscore : ch = '_'
    · subst hUnderscore
      rw [if_neg (by decide), if_pos rfl]
      simp only [Regex.mem_go_seq, Regex.mem_go_chr, Like.underscore_iff]
      constructor
      · rintro ⟨e, ⟨m, ⟨x, tail, hCons, -, rfl⟩, he⟩, hRest⟩
        obtain ⟨w, hAfter, hw⟩ := ih.mp ⟨e, he, hRest⟩
        rw [Regex.Cursor.advance_after, hCons] at hAfter
        exact ⟨x :: w, by rw [hCons, List.cons_append, ← hAfter]; rfl, x, w, rfl, hw⟩
      · rintro ⟨-, hCons, x, w, rfl, hw⟩
        have hDrop : (c.advance 1).after = w ++ rest := by
          rw [Regex.Cursor.advance_after, hCons]
          rfl
        obtain ⟨e, he, hRest⟩ := ih.mpr ⟨w, hDrop, hw⟩
        exact ⟨e, ⟨c.advance 1, ⟨x, w ++ rest, hCons, trivial, rfl⟩, he⟩, hRest⟩
    · rw [if_neg hPercent, if_neg hUnderscore]
      simp only [Regex.mem_go_seq, Regex.mem_go_chr, Like.char_iff hPercent hUnderscore,
        decide_eq_true_eq]
      constructor
      · rintro ⟨e, ⟨m, ⟨x, tail, hCons, hx, rfl⟩, he⟩, hRest⟩
        obtain ⟨w, hAfter, hw⟩ := ih.mp ⟨e, he, hRest⟩
        rw [Regex.Cursor.advance_after, hCons] at hAfter
        exact ⟨x :: w, by rw [hCons, List.cons_append, ← hAfter]; rfl, x, w, rfl, hx, hw⟩
      · rintro ⟨-, hCons, x, w, rfl, hx, hw⟩
        have hDrop : (c.advance 1).after = w ++ rest := by
          rw [Regex.Cursor.advance_after, hCons]
          rfl
        obtain ⟨e, he, hRest⟩ := ih.mpr ⟨w, hDrop, hw⟩
        exact ⟨e, ⟨c.advance 1, ⟨x, w ++ rest, hCons, hx, rfl⟩, he⟩, hRest⟩

theorem likeContains_iff {needle t : Text} :
    likeContains needle t = true ↔ ∃ a w b, t = a ++ w ++ b ∧ Like needle w := by
  rw [← Like.contains_iff, likeContains, List.any_eq_true]
  simp only [decide_eq_true_eq]
  rw [exists_mem_go_likeRegex]
  simp [Regex.Cursor.start]

/-! ## Isolation -/

/-- An open event of the detector and the server that was fired with the key and the message. -/
structure FiredWith (detector : Text) (serverId : Nat) (key message : Text) (ev : AlertEvent) :
    Prop where
  ruleId : ev.ruleId = none
  metric : ev.metric = detector
  server : ev.serverId = serverId
  text : ev.message = keyedMessage key message
  isOpen : ev.isOpen = true

/-- No event that was fired with `other` and `message` is the one for which `_fire` with `key`
does nothing, and none is closed by `_recover` with `key`. -/
structure Isolated (detector : Text) (serverId : Nat) (key other message : Text) : Prop where
  neverSuppresses : ∀ events ev, FiredWith detector serverId other message ev →
    openEvent events detector serverId key ≠ some ev
  neverClosed : ∀ env (events : Table AlertEvent) ev,
    FiredWith detector serverId other message ev → ev ∈ events.rows →
      ev ∈ (recover env events detector serverId key).rows

/-- The query for a key finds an event of another. -/
theorem openEvent_firedWith {events : Table AlertEvent} {ev : AlertEvent}
    {detector key other message : Text} {serverId : Nat}
    (hFired : FiredWith detector serverId other message ev)
    (h : openEvent events detector serverId key = some ev) :
    key = [] ∨ likeContains (keyText key) (keyedMessage other message) = true := by
  have hMatch := List.find?_some h
  simp only [Bool.and_eq_true, Bool.or_eq_true, decide_eq_true_eq] at hMatch
  rw [← hFired.text]
  exact hMatch.2

/-- The text of an event in which the query for a key finds the key. -/
def Confused (key other message : Text) : Prop :=
  key = [] ∨ ∃ a w b, keyedMessage other message = a ++ w ++ b ∧ Like (keyText key) w

theorem openEvent_singleton (detector : Text) (serverId : Nat) {key other message : Text}
    (h : Confused key other message) : ∃ (events : Table AlertEvent) (ev : AlertEvent),
      FiredWith detector serverId other message ev ∧
        openEvent events detector serverId key = some ev := by
  let ev : AlertEvent := ⟨1, none, detector, serverId, [], detector, 0, 0,
    keyedMessage other message, 0, none, none, [], false⟩
  refine ⟨⟨[ev], List.nodup_singleton _⟩, ev, ⟨rfl, rfl, rfl, rfl, rfl⟩, ?_⟩
  have hText : (key = [] || likeContains (keyText key) ev.message) = true := by
    rw [Bool.or_eq_true, decide_eq_true_eq, likeContains_iff]
    exact h
  unfold openEvent
  rw [List.find?_cons_of_pos]
  rw [hText]
  simp [ev, AlertEvent.isOpen]

theorem not_isolated_of_confused {detector key other message : Text} {serverId : Nat}
    (hConfused : Confused key other message) : ¬ Isolated detector serverId key other message := by
  intro hIsolated
  obtain ⟨events, ev, hFired, hOpen⟩ := openEvent_singleton detector serverId hConfused
  exact hIsolated.neverSuppresses events ev hFired hOpen

theorem isolated_of_clear {detector key other message : Text} {serverId : Nat}
    (hClear : ¬ Confused key other message) : Isolated detector serverId key other message := by
  have hNever : ∀ events ev, FiredWith detector serverId other message ev →
      openEvent events detector serverId key ≠ some ev := by
    intro events ev hFired hOpen
    exact hClear ((openEvent_firedWith hFired hOpen).imp_right likeContains_iff.mp)
  refine ⟨hNever, ?_⟩
  intro env events ev hFired hev
  unfold recover
  split
  · exact hev
  · rename_i found hFound
    refine Table.mem_modify.mpr (.inl ⟨hev, ?_⟩)
    intro hSame
    have hMem := List.mem_of_find?_eq_some hFound
    cases Table.eq_of_key_eq hev hMem hSame
    exact hNever events ev hFired hFound

/-- A key keeps clear of the events of another one exactly when it is not empty and no piece of
their text is like `[key]`. -/
theorem isolated_iff {detector key other message : Text} {serverId : Nat} :
    Isolated detector serverId key other message ↔ key ≠ [] ∧
      ¬ ∃ a w b, keyedMessage other message = a ++ w ++ b ∧ Like (keyText key) w := by
  constructor
  · intro hIsolated
    exact not_or.mp fun hConfused => not_isolated_of_confused hConfused hIsolated
  · intro hClear
    exact isolated_of_clear (not_or.mpr hClear)

def quietClock : Environment := ⟨0, fun _ => true⟩

/-- The bad sensor `PSU 1` has an open event. -/
def psuEvents : Table AlertEvent :=
  fire quietClock .empty "PSU_FAULT" 7 "gpu-7" "电源传感器异常：PSU 1" 0 0 "PSU 1"

/-- `PSU_1` finds the event of `PSU 1`: its own fault is not reported, and `_recover` would
close the other one's. -/
theorem underscore_key_confused :
    ("PSU_1" : Text) ≠ "PSU 1" ∧ psuEvents.rows.any AlertEvent.isOpen = true ∧
      fire quietClock psuEvents "PSU_FAULT" 7 "gpu-7" "电源传感器异常：PSU_1" 0 0 "PSU_1" =
        psuEvents ∧
      (recover quietClock psuEvents "PSU_FAULT" 7 "PSU_1").rows.any AlertEvent.isOpen = false := by
  decide +kernel

/-! ## Keys without wildcards -/

/-- A key that stands between brackets as it is: no wildcard and no bracket. -/
structure PlainKey (key : Text) : Prop where
  plain : Like.Plain key
  noLeft : '[' ∉ key
  noRight : ']' ∉ key

theorem toLower_eq_bracket {x : Char} (h : x.toLower = '[' ∨ x.toLower = ']') :
    x.toLower = x := by
  unfold Char.toLower at h ⊢
  by_cases hUpper : x.val ≥ 'A'.val ∧ x.val ≤ 'Z'.val
  · exfalso
    rw [dif_pos hUpper, Char.ext_iff, Char.ext_iff] at h
    have hLow := UInt32.le_iff_toNat_le.mp hUpper.1
    have hHigh := UInt32.le_iff_toNat_le.mp hUpper.2
    rcases h with h | h
    all_goals
      have hVal := congrArg UInt32.toNat h
      simp at hVal hLow hHigh
      omega
  · rw [dif_neg hUpper]

theorem like_keyText_iff {key w : Text} :
    Like (keyText key) w ↔ ∃ inner, w = keyText inner ∧ Like key inner := by
  unfold keyText
  rw [List.cons_append, Like.char_iff (by decide) (by decide)]
  simp only [Like.append_iff, Like.char_iff (show ']' ≠ '%' by decide) (by decide), Like.nil_iff]
  constructor
  · rintro ⟨x, -, rfl, hx, inner, -, rfl, hInner, y, -, rfl, hy, rfl⟩
    have hLeft : x = '[' := (toLower_eq_bracket (.inl hx)).symm.trans hx
    have hRight : y = ']' := (toLower_eq_bracket (.inr hy)).symm.trans hy
    exact ⟨inner, by rw [hLeft, hRight]; rfl, hInner⟩
  · rintro ⟨inner, rfl, hInner⟩
    exact ⟨'[', inner ++ [']'], rfl, rfl, inner, [']'], rfl, hInner, ']', [], rfl, rfl, rfl⟩

/-- A bracket that is not in the first part of a text is in the second. -/
theorem append_bracket_split {c : Char} {p t a r : Text} (hp : c ∉ p)
    (h : p ++ t = a ++ c :: r) : ∃ a', t = a' ++ c :: r := by
  rcases List.append_eq_append_iff.mp h with ⟨a', -, ht⟩ | ⟨s, hs, ht⟩
  · exact ⟨a', ht⟩
  · cases s with
    | nil => exact ⟨[], ht.symm⟩
    | cons x s =>
      obtain ⟨rfl, -⟩ := List.cons.inj ht
      exact absurd (hs ▸ List.mem_append_right a List.mem_cons_self) hp

/-- Between plain keys there are two ways to confuse them: upper and lower case, and a message
with the other key in it. -/
theorem confused_plain_iff {key other message : Text} (hKey : PlainKey key) (hNil : key ≠ [])
    (hOther : PlainKey other) (hOtherNil : other ≠ []) :
    Confused key other message ↔ key.map Char.toLower = other.map Char.toLower ∨
      ∃ a w b, message = a ++ w ++ b ∧ Like (keyText key) w := by
  unfold Confused
  rw [or_iff_right hNil, keyedMessage, if_neg hOtherNil]
  constructor
  · rintro ⟨a, w, b, hText, hw⟩
    obtain ⟨inner, rfl, hInner⟩ := like_keyText_iff.mp hw
    have hLower := (Like.plain_iff hKey.plain).mp hInner
    cases a with
    | nil =>
      have hNoRight : ']' ∉ inner := by
        intro hMem
        have hMapped := List.mem_map_of_mem (f := Char.toLower) hMem
        rw [hLower] at hMapped
        obtain ⟨x, hx, hSame⟩ := List.mem_map.mp hMapped
        have hx' : x = ']' := (toLower_eq_bracket (.inr hSame)).symm.trans hSame
        exact hKey.noRight (hx' ▸ hx)
      have hTail : other ++ ']' :: ' ' :: message = inner ++ ']' :: b := by
        simpa [keyText] using hText
      obtain ⟨rfl, -⟩ := append_mark_inj hOther.noRight hNoRight hTail
      exact .inl hLower.symm
    | cons x a =>
      have hTail := (List.cons.inj hText).2
      obtain ⟨a', hBody⟩ : ∃ a', message = a' ++ '[' :: (inner ++ [']'] ++ b) := by
        refine append_bracket_split (p := other ++ [']', ' ']) (a := a) ?_ ?_
        · intro hMem
          rcases List.mem_append.mp hMem with hMem | hMem
          · exact hOther.noLeft hMem
          · revert hMem
            decide
        · simpa [keyText] using hTail
      exact .inr ⟨a', keyText inner, b, by simp [hBody, keyText], hw⟩
  · rintro (hLower | ⟨a, w, b, rfl, hw⟩)
    · refine ⟨[], keyText other, ' ' :: message, rfl, ?_⟩
      exact like_keyText_iff.mpr ⟨other, rfl, (Like.plain_iff hKey.plain).mpr hLower.symm⟩
    · exact ⟨keyText other ++ ' ' :: a, w, b, by simp, hw⟩

end GpuMon.Detectors

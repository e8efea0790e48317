import Mathlib.Tactic

/-!
# Maps whose entries expire

The ideal map holds, for every key, the value written last and the instant until which it may
be read. A cache that saves space holds fewer entries: it may leave out what has expired, and
what it gave up although it was still readable (`lost`). `Covers` relates the two; every
operation of a cache keeps it, and a reader of the cache gets either nothing or what the ideal
map has.
-/

universe u v w

/-- What was last written under each key, with the instant until which it may be read. -/
abbrev TtlMap (κ : Type u) (τ : Type v) (ν : Type w) := κ → Option (τ × ν)

namespace TtlMap

variable {κ : Type u} {τ : Type v} {ν : Type w} [LinearOrder τ]

def empty : TtlMap κ τ ν := fun _ => none

def set [DecidableEq κ] (m : TtlMap κ τ ν) (k : κ) (expires : τ) (value : ν) : TtlMap κ τ ν :=
  Function.update m k (some (expires, value))

def forget (m : TtlMap κ τ ν) (gone : κ → Bool) : TtlMap κ τ ν :=
  fun k => if gone k then none else m k

/-- The value under a key, unless it has expired. -/
def lookup (m : TtlMap κ τ ν) (now : τ) (k : κ) : Option ν :=
  ((m k).filter fun e => now ≤ e.1).map Prod.snd

/-- `cache` has nothing that `m` has not, and all of `m` that can still be read and is not
`lost`. -/
structure Covers (cache m : TtlMap κ τ ν) (lost : κ → Prop) (now : τ) : Prop where
  sound : ∀ k e, cache k = some e → m k = some e
  complete : ∀ k e, m k = some e → now ≤ e.1 → ¬lost k → cache k = some e

namespace Covers

variable {cache cache' m : TtlMap κ τ ν} {lost lost' : κ → Prop} {now now' : τ}

theorem later (h : Covers cache m lost now) (hLater : now ≤ now') :
    Covers cache m lost now' where
  sound := h.sound
  complete k e hMap hLive hKept := h.complete k e hMap (hLater.trans hLive) hKept

theorem lookup_eq (h : Covers cache m lost now) {k : κ} (hKept : ¬lost k) :
    cache.lookup now k = m.lookup now k := by
  have hEntry : (cache k).filter (fun e => now ≤ e.1) = (m k).filter fun e => now ≤ e.1 := by
    refine Option.ext fun e => ?_
    simp only [Option.filter_eq_some_iff, decide_eq_true_eq]
    constructor
    · rintro ⟨hCache, hLive⟩
      exact ⟨h.sound k e hCache, hLive⟩
    · rintro ⟨hMap, hLive⟩
      exact ⟨h.complete k e hMap hLive hKept, hLive⟩
  rw [lookup, hEntry, lookup]

theorem lookup_none_or (h : Covers cache m lost now) (k : κ) :
    cache.lookup now k = none ∨ cache.lookup now k = m.lookup now k := by
  cases hCache : cache k with
  | none =>
    left
    rw [lookup, hCache]
    rfl
  | some e =>
    right
    rw [lookup, hCache, lookup, h.sound k e hCache]

theorem set [DecidableEq κ] (h : Covers cache m lost now) (k : κ) (expires : τ) (value : ν) :
    Covers (cache.set k expires value) (m.set k expires value)
      (fun k' => lost k' ∧ k' ≠ k) now where
  sound k' e hCache := by
    unfold TtlMap.set at hCache ⊢
    by_cases hKey : k' = k
    · rw [hKey, Function.update_self] at hCache ⊢
      exact hCache
    · rw [Function.update_of_ne hKey] at hCache ⊢
      exact h.sound k' e hCache
  complete k' e hMap hLive hKept := by
    unfold TtlMap.set at hMap ⊢
    by_cases hKey : k' = k
    · rw [hKey, Function.update_self] at hMap ⊢
      exact hMap
    · rw [Function.update_of_ne hKey] at hMap ⊢
      exact h.complete k' e hMap hLive fun hLost => hKept ⟨hLost, hKey⟩

theorem forget (h : Covers cache m lost now) (gone : κ → Bool) :
    Covers (cache.forget gone) (m.forget gone) lost now where
  sound k e hCache := by
    unfold TtlMap.forget at hCache ⊢
    split at hCache
    · cases hCache
    · rename_i hStays
      rw [if_neg hStays]
      exact h.sound k e hCache
  complete k e hMap hLive hKept := by
    unfold TtlMap.forget at hMap ⊢
    split at hMap
    · cases hMap
    · rename_i hStays
      rw [if_neg hStays]
      exact h.complete k e hMap hLive hKept

/-- A cache may drop entries, when each that can still be read is counted among the lost. -/
theorem drop (h : Covers cache m lost now)
    (hSub : ∀ k e, cache' k = some e → cache k = some e)
    (hDrop : ∀ k e, cache k = some e → now ≤ e.1 → ¬lost' k → cache' k = some e)
    (hLost : ∀ k, lost k → lost' k) : Covers cache' m lost' now where
  sound k e hCache := h.sound k e (hSub k e hCache)
  complete k e hMap hLive hKept :=
    hDrop k e (h.complete k e hMap hLive fun hk => hKept (hLost k hk)) hLive hKept

end Covers

end TtlMap

import Mathlib.Tactic

/-!
# Slots

A list whose entries are addressed by their index: an entry is replaced in place or appended, and
never removed. Threads and calls of a system that starts new ones are kept so.

* `getElem?_set_of_some`, `getElem?_concat`: what a slot holds after a step.
* `Grows`: every slot stays and keeps what a relation says of it.
-/

namespace Slots

universe u

variable {α : Type u}

theorem lt_of_some {l : List α} {i : Nat} {a : α} (h : l[i]? = some a) : i < l.length :=
  (List.getElem?_eq_some_iff.mp h).1

theorem getElem?_set_of_some {l : List α} {i : Nat} {a : α} (h : l[i]? = some a) (b : α)
    (j : Nat) : (l.set i b)[j]? = if j = i then some b else l[j]? := by
  rw [List.getElem?_set]
  split
  · rename_i hEq
    subst hEq
    rw [if_pos (lt_of_some h), if_pos rfl]
  · rename_i hNe
    rw [if_neg fun h => hNe h.symm]

theorem getElem?_concat (l : List α) (a : α) (j : Nat) :
    (l ++ [a])[j]? = if j = l.length then some a else l[j]? := by
  rw [List.getElem?_append]
  split
  · rename_i hLt
    rw [if_neg hLt.ne]
  · rename_i hLe
    split
    · rename_i hEq
      simp [hEq]
    · rename_i hNe
      rw [List.getElem?_eq_none (by simp; omega), List.getElem?_eq_none (by omega)]

theorem of_set {l : List α} {i j : Nat} {a b c : α} (h : l[i]? = some a)
    (hj : (l.set i b)[j]? = some c) : (j = i ∧ c = b) ∨ (j ≠ i ∧ l[j]? = some c) := by
  rw [getElem?_set_of_some h] at hj
  split at hj
  · exact .inl ⟨‹_›, (Option.some.inj hj).symm⟩
  · exact .inr ⟨‹_›, hj⟩

theorem of_concat {l : List α} {j : Nat} {a c : α} (hj : (l ++ [a])[j]? = some c) :
    (j = l.length ∧ c = a) ∨ l[j]? = some c := by
  rw [getElem?_concat] at hj
  split at hj
  · exact .inl ⟨‹_›, (Option.some.inj hj).symm⟩
  · exact .inr hj

theorem concat_of_some {l : List α} {j : Nat} {c : α} (h : l[j]? = some c) (a : α) :
    (l ++ [a])[j]? = some c := by
  rw [getElem?_concat, if_neg (lt_of_some h).ne, h]

/-- Every slot stays, and what it holds is related to what it held. -/
def Grows (r : α → α → Prop) (l l' : List α) : Prop :=
  ∀ (i : Nat) (a : α), l[i]? = some a → ∃ a', l'[i]? = some a' ∧ r a a'

namespace Grows

variable {r : α → α → Prop} {l : List α}

theorem refl (hr : ∀ a, r a a) (l : List α) : Grows r l l := fun _ a h => ⟨a, h, hr a⟩

theorem set (hr : ∀ a, r a a) {i : Nat} {a b : α} (h : l[i]? = some a) (hab : r a b) :
    Grows r l (l.set i b) := by
  intro j c hj
  rw [getElem?_set_of_some h]
  by_cases hEq : j = i
  · subst hEq
    cases h.symm.trans hj
    exact ⟨b, if_pos rfl, hab⟩
  · exact ⟨c, by rw [if_neg hEq, hj], hr c⟩

theorem concat (hr : ∀ a, r a a) (l : List α) (a : α) : Grows r l (l ++ [a]) :=
  fun _ c hj => ⟨c, concat_of_some hj a, hr c⟩

end Grows

end Slots

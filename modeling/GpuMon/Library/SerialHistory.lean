import Mathlib.Tactic

/-!
# Serial histories of a shared document

Calls that each replace a shared document by a function of it. A history is an order of the
calls finished so far whose serial run gives the current document, and in which every document
that some party still holds is the result of a prefix.

* `Explains.append`: a call that replaces the document it read goes last.
* `Explains.insertIdle`: a call that found nothing to change goes after the prefix it read.
-/

namespace SerialHistory

universe u v

variable {δ : Type u} {α : Type v} (apply : α → δ → δ)

/-- The calls of `order`, one after another. -/
def run (d₀ : δ) (order : List α) : δ := order.foldl (fun d c => apply c d) d₀

variable {apply}

@[simp] theorem run_nil (d₀ : δ) : run apply d₀ [] = d₀ := rfl

@[simp] theorem run_append (d₀ : δ) (order order' : List α) :
    run apply d₀ (order ++ order') = run apply (run apply d₀ order) order' :=
  List.foldl_append

theorem run_cons (d₀ : δ) (c : α) (order : List α) :
    run apply d₀ (c :: order) = run apply (apply c d₀) order := rfl

variable (apply) in
structure Explains (d₀ : δ) (order : List α) (current : δ) (held : δ → Prop) : Prop where
  current_eq : run apply d₀ order = current
  held_prefix : ∀ d, held d → ∃ front, front <+: order ∧ run apply d₀ front = d

namespace Explains

variable {d₀ current : δ} {order : List α} {held held' : δ → Prop}

/-- Parties may drop documents and pick up the current one. -/
theorem mono (h : Explains apply d₀ order current held)
    (hHeld : ∀ d, held' d → held d ∨ d = current) : Explains apply d₀ order current held' where
  current_eq := h.current_eq
  held_prefix := by
    intro d hd
    rcases hHeld d hd with hd | rfl
    · exact h.held_prefix d hd
    · exact ⟨order, List.prefix_refl order, h.current_eq⟩

theorem append (h : Explains apply d₀ order current held) (c : α)
    (hHeld : ∀ d, held' d → held d ∨ d = apply c current) :
    Explains apply d₀ (order ++ [c]) (apply c current) held' := by
  have hLast : run apply d₀ (order ++ [c]) = apply c current := by
    rw [run_append, h.current_eq]
    rfl
  refine ⟨hLast, ?_⟩
  intro d hd
  rcases hHeld d hd with hd | rfl
  · obtain ⟨front, hFront, hRun⟩ := h.held_prefix d hd
    exact ⟨front, hFront.trans (List.prefix_append order [c]), hRun⟩
  · exact ⟨order ++ [c], List.prefix_refl _, hLast⟩

theorem insertIdle (h : Explains apply d₀ order current held) {c : α} {d : δ} (hd : held d)
    (hIdle : apply c d = d) :
    ∃ order', order'.Perm (c :: order) ∧ Explains apply d₀ order' current held := by
  obtain ⟨front, ⟨rest, rfl⟩, hFront⟩ := h.held_prefix d hd
  have hSkip : ∀ l, run apply d₀ (front ++ c :: l) = run apply d₀ (front ++ l) := by
    intro l
    rw [run_append, run_append, run_cons, hFront, hIdle]
  refine ⟨front ++ c :: rest, List.perm_middle, ?_, ?_⟩
  · rw [hSkip]
    exact h.current_eq
  · intro e he
    obtain ⟨front', hPrefix, hRun⟩ := h.held_prefix e he
    -- a prefix that reaches past the insertion gets the idle call as well
    rcases List.prefix_or_prefix_of_prefix hPrefix (List.prefix_append front rest) with
      hShort | ⟨l, rfl⟩
    · exact ⟨front', hShort.trans (List.prefix_append front _), hRun⟩
    · have hl : l <+: rest := (List.prefix_append_right_inj front).mp hPrefix
      refine ⟨front ++ c :: l, ?_, (hSkip l).trans hRun⟩
      exact (List.prefix_append_right_inj front).mpr (List.cons_prefix_cons.mpr ⟨rfl, hl⟩)

end Explains

end SerialHistory

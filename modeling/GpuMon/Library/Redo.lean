import Mathlib.Tactic

/-!
# Operations that are run again from the first

A task is a list of operations, each of which may fail. A run that was cut off is not continued:
the next run starts with the first operation, on what the one before it left.

* `Lasting`: an operation that has been done changes nothing when it is run again, and no other
  operation of the task undoes it.
* `Lasting.resume`: after a cut the whole task gives what it would have given without it.
-/

namespace Redo

universe u v

variable {σ : Type u} {α : Type v} {op : α → σ → Option σ}

/-- Runs the operations one after another; `none` when one of them fails. -/
def runOps (op : α → σ → Option σ) : List α → σ → Option σ
  | [], s => some s
  | a :: as, s => (op a s).bind (runOps op as)

@[simp] theorem runOps_nil (s : σ) : runOps op [] s = some s := rfl

theorem runOps_cons (a : α) (as : List α) (s : σ) :
    runOps op (a :: as) s = (op a s).bind (runOps op as) := rfl

theorem runOps_append (as bs : List α) (s : σ) :
    runOps op (as ++ bs) s = (runOps op as s).bind (runOps op bs) := by
  induction as generalizing s with
  | nil => rfl
  | cons a as ih =>
    rw [List.cons_append, runOps_cons, runOps_cons, Option.bind_assoc]
    congr 1
    funext t
    exact ih t

theorem runOps_concat {as : List α} {a : α} {s t u : σ} (hRun : runOps op as s = some t)
    (hLast : op a t = some u) : runOps op (as ++ [a]) s = some u := by
  rw [runOps_append, hRun, Option.bind_some, runOps_cons, hLast]
  rfl

/-- `holds a s` says that the effect of `a` is there in `s`. -/
structure Lasting (op : α → σ → Option σ) (holds : α → σ → Prop) (task : List α) : Prop where
  done : ∀ a ∈ task, ∀ s t, op a s = some t → holds a t
  again : ∀ a ∈ task, ∀ s, holds a s → op a s = some s
  kept : ∀ a ∈ task, ∀ b ∈ task, ∀ s t, holds a s → op b s = some t → holds a t

namespace Lasting

variable {holds : α → σ → Prop} {task as bs : List α} {s t : σ}

theorem kept_of_run (h : Lasting op holds task) {a : α} (ha : a ∈ task) (hSub : as ⊆ task)
    (hHolds : holds a s) (hRun : runOps op as s = some t) : holds a t := by
  induction as generalizing s with
  | nil =>
    cases hRun
    exact hHolds
  | cons b as ih =>
    obtain ⟨m, hb, hRest⟩ := Option.bind_eq_some_iff.mp hRun
    obtain ⟨hb', hSub'⟩ := List.cons_subset.mp hSub
    exact ih hSub' (h.kept a ha b hb' s m hHolds hb) hRest

/-- After a run the effect of each of its operations is there. -/
theorem holds_of_run (h : Lasting op holds task) (hSub : as ⊆ task)
    (hRun : runOps op as s = some t) : ∀ a ∈ as, holds a t := by
  induction as generalizing s with
  | nil => exact fun a ha => absurd ha List.not_mem_nil
  | cons b as ih =>
    obtain ⟨m, hb, hRest⟩ := Option.bind_eq_some_iff.mp hRun
    obtain ⟨hb', hSub'⟩ := List.cons_subset.mp hSub
    intro a ha
    rcases List.mem_cons.mp ha with rfl | ha
    · exact h.kept_of_run hb' hSub' (h.done a hb' s m hb) hRest
    · exact ih hSub' hRest a ha

theorem run_of_holds (h : Lasting op holds task) (hSub : as ⊆ task) (hHolds : ∀ a ∈ as, holds a s) :
    runOps op as s = some s := by
  induction as with
  | nil => rfl
  | cons a as ih =>
    obtain ⟨ha, hSub'⟩ := List.cons_subset.mp hSub
    rw [runOps_cons, h.again a ha s (hHolds a List.mem_cons_self), Option.bind_some]
    exact ih hSub' fun b hb => hHolds b (List.mem_cons_of_mem _ hb)

/-- A task that was cut off after `as` gives, run again as a whole, what it gives from the start. -/
theorem resume (h : Lasting op holds (as ++ bs)) (hRun : runOps op as s = some t) :
    runOps op (as ++ bs) t = runOps op (as ++ bs) s := by
  have hSub : as ⊆ as ++ bs := List.subset_append_left as bs
  have hAgain : runOps op as t = some t := h.run_of_holds hSub (h.holds_of_run hSub hRun)
  rw [runOps_append, runOps_append, hAgain, hRun]

end Lasting

end Redo

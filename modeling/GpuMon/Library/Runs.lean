import Mathlib.Tactic

/-!
# Runs of a guarded step function

A system is a step function `σ → α → Option σ`: the action `a` is enabled in `s` when
`step s a` is some state, and an interleaving of several parties is a list of actions.
`Reach` collects the states of all runs whose steps meet a side condition `ok`; the
condition is `Always` when every interleaving is meant.

* `Reach.invariant` is the only induction over runs: what holds initially and is kept by
  one step holds in every state reached. `Reach.invariant_of` lets the step use facts
  that are already known of every state reached.
* `History` keeps the states that a run has left behind, and `History.invariant_of` is the rule for
  what a state has from them.
* `exec` runs a concrete schedule; `Reach.of_exec` and `Reach.exists_of_exec` turn it into a
  state reached.
* `foldl_iff_of_step`: where every action is enabled, a property that each step keeps exactly
  under a condition holds after a run exactly when every step met the condition.
-/

namespace Runs

universe u v

variable {σ : Type u} {α : Type v}

/-- No condition on the steps of a run. -/
def Always : σ → α → Prop := fun _ _ => True

/-- The states reached from `init` by steps that all meet `ok`. -/
inductive Reach (step : σ → α → Option σ) (init : σ → Prop) (ok : σ → α → Prop) : σ → Prop
  | start {s : σ} : init s → Reach step init ok s
  | next {s s' : σ} {a : α} :
      Reach step init ok s → ok s a → step s a = some s' → Reach step init ok s'

variable {step : σ → α → Option σ} {init : σ → Prop} {ok ok' : σ → α → Prop}

namespace Reach

theorem invariant {I : σ → Prop} (hInit : ∀ s, init s → I s)
    (hStep : ∀ s a s', I s → ok s a → step s a = some s' → I s')
    {s : σ} (h : Reach step init ok s) : I s := by
  induction h with
  | start hs => exact hInit _ hs
  | next _ hok hs ih => exact hStep _ _ _ ih hok hs

/-- An invariant whose step may use `J`, which is already known of every state reached. -/
theorem invariant_of {I J : σ → Prop} (hJ : ∀ s, Reach step init ok s → J s)
    (hInit : ∀ s, init s → I s)
    (hStep : ∀ s a s', J s → J s' → I s → ok s a → step s a = some s' → I s')
    {s : σ} (h : Reach step init ok s) : I s := by
  induction h with
  | start hs => exact hInit _ hs
  | next hr hok hs ih => exact hStep _ _ _ (hJ _ hr) (hJ _ (hr.next hok hs)) ih hok hs

theorem mono (hok : ∀ s a, ok s a → ok' s a) {s : σ} (h : Reach step init ok s) :
    Reach step init ok' s := by
  induction h with
  | start hs => exact .start hs
  | next _ ha hs ih => exact ih.next (hok _ _ ha) hs

end Reach

/-- The state that a run has reached, with those it has left behind, the newest first. -/
inductive History (step : σ → α → Option σ) (init : σ → Prop) (ok : σ → α → Prop) :
    List σ → σ → Prop
  | start {s : σ} : init s → History step init ok [] s
  | next {past : List σ} {s s' : σ} {a : α} : History step init ok past s → ok s a →
      step s a = some s' → History step init ok (s :: past) s'

theorem History.reach {past : List σ} {s : σ} (h : History step init ok past s) :
    Reach step init ok s := by
  induction h with
  | start hs => exact .start hs
  | next _ hok hs ih => exact ih.next hok hs

theorem Reach.exists_history {s : σ} (h : Reach step init ok s) :
    ∃ past, History step init ok past s := by
  induction h with
  | start hs => exact ⟨[], .start hs⟩
  | next _ hok hs ih =>
    obtain ⟨past, hPast⟩ := ih
    exact ⟨_, hPast.next hok hs⟩

/-- What a state has from the states before it, when one step hands it on. -/
theorem History.invariant_of {I : List σ → σ → Prop} {J : σ → Prop}
    (hJ : ∀ s, Reach step init ok s → J s) (hInit : ∀ s, init s → I [] s)
    (hStep : ∀ past s a s', J s → I past s → step s a = some s' → I (s :: past) s')
    {past : List σ} {s : σ} (h : History step init ok past s) : I past s := by
  induction h with
  | start hs => exact hInit _ hs
  | next hPast _ hs ih => exact hStep _ _ _ _ (hJ _ hPast.reach) ih hs

/-- Runs the actions of a schedule one after another; `none` when one is not enabled or does
not meet `ok`. -/
def exec (step : σ → α → Option σ) (ok : σ → α → Prop) [∀ s a, Decidable (ok s a)] :
    σ → List α → Option σ
  | s, [] => some s
  | s, a :: as => if ok s a then (step s a).bind fun s' => exec step ok s' as else none

instance (s : σ) (a : α) : Decidable (Always s a) := isTrue trivial

theorem Reach.of_exec [∀ s a, Decidable (ok s a)] {s s' : σ} {as : List α}
    (hs : Reach step init ok s) (h : exec step ok s as = some s') : Reach step init ok s' := by
  induction as generalizing s with
  | nil =>
    cases h
    exact hs
  | cons a as ih =>
    unfold exec at h
    split at h
    · rename_i hok
      obtain ⟨t, ht, hrest⟩ := Option.bind_eq_some_iff.mp h
      exact ih (hs.next hok ht) hrest
    · cases h

/-- A schedule that ends in a state with `q` shows that such a state is reached. -/
theorem Reach.exists_of_exec [∀ s a, Decidable (ok s a)] {q : σ → Prop} [DecidablePred q]
    {s : σ} (as : List α) (hs : init s)
    (h : (exec step ok s as).any (fun t => q t) = true) : ∃ t, Reach step init ok t ∧ q t := by
  obtain ⟨t, ht, hq⟩ := (Option.any_eq_true _ _).mp h
  exact ⟨t, (Reach.start hs).of_exec ht, of_decide_eq_true hq⟩

/-- Every step of the run of `as` from `s` meets `ok`. -/
def StepsOk (next : σ → α → σ) (ok : σ → α → Prop) (s : σ) (as : List α) : Prop :=
  ∀ before a after, as = before ++ a :: after → ok (before.foldl next s) a

theorem stepsOk_cons {next : σ → α → σ} {s : σ} {a : α} {as : List α} :
    StepsOk next ok s (a :: as) ↔ ok s a ∧ StepsOk next ok (next s a) as := by
  constructor
  · intro h
    refine ⟨h [] a as rfl, fun before b after hSplit => ?_⟩
    exact h (a :: before) b after (by rw [hSplit]; rfl)
  · rintro ⟨hHead, hRest⟩ before b after hSplit
    cases before with
    | nil =>
      obtain ⟨rfl, -⟩ := List.cons.inj hSplit
      exact hHead
    | cons c before =>
      obtain ⟨rfl, hTail⟩ := List.cons.inj hSplit
      exact hRest before b after hTail

theorem foldl_invariant {next : σ → α → σ} {I : σ → Prop} (hStep : ∀ s a, I s → I (next s a))
    {s : σ} (hs : I s) (as : List α) : I (as.foldl next s) := by
  induction as generalizing s with
  | nil => exact hs
  | cons a as ih => exact ih (hStep s a hs)

theorem foldl_iff_of_step {next : σ → α → σ} {I P : σ → Prop}
    (hInv : ∀ s a, I s → I (next s a)) (hStep : ∀ s a, I s → (P (next s a) ↔ P s ∧ ok s a))
    {s : σ} (hs : I s) (as : List α) :
    P (as.foldl next s) ↔ P s ∧ StepsOk next ok s as := by
  induction as generalizing s with
  | nil =>
    refine (and_iff_left fun before a after hSplit => ?_).symm
    cases before <;> cases hSplit
  | cons a as ih =>
    rw [List.foldl_cons, ih (hInv s a hs), hStep s a hs, stepsOk_cons, and_assoc]

end Runs

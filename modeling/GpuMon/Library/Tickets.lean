import Mathlib.Tactic

/-!
# Tickets of a counter

A counter is raised for every ticket that is drawn, and sometimes without a ticket. The holder of
a ticket compares it with the counter later on.

* `current_iff`: a ticket equals the counter exactly while it is the last one drawn and the counter
  was not raised since.
-/

namespace Tickets

inductive Move
  | draw
  | bump
  deriving DecidableEq

/-- The counter, and the tickets in the order in which they were drawn. -/
structure Log where
  counter : Nat := 0
  drawn : List Nat := []
  deriving DecidableEq

def Log.move (s : Log) : Move → Log
  | .draw => ⟨s.counter + 1, s.drawn ++ [s.counter + 1]⟩
  | .bump => { s with counter := s.counter + 1 }

def run (moves : List Move) : Log := moves.foldl Log.move {}

/-- How many tickets there are, and the place of the last one unless it is outdated. -/
def follow : Nat × Option Nat → Move → Nat × Option Nat
  | (n, _), .draw => (n + 1, some n)
  | (n, _), .bump => (n, none)

/-- The place of the last ticket, unless the counter was raised after it. -/
def latest (moves : List Move) : Option Nat := (moves.foldl follow (0, none)).2

theorem run_concat (moves : List Move) (m : Move) : run (moves ++ [m]) = (run moves).move m := by
  simp [run]

theorem latest_concat_bump (moves : List Move) : latest (moves ++ [.bump]) = none := by
  simp [latest, follow]

theorem count_eq (moves : List Move) :
    (moves.foldl follow (0, none)).1 = (run moves).drawn.length := by
  induction moves using List.reverseRecOn with
  | nil => rfl
  | append_singleton moves m ih =>
    rw [List.foldl_append, List.foldl_cons, List.foldl_nil, run_concat]
    cases m with
    | draw => simp [follow, Log.move, ih]
    | bump => exact ih

theorem latest_concat_draw (moves : List Move) :
    latest (moves ++ [.draw]) = some (run moves).drawn.length := by
  rw [← count_eq, latest, List.foldl_append]
  rfl

theorem drawn_le (moves : List Move) : ∀ t ∈ (run moves).drawn, t ≤ (run moves).counter := by
  induction moves using List.reverseRecOn with
  | nil => exact nofun
  | append_singleton moves m ih =>
    rw [run_concat]
    cases m with
    | draw =>
      intro t ht
      rcases List.mem_append.mp ht with hOld | hNew
      · exact (ih t hOld).trans (Nat.le_succ _)
      · exact (List.mem_singleton.mp hNew).le
    | bump => exact fun t ht => (ih t ht).trans (Nat.le_succ _)

/-- A ticket equals the counter while it is the last one and the counter was not raised since. -/
theorem current_iff (moves : List Move) (i : Nat) :
    (run moves).drawn[i]? = some (run moves).counter ↔ latest moves = some i := by
  induction moves using List.reverseRecOn with
  | nil => simp [run, latest]
  | append_singleton moves m _ =>
    -- no earlier ticket reaches the raised counter
    have hOld : (run moves).drawn[i]? ≠ some ((run moves).counter + 1) := fun h => by
      have hLe := drawn_le moves _ (List.mem_of_getElem? h)
      omega
    rw [run_concat]
    cases m with
    | draw =>
      rw [latest_concat_draw]
      simp only [Log.move, Option.some.injEq]
      rcases Nat.lt_trichotomy i (run moves).drawn.length with hLt | hEq | hGt
      · rw [List.getElem?_append_left hLt]
        exact iff_of_false hOld hLt.ne'
      · simp [hEq]
      · rw [List.getElem?_eq_none (by simp; omega)]
        exact iff_of_false nofun hGt.ne
    | bump =>
      rw [latest_concat_bump]
      exact iff_of_false hOld nofun

end Tickets

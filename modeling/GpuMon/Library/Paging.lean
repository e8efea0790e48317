import Mathlib.Data.List.Sort
import Mathlib.Data.List.TakeWhile
import Mathlib.Tactic

/-!
# Pages of a descending list

Rows with keys from the largest down are read in pages, each from below the last key of the page
before.

* `filter_lt_last`: the next query returns what comes after the page.
* `getLast?_takeWhile_iff`: the last row of the run of rows at the front with a property.
-/

namespace Paging

variable {α κ : Type*} [LinearOrder κ] {key : α → κ} {rows front rest : List α}

/-- The keys go down. -/
def Descending (key : α → κ) (rows : List α) : Prop := rows.Pairwise fun a b => key b < key a

theorem Descending.eq_of_perm {rows' : List α} (h : Descending key rows)
    (h' : Descending key rows') (hPerm : rows.Perm rows') : rows = rows' :=
  hPerm.eq_of_pairwise (fun _ _ _ _ hLt hGt => absurd hGt hLt.asymm) h h'

theorem Descending.filter (h : Descending key rows) (p : α → Bool) :
    Descending key (rows.filter p) := List.Pairwise.filter p h

/-- A list sorted by keys that are all different. -/
theorem descending_insertionSort (h : rows.Pairwise fun a b => key a ≠ key b) :
    Descending key (rows.insertionSort fun a b => key b ≤ key a) := by
  have : Std.Total fun a b : α => key b ≤ key a := ⟨fun a b => le_total (key b) (key a)⟩
  have : IsTrans α fun a b => key b ≤ key a := ⟨fun a b c hab hbc => hbc.trans hab⟩
  have hSorted : (rows.insertionSort fun a b => key b ≤ key a).Pairwise fun a b => key b ≤ key a :=
    List.pairwise_insertionSort _ _
  have hNe := (List.perm_insertionSort (fun a b => key b ≤ key a) rows).symm.pairwise
    h fun hab => hab.symm
  exact hSorted.imp₂ (fun _ _ hLe hab => lt_of_le_of_ne hLe hab.symm) hNe

theorem filter_lt_last {last : α} (h : Descending key (front ++ rest))
    (hLast : front.getLast? = some last) :
    (front ++ rest).filter (fun a => key a < key last) = rest := by
  obtain ⟨hFront, -, hCross⟩ := List.pairwise_append.mp h
  obtain ⟨init, rfl⟩ := List.getLast?_eq_some_iff.mp hLast
  have hNone : (init ++ [last]).filter (fun a => key a < key last) = [] := by
    rw [List.filter_eq_nil_iff]
    intro a ha
    rcases List.mem_append.mp ha with hInit | hEnd
    · have hLt := (List.pairwise_append.mp hFront).2.2 a hInit last List.mem_cons_self
      simpa using hLt.le
    · simp [List.mem_singleton.mp hEnd]
  have hAll : rest.filter (fun a => key a < key last) = rest := by
    rw [List.filter_eq_self]
    intro a ha
    simpa using hCross last (List.mem_of_getLast? hLast) a ha
  rw [List.filter_append, hNone, hAll, List.nil_append]

/-- The front run ends at a row where the rows before it have the property and the next has not. -/
theorem getLast?_takeWhile_eq_some {p : α → Bool} {a : α} :
    (rows.takeWhile p).getLast? = some a ↔
      ∃ before after, rows = before ++ a :: after ∧ (∀ b ∈ before ++ [a], p b = true) ∧
        ∀ b ∈ after.head?, p b = false := by
  constructor
  · intro hLast
    obtain ⟨before, hRun⟩ := List.getLast?_eq_some_iff.mp hLast
    refine ⟨before, rows.dropWhile p, ?_, fun b hb => ?_, fun b hb => ?_⟩
    · rw [List.append_cons, ← hRun, List.takeWhile_append_dropWhile]
    · exact List.mem_takeWhile_imp (hRun ▸ hb)
    · exact Bool.eq_false_of_not_eq_true fun h => by
        have := List.head?_dropWhile_not p rows
        rw [hb] at this
        simp [h] at this
  · rintro ⟨before, after, rfl, hRun, hEnd⟩
    rw [List.append_cons, List.takeWhile_append_of_pos hRun]
    cases after with
    | nil => simp
    | cons b after =>
      rw [List.takeWhile_cons_of_neg (by simp [hEnd b rfl])]
      simp

/-- The rows below a row are those after it. -/
theorem Descending.lt_iff {before after : List α} {a b : α}
    (h : Descending key (before ++ a :: after)) (hb : b ∈ before ++ a :: after) :
    key b < key a ↔ b ∈ after := by
  obtain ⟨-, hTail, hCross⟩ := List.pairwise_append.mp h
  refine ⟨fun hLt => ?_, (List.pairwise_cons.mp hTail).1 b⟩
  rcases List.mem_append.mp hb with hBefore | hRest
  · exact absurd hLt (hCross b hBefore a List.mem_cons_self).asymm
  · rcases List.mem_cons.mp hRest with rfl | hAfter
    · exact absurd hLt (lt_irrefl _)
    · exact hAfter

/-- No row is above the first one. -/
theorem Descending.le_head {a b : α} (h : Descending key (a :: rest)) (hb : b ∈ a :: rest) :
    key b ≤ key a := by
  rcases List.mem_cons.mp hb with rfl | hRest
  · exact le_rfl
  · exact ((List.pairwise_cons.mp h).1 b hRest).le

theorem Descending.head?_eq_some {a : α} (h : Descending key rows) :
    rows.head? = some a ↔ a ∈ rows ∧ ∀ b ∈ rows, key b ≤ key a := by
  cases rows with
  | nil => simp
  | cons c rest =>
    rw [List.head?_cons, Option.some.injEq]
    constructor
    · rintro rfl
      exact ⟨List.mem_cons_self, fun b hb => h.le_head hb⟩
    · rintro ⟨ha, hMax⟩
      rcases List.mem_cons.mp ha with rfl | hRest
      · rfl
      · exact absurd ((List.pairwise_cons.mp h).1 a hRest) (hMax c List.mem_cons_self).not_gt

theorem takeWhile_eq_nil_iff_head? {p : α → Bool} :
    rows.takeWhile p = [] ↔ ∀ a, rows.head? = some a → p a = false := by
  cases rows with
  | nil => simp
  | cons a rest => cases h : p a <;> simp [h]

/-- The same by keys: the rows from it up have the property, the first one below it has not. -/
theorem Descending.getLast?_takeWhile_iff (h : Descending key rows) {p : α → Bool} {a : α} :
    (rows.takeWhile p).getLast? = some a ↔
      a ∈ rows ∧ (∀ b ∈ rows, key a ≤ key b → p b = true) ∧
        ∀ b ∈ rows, key b < key a → (∀ c ∈ rows, key c < key a → key c ≤ key b) → p b = false := by
  rw [getLast?_takeWhile_eq_some]
  constructor
  · rintro ⟨before, after, rfl, hRun, hEnd⟩
    refine ⟨by simp, fun b hb hLe => ?_, fun b hb hLt hNewest => ?_⟩
    · have hNot : b ∉ after := fun hAfter => ((h.lt_iff hb).mpr hAfter).not_ge hLe
      exact hRun b (by simp at hb ⊢; tauto)
    · have hAfter := (h.lt_iff hb).mp hLt
      obtain ⟨c, tail, rfl⟩ := List.exists_cons_of_ne_nil (List.ne_nil_of_mem hAfter)
      have hc : c ∈ before ++ a :: c :: tail := by simp
      have hNext := hNewest c hc ((h.lt_iff hc).mpr List.mem_cons_self)
      rcases List.mem_cons.mp hAfter with rfl | hTail
      · exact hEnd b rfl
      · have hRest := (List.pairwise_cons.mp (List.pairwise_append.mp h).2.1).2
        exact absurd ((List.pairwise_cons.mp hRest).1 b hTail) hNext.not_gt
  · rintro ⟨ha, hRun, hEnd⟩
    obtain ⟨before, after, rfl⟩ := List.append_of_mem ha
    refine ⟨before, after, rfl, fun b hb => ?_, fun b hb => ?_⟩
    · rcases List.mem_append.mp hb with hBefore | hLast
      · have hAbove := (List.pairwise_append.mp h).2.2 b hBefore a List.mem_cons_self
        exact hRun b (by simp [hBefore]) hAbove.le
      · rw [List.mem_singleton.mp hLast]
        exact hRun a ha le_rfl
    · obtain ⟨tail, rfl⟩ := List.head?_eq_some_iff.mp hb
      have hMem : b ∈ before ++ a :: b :: tail := by simp
      refine hEnd b hMem ((h.lt_iff hMem).mpr List.mem_cons_self) fun c hc hLt => ?_
      exact Descending.le_head (h.sublist (by simp)) ((h.lt_iff hc).mp hLt)

end Paging

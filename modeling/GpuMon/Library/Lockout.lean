import Mathlib.Tactic

/-!
# Failures in a window, and a lock

A counter keeps the times of recent failures. A failure that fills it up locks it for a while and
clears it. Attempts are let in while the counter is not locked and fail at any later time, so
some of them may still be pending when the lock falls.

* `Inv.step`: what each step keeps. Until a lock falls inside the window every failure of the
  window is in the counter; from then on nothing is let in before the window ends, and only
  what is pending can still fail.
* `Run.window_le`: with at most `k` attempts pending, a window of the length that failures count
  for holds fewer than `k + limit` of them.

Times are any ordered group.
-/

universe u

namespace Lockout

variable {τ : Type u} [AddCommGroup τ] [LinearOrder τ]

/-- How many failures lock, how long a failure counts and how long a lock lasts. -/
structure Policy (τ : Type u) [LinearOrder τ] where
  limit : Nat
  span : τ
  lock : τ
  limit_pos : 0 < limit
  span_le_lock : span ≤ lock

structure Counter (τ : Type u) where
  failures : List τ
  lockedUntil : τ
  deriving DecidableEq

namespace Counter

/-- Forgets the failures that no longer count. -/
def prune (p : Policy τ) (now : τ) (c : Counter τ) : Counter τ :=
  { c with failures := c.failures.filter fun t => now - t < p.span }

def stale (c : Counter τ) (now : τ) : Bool := c.failures.isEmpty && c.lockedUntil ≤ now

/-- One more failure. -/
def fail (p : Policy τ) (now : τ) (c : Counter τ) : Counter τ :=
  let failures := (c.prune p now).failures ++ [now]
  if p.limit ≤ failures.length then ⟨[], now + p.lock⟩ else ⟨failures, c.lockedUntil⟩

/-- The failures kept since `start`. -/
def since (start : τ) (c : Counter τ) : List τ := c.failures.filter fun t => start ≤ t

variable {p : Policy τ} {now start : τ} {c : Counter τ}

theorem length_fail_lt (p : Policy τ) (now : τ) (c : Counter τ) :
    (c.fail p now).failures.length < p.limit := by
  unfold fail
  dsimp only
  split
  · exact p.limit_pos
  · rename_i hFew
    exact not_le.mp hFew

/-- A failure either locks, with the lock beginning now, or joins the others. -/
theorem fail_cases (p : Policy τ) (now : τ) (c : Counter τ) :
    c.fail p now = ⟨[], now + p.lock⟩ ∨
      c.fail p now = ⟨(c.prune p now).failures ++ [now], c.lockedUntil⟩ := by
  unfold fail
  dsimp only
  split
  · exact .inl rfl
  · exact .inr rfl

variable [IsOrderedAddMonoid τ]

/-- Within the window nothing of it is forgotten. -/
theorem since_prune (h : now < start + p.span) : (c.prune p now).since start = c.since start := by
  unfold since prune
  rw [List.filter_filter]
  refine List.filter_congr fun t _ => ?_
  by_cases hStart : start ≤ t
  · have hCounts : now - t < p.span := by
      rw [sub_lt_iff_lt_add']
      exact h.trans_le (by gcongr)
    simp [hStart, hCounts]
  · simp [hStart]

theorem not_stale_fail (hLock : 0 < p.lock) : (c.fail p now).stale now = false := by
  rcases fail_cases p now c with h | h
  · rw [h, stale, Bool.and_eq_false_iff]
    exact .inr (decide_eq_false (not_le.mpr (lt_add_of_pos_right now hLock)))
  · rw [h, stale]
    simp

end Counter

/-! ## Steps -/

/-- A counter, the attempts that are pending, and the failures that were recorded so far. -/
structure State (τ : Type u) where
  counter : Counter τ
  pending : Nat
  clock : τ
  log : List τ

inductive Step (p : Policy τ) : State τ → State τ → Prop
  | wait {s : State τ} {now : τ} (hClock : s.clock ≤ now) : Step p s { s with clock := now }
  | allow {s : State τ} {now : τ} (hClock : s.clock ≤ now) (hOpen : s.counter.lockedUntil ≤ now) :
      Step p s { s with clock := now, pending := s.pending + 1 }
  | fail {s : State τ} {now : τ} {n : Nat} (hClock : s.clock ≤ now) (hPending : s.pending = n + 1) :
      Step p s ⟨s.counter.fail p now, n, now, s.log ++ [now]⟩
  | abandon {s : State τ} {n : Nat} (hPending : s.pending = n + 1) :
      Step p s { s with pending := n }
  | forget {s : State τ} {now l : τ} (hClock : s.clock ≤ now) (hStale : s.counter.stale now) :
      Step p s { s with clock := now, counter := ⟨[], l⟩ }

theorem Step.clock_le {p : Policy τ} {s s' : State τ} (h : Step p s s') : s.clock ≤ s'.clock := by
  cases h with
  | wait hClock => exact hClock
  | allow hClock _ => exact hClock
  | fail hClock _ => exact hClock
  | abandon _ => exact le_refl _
  | forget hClock _ => exact hClock

/-- A run with at most `k` attempts pending. -/
def Run (p : Policy τ) (k : Nat) : State τ → State τ → Prop :=
  Relation.ReflTransGen fun s s' => s.pending ≤ k ∧ Step p s s'

/-! ## The window -/

/-- The failures of the window that begins at `start`. -/
def window (p : Policy τ) (start : τ) (log : List τ) : List τ :=
  log.filter fun t => start ≤ t && t < start + p.span

structure Inv (p : Policy τ) (k : Nat) (start : τ) (s : State τ) : Prop where
  past : ∀ t ∈ s.log, t ≤ s.clock
  few : s.counter.failures.length < p.limit
  bound : (window p start s.log).length + 1 ≤ k + p.limit
  phase : s.clock < start + p.span →
    (window p start s.log).length ≤ (s.counter.since start).length ∨
      start + p.span ≤ s.counter.lockedUntil ∧
        (window p start s.log).length + s.pending + 1 ≤ k + p.limit

section Window

variable {p : Policy τ} {k : Nat} {start now : τ} {s s' : State τ}

theorem window_concat (p : Policy τ) (start now : τ) (log : List τ) :
    (window p start (log ++ [now])).length = (window p start log).length +
      if start ≤ now ∧ now < start + p.span then 1 else 0 := by
  unfold window
  rw [List.filter_append, List.length_append]
  congr 1
  split <;> simp_all

/-- Before the window begins it is empty. -/
theorem window_eq_nil {log : List τ} (h : ∀ t ∈ log, t < start) : window p start log = [] := by
  refine List.filter_eq_nil_iff.mpr fun t ht hIn => ?_
  exact absurd (of_decide_eq_true (Bool.and_eq_true_iff.mp hIn).1) (not_le.mpr (h t ht))

theorem Inv.fresh {c : τ} {l : τ} (p : Policy τ) (k : Nat) (start : τ) :
    Inv p k start ⟨⟨[], l⟩, 0, c, []⟩ where
  past := nofun
  few := p.limit_pos
  bound := by
    have := p.limit_pos
    simp only [window, List.filter_nil, List.length_nil]
    omega
  phase := fun _ => .inl (Nat.zero_le _)

variable [IsOrderedAddMonoid τ]

/-- A failure inside the window: it stays in the counter, or the lock falls. -/
theorem Inv.fail_phase (h : Inv p k start s) (hPending : s.pending ≤ k) {n : Nat}
    (hn : s.pending = n + 1) (hClock : s.clock ≤ now) (hNow : now < start + p.span) :
    (window p start (s.log ++ [now])).length ≤ ((s.counter.fail p now).since start).length ∨
      start + p.span ≤ (s.counter.fail p now).lockedUntil ∧
        (window p start (s.log ++ [now])).length + n + 1 ≤ k + p.limit := by
  have hFew := h.few
  have hSince : (s.counter.since start).length ≤ s.counter.failures.length :=
    List.length_filter_le _ _
  rw [window_concat]
  rcases Counter.fail_cases p now s.counter with hFail | hFail
  · rw [hFail]
    by_cases hStart : start ≤ now
    · refine .inr ⟨add_le_add hStart p.span_le_lock, ?_⟩
      rw [if_pos ⟨hStart, hNow⟩]
      rcases h.phase (hClock.trans_lt hNow) with hCounted | ⟨-, hLocked⟩ <;> omega
    · -- a lock before the window: nothing of the window was recorded yet
      left
      have hNil : window p start s.log = [] :=
        window_eq_nil fun t ht => ((h.past t ht).trans hClock).trans_lt (not_le.mp hStart)
      rw [hNil, if_neg fun hIn => hStart hIn.1]
      exact Nat.zero_le _
  · have hKept : ((s.counter.fail p now).since start).length =
        (s.counter.since start).length + if start ≤ now then 1 else 0 := by
      conv_rhs => rw [← Counter.since_prune hNow]
      rw [hFail]
      unfold Counter.since
      rw [List.filter_append, List.length_append]
      congr 1
      split <;> simp_all
    rcases h.phase (hClock.trans_lt hNow) with hCounted | ⟨hLock, hLocked⟩
    · left
      rw [hKept]
      split_ifs <;> first | omega | simp_all
    · refine .inr ⟨?_, ?_⟩
      · rw [hFail]
        exact hLock
      · split_ifs <;> omega

theorem Inv.step (h : Inv p k start s) (hPending : s.pending ≤ k) (hStep : Step p s s') :
    Inv p k start s' := by
  cases hStep with
  | wait hClock =>
    exact ⟨fun t ht => (h.past t ht).trans hClock, h.few, h.bound,
      fun hNow => h.phase (hClock.trans_lt hNow)⟩
  | allow hClock hOpen =>
    refine ⟨fun t ht => (h.past t ht).trans hClock, h.few, h.bound, fun hNow => ?_⟩
    rcases h.phase (hClock.trans_lt hNow) with hCounted | ⟨hLock, -⟩
    · exact .inl hCounted
    · exact absurd (hLock.trans hOpen) (not_le.mpr hNow)
  | @fail now n hClock hn =>
    have hPhase := h.fail_phase hPending hn hClock
    refine ⟨fun t ht => ?_, Counter.length_fail_lt _ _ _, ?_, hPhase⟩
    · rcases List.mem_append.mp ht with hOld | hNew
      · exact (h.past t hOld).trans hClock
      · exact (List.mem_singleton.mp hNew).le
    · by_cases hNow : now < start + p.span
      · have hFew := Counter.length_fail_lt p now s.counter
        have hSince : ((s.counter.fail p now).since start).length ≤
            (s.counter.fail p now).failures.length := List.length_filter_le _ _
        dsimp only
        rcases hPhase hNow with hCounted | ⟨-, hLocked⟩ <;> omega
      · rw [window_concat, if_neg fun hIn => hNow hIn.2]
        exact h.bound
  | abandon hn =>
    refine ⟨h.past, h.few, h.bound, fun hNow => ?_⟩
    rcases h.phase hNow with hCounted | ⟨hLock, hLocked⟩
    · exact .inl hCounted
    · exact .inr ⟨hLock, by dsimp only; omega⟩
  | forget hClock hStale =>
    refine ⟨fun t ht => (h.past t ht).trans hClock, p.limit_pos, h.bound, fun hNow => ?_⟩
    obtain ⟨hNil, hOpen⟩ := Bool.and_eq_true_iff.mp hStale
    rcases h.phase (hClock.trans_lt hNow) with hCounted | ⟨hLock, -⟩
    · left
      rw [Counter.since, List.isEmpty_iff.mp hNil] at hCounted
      exact hCounted
    · exact absurd (hLock.trans (of_decide_eq_true hOpen)) (not_le.mpr hNow)

theorem Run.inv (hRun : Run p k s s') (h : Inv p k start s) : Inv p k start s' := by
  induction hRun with
  | refl => exact h
  | tail _ hStep ih => exact ih.step hStep.1 hStep.2

/-- With at most `k` attempts pending, a window holds fewer than `k + limit` failures. -/
theorem Run.window_le {c l : τ} (hRun : Run p k ⟨⟨[], l⟩, 0, c, []⟩ s) (start : τ) :
    (window p start s.log).length < k + p.limit :=
  (hRun.inv (Inv.fresh p k start)).bound

end Window

end Lockout

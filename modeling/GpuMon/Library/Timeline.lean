import Mathlib

/-!
# Samples that hold until the next one

A list of events in time order describes a step function: an event holds from its own time
until the next event or until it expires, whichever comes first. `levelAt` reads that
function at one instant, directly from the definition "the latest event at or before `t`";
`spanSum` is the sum a program computes by one pass over the list, clipping every event to
the window `[lo, hi)`.

* `integral_levelAt`: over any window, the integral of `levelAt` is `spanSum`.
* `spanSum_le_window`: events of weight one fill the window exactly when it is `Unbroken`.
* `latestAt_append_left`: of the events before an instant only the last one matters.
-/

namespace Timeline

open MeasureTheory Set

variable {E F K : Type*}

section Order

variable [LinearOrder K]

/-- The latest event at or before `t`, in the order of the list. -/
def latestAt (time : E → K) (events : List E) (t : K) : Option E :=
  (events.filter fun e => time e ≤ t).getLast?

@[simp] theorem latestAt_nil (time : E → K) (t : K) : latestAt time [] t = none := rfl

theorem latestAt_cons (time : E → K) (e : E) (events : List E) (t : K) :
    latestAt time (e :: events) t =
      (latestAt time events t).or (if time e ≤ t then some e else none) := by
  unfold latestAt
  by_cases h : time e ≤ t
  · simp [h, List.getLast?_cons]
  · simp [h]

theorem latestAt_append (time : E → K) (xs ys : List E) (t : K) :
    latestAt time (xs ++ ys) t = (latestAt time ys t).or (latestAt time xs t) := by
  simp [latestAt, List.getLast?_append]

/-- When everything in `xs` happened by `t`, its last element stands for all of it. -/
theorem latestAt_append_left (time : E → K) {xs : List E} (ys : List E) {t : K}
    (hxs : ∀ e ∈ xs, time e ≤ t) :
    latestAt time (xs ++ ys) t = latestAt time (xs.getLast?.toList ++ ys) t := by
  have hall : xs.filter (fun e => time e ≤ t) = xs := by
    simpa [List.filter_eq_self] using hxs
  have hlast : xs.getLast?.toList.filter (fun e => time e ≤ t) = xs.getLast?.toList := by
    refine List.filter_eq_self.mpr fun e he => ?_
    have : e ∈ xs := List.mem_of_getLast? (by simpa using he)
    simpa using hxs e this
  rw [latestAt_append, latestAt_append]
  congr 1
  unfold latestAt
  rw [hall, hlast]
  cases xs.getLast? <;> rfl

/-- Events after `t` are invisible at `t`. -/
theorem latestAt_append_right (time : E → K) (xs : List E) {ys : List E} {t : K}
    (hys : ∀ e ∈ ys, t < time e) : latestAt time (xs ++ ys) t = latestAt time xs t := by
  have hnone : ys.filter (fun e => time e ≤ t) = [] := by
    simpa [List.filter_eq_nil_iff] using hys
  simp [latestAt, hnone]

end Order

section Field

variable [Field K] [LinearOrder K]

/-- The value in force at `t`: the weight of the latest event unless it has expired. -/
def levelAt (time expiry weight : E → K) (events : List E) (t : K) : K :=
  match latestAt time events t with
  | some e => if t < expiry e then weight e else 0
  | none => 0

/-- The part of `[lo, hi)` that an event covers before the event after it. -/
def span (time expiry : E → K) (lo hi : K) (e : E) (next : K) : K :=
  max 0 (min (min next (expiry e)) hi - max (time e) lo)

/-- One pass over the events: every event counts for its own span of `[lo, hi)`. -/
def spanSum (time expiry weight : E → K) (lo hi : K) : List E → K
  | [] => 0
  | e :: rest =>
    weight e * span time expiry lo hi e ((rest.head?.map time).getD hi) +
      spanSum time expiry weight lo hi rest

theorem spanSum_const (time expiry : E → K) {weight : E → K} {w : K} (lo hi : K)
    {events : List E} (h : ∀ e ∈ events, weight e = w) :
    spanSum time expiry weight lo hi events = w * spanSum time expiry (fun _ => 1) lo hi events := by
  induction events with
  | nil => simp [spanSum]
  | cons e rest ih =>
    rw [spanSum, spanSum, h e List.mem_cons_self, ih fun x hx => h x (List.mem_cons_of_mem e hx)]
    ring

variable [IsStrictOrderedRing K]

/-- Heavier events make a larger sum. -/
theorem spanSum_mono (time expiry : E → K) {weight weight' : E → K} (lo hi : K)
    (h : ∀ e, weight e ≤ weight' e) (events : List E) :
    spanSum time expiry weight lo hi events ≤ spanSum time expiry weight' lo hi events := by
  induction events with
  | nil => exact le_rfl
  | cons e rest ih => exact add_le_add (mul_le_mul_of_nonneg_right (h e) (le_max_left _ _)) ih

theorem spanSum_nonneg (time expiry : E → K) {weight : E → K} (lo hi : K)
    (h : ∀ e, 0 ≤ weight e) (events : List E) :
    0 ≤ spanSum time expiry weight lo hi events := by
  induction events with
  | nil => exact le_rfl
  | cons e rest ih => exact add_nonneg (mul_nonneg (h e) (le_max_left _ _)) ih

/-- Events that are over when the window begins add nothing. -/
theorem spanSum_append_left (time expiry weight : E → K) {lo hi : K} {xs : List E} {y : E}
    (ys : List E) (hxs : ∀ x ∈ xs, time x ≤ lo) (hy : time y ≤ lo) :
    spanSum time expiry weight lo hi (xs ++ y :: ys) =
      spanSum time expiry weight lo hi (y :: ys) := by
  induction xs with
  | nil => rfl
  | cons x rest ih =>
    have hRest : ∀ x' ∈ rest, time x' ≤ lo := fun x' hx' => hxs x' (List.mem_cons_of_mem x hx')
    have hNext : ((rest ++ y :: ys).head?.map time).getD hi ≤ lo := by
      cases rest with
      | nil => exact hy
      | cons x' _ => exact hRest x' List.mem_cons_self
    have hZero : span time expiry lo hi x (((rest ++ y :: ys).head?.map time).getD hi) = 0 := by
      unfold span
      grind
    rw [List.cons_append, spanSum, hZero, ih hRest, mul_zero, zero_add]

theorem spanSum_eq_zero (time expiry weight : E → K) {lo hi : K} {ys : List E}
    (hys : ∀ y ∈ ys, hi ≤ time y) : spanSum time expiry weight lo hi ys = 0 := by
  induction ys with
  | nil => rfl
  | cons y rest ih =>
    have hHead := hys y List.mem_cons_self
    have hZero : span time expiry lo hi y ((rest.head?.map time).getD hi) = 0 := by
      unfold span
      grind
    rw [spanSum, hZero, ih fun x hx => hys x (List.mem_cons_of_mem y hx), mul_zero, zero_add]

/-- Events that begin when the window is over add nothing. -/
theorem spanSum_append_right (time expiry weight : E → K) {lo hi : K} (xs : List E) {ys : List E}
    (hys : ∀ y ∈ ys, hi ≤ time y) :
    spanSum time expiry weight lo hi (xs ++ ys) = spanSum time expiry weight lo hi xs := by
  induction xs with
  | nil => exact spanSum_eq_zero time expiry weight hys
  | cons x rest ih =>
    have hSpan : span time expiry lo hi x (((rest ++ ys).head?.map time).getD hi) =
        span time expiry lo hi x ((rest.head?.map time).getD hi) := by
      cases rest with
      | cons _ _ => rfl
      | nil =>
        cases ys with
        | nil => rfl
        | cons y _ =>
          have hHead := hys y List.mem_cons_self
          change span time expiry lo hi x (time y) = span time expiry lo hi x hi
          unfold span
          grind
    rw [List.cons_append, spanSum, hSpan, ih, spanSum]

/-- What an event would cover of the window if it did not expire. -/
theorem span_le_uncut (time expiry : E → K) {lo hi next : K} {e : E} (hWindow : lo ≤ hi)
    (hNext : min (time e) hi ≤ next) :
    span time expiry lo hi e next ≤ max lo (min next hi) - max lo (min (time e) hi) := by
  unfold span
  grind

theorem span_eq_uncut_iff {time expiry : E → K} {lo hi next : K} {e : E} (hWindow : lo ≤ hi)
    (hNext : min (time e) hi ≤ next) (hExpiry : time e ≤ expiry e) :
    span time expiry lo hi e next = max lo (min next hi) - max lo (min (time e) hi) ↔
      min next hi ≤ max lo (expiry e) := by
  unfold span
  grind

/-- In the window every event lasts until the next one or to the end. -/
def Unbroken [LinearOrder F] (time expiry : E → F) (lo hi : F) : List E → Prop
  | [] => True
  | e :: rest => min ((rest.head?.map time).getD hi) hi ≤ max lo (expiry e) ∧
      Unbroken time expiry lo hi rest

/-- Breaks depend on the times alone, and not on the scale of the clock. -/
theorem unbroken_map {E₀ F₀ : Type*} [LinearOrder F₀] [LinearOrder F] {g : F₀ → F}
    (hg : StrictMono g) (f : E → E₀) (time expiry : E → F) (time₀ expiry₀ : E₀ → F₀) (lo hi : F₀)
    {events : List E}
    (h : ∀ e ∈ events, time e = g (time₀ (f e)) ∧ expiry e = g (expiry₀ (f e))) :
    Unbroken time expiry (g lo) (g hi) events ↔
      Unbroken time₀ expiry₀ lo hi (events.map f) := by
  induction events with
  | nil => exact Iff.rfl
  | cons e rest ih =>
    have hNext : (rest.head?.map time).getD (g hi) =
        g (((rest.map f).head?.map time₀).getD hi) := by
      cases rest with
      | nil => rfl
      | cons e' _ => exact (h e' (List.mem_cons_of_mem e List.mem_cons_self)).1
    rw [List.map_cons, Unbroken, Unbroken, ih fun x hx => h x (List.mem_cons_of_mem e hx), hNext,
      (h e List.mem_cons_self).2, ← hg.monotone.map_min, ← hg.monotone.map_max, hg.le_iff_le]

theorem spanSum_le_window {time expiry : E → K} {lo hi : K} (hWindow : lo ≤ hi) {e : E}
    {rest : List E} (hSorted : (e :: rest).Pairwise fun a b => time a ≤ time b)
    (hExpiry : ∀ x ∈ e :: rest, time x ≤ expiry x) :
    spanSum time expiry (fun _ => 1) lo hi (e :: rest) ≤ hi - max lo (min (time e) hi) ∧
      (spanSum time expiry (fun _ => 1) lo hi (e :: rest) = hi - max lo (min (time e) hi) ↔
        Unbroken time expiry lo hi (e :: rest)) := by
  have hHere := hExpiry e List.mem_cons_self
  induction rest generalizing e with
  | nil =>
    have hNext := min_le_right (time e) hi
    have hLe := span_le_uncut time expiry hWindow hNext
    have hIff := span_eq_uncut_iff hWindow hNext hHere
    rw [min_self, max_eq_right hWindow] at hLe
    rw [max_eq_right ((min_self hi).symm ▸ hWindow), min_self] at hIff
    simp only [spanSum, Unbroken, List.head?_nil, Option.map_none, Option.getD_none, one_mul,
      add_zero, and_true, min_self]
    exact ⟨hLe, hIff⟩
  | cons e' rest ih =>
    obtain ⟨hLater, hRest⟩ := List.pairwise_cons.mp hSorted
    obtain ⟨hTailLe, hTailIff⟩ := ih hRest (fun x hx => hExpiry x (List.mem_cons_of_mem e hx))
      (hExpiry e' (List.mem_cons_of_mem e List.mem_cons_self))
    have hNext : min (time e) hi ≤ time e' :=
      (min_le_left _ _).trans (hLater e' List.mem_cons_self)
    have hLe := span_le_uncut time expiry hWindow hNext
    have hIff := span_eq_uncut_iff hWindow hNext hHere
    rw [spanSum, one_mul, Unbroken, ← hTailIff]
    simp only [List.head?_cons, Option.map_some, Option.getD_some]
    rw [← hIff]
    -- both parts are at most what they would be uncut, so the sum is uncut when both are
    refine ⟨by linarith, fun h => ⟨by linarith, by linarith⟩, fun h => ?_⟩
    rw [h.1, h.2]
    ring

end Field

theorem cast_spanSum (time expiry weight : E → ℚ) (lo hi : ℚ) (events : List E) :
    ((spanSum time expiry weight lo hi events : ℚ) : ℝ) =
      spanSum (fun e => (time e : ℝ)) (fun e => (expiry e : ℝ)) (fun e => (weight e : ℝ))
        lo hi events := by
  induction events with
  | nil => simp [spanSum]
  | cons e rest ih =>
    have hnext : (((rest.head?.map time).getD hi : ℚ) : ℝ) =
        (rest.head?.map fun e => (time e : ℝ)).getD hi := by
      cases rest <;> rfl
    simp only [spanSum, span, Rat.cast_add, Rat.cast_mul, Rat.cast_max, Rat.cast_min, Rat.cast_sub,
      Rat.cast_zero, hnext, ih]

section Integral

variable (time expiry weight : E → ℝ)

/-- The contribution of one event to `levelAt`, as a function of time. -/
noncomputable def block (e : E) (next : ℝ) : ℝ → ℝ :=
  (Ico (time e) (min next (expiry e))).indicator fun _ => weight e

/-- On a window, the first event of a list in time order adds its own block and nothing else. -/
theorem levelAt_cons {e : E} {rest : List E} {hi t : ℝ} (ht : t < hi)
    (hSorted : (e :: rest).Pairwise fun a b => time a ≤ time b) :
    levelAt time expiry weight (e :: rest) t =
      block time expiry weight e ((rest.head?.map time).getD hi) t +
        levelAt time expiry weight rest t := by
  cases rest with
  | nil =>
    by_cases hle : time e ≤ t
    · by_cases hexp : t < expiry e <;> simp [levelAt, latestAt, block, Set.indicator, hle, hexp, ht]
    · simp [levelAt, latestAt, block, hle]
  | cons e' rest =>
    have hrest := (List.pairwise_cons.mp hSorted).2
    by_cases hnext : time e' ≤ t
    · -- the next event has happened, so the block of `e` is over
      have hsome : ∃ r, latestAt time (e' :: rest) t = some r := by
        rw [latestAt_cons, if_pos hnext]
        cases latestAt time rest t <;> simp
      obtain ⟨r, hr⟩ := hsome
      have hblock : block time expiry weight e (time e') t = 0 := by
        refine Set.indicator_of_notMem (fun hmem => ?_) _
        have := hmem.2.trans_le (min_le_left _ _)
        linarith
      simp only [List.head?_cons, Option.map_some, Option.getD_some, hblock, zero_add]
      unfold levelAt
      rw [latestAt_cons, hr]
      rfl
    · have hnone : latestAt time (e' :: rest) t = none := by
        have hlater : ∀ x ∈ e' :: rest, t < time x := by
          intro x hx
          rcases List.mem_cons.mp hx with rfl | hx
          · exact not_le.mp hnext
          · exact (not_le.mp hnext).trans_le ((List.pairwise_cons.mp hrest).1 x hx)
        simpa using latestAt_append_right time [] hlater
      have hlt : t < time e' := not_le.mp hnext
      have hzero : levelAt time expiry weight (e' :: rest) t = 0 := by
        unfold levelAt
        rw [hnone]
      rw [hzero, add_zero]
      unfold levelAt
      rw [latestAt_cons, hnone]
      by_cases hle : time e ≤ t
      · by_cases hexp : t < expiry e <;> simp [block, Set.indicator, hle, hexp, hlt]
      · simp [block, hle]

theorem integrableOn_block (e : E) (next lo hi : ℝ) :
    IntegrableOn (block time expiry weight e next) (Ico lo hi) := by
  unfold block
  rw [IntegrableOn, integrable_indicator_iff measurableSet_Ico, IntegrableOn,
    Measure.restrict_restrict measurableSet_Ico]
  refine integrableOn_const ?_
  rw [Ico_inter_Ico]
  simp

theorem integral_block (e : E) (next lo hi : ℝ) :
    ∫ t in Ico lo hi, block time expiry weight e next t =
      weight e * span time expiry lo hi e next := by
  unfold block
  rw [setIntegral_indicator measurableSet_Ico, Ico_inter_Ico, setIntegral_const,
    Real.volume_real_Ico, smul_eq_mul, mul_comm, span, max_comm, max_comm lo, min_comm hi]

theorem integrableOn_levelAt {events : List E} (lo hi : ℝ)
    (hSorted : events.Pairwise fun a b => time a ≤ time b) :
    IntegrableOn (levelAt time expiry weight events) (Ico lo hi) := by
  induction events with
  | nil => exact (integrable_zero _ _ _).congr (ae_of_all _ fun _ => rfl)
  | cons e rest ih =>
    refine ((integrableOn_block time expiry weight e ((rest.head?.map time).getD hi) lo hi).add
      (ih (List.pairwise_cons.mp hSorted).2)).congr_fun (fun t ht => ?_) measurableSet_Ico
    exact (levelAt_cons time expiry weight ht.2 hSorted).symm

/-- The one-pass sum is the integral of the step function over the window. -/
theorem integral_levelAt {events : List E} (lo hi : ℝ)
    (hSorted : events.Pairwise fun a b => time a ≤ time b) :
    ∫ t in Ico lo hi, levelAt time expiry weight events t =
      spanSum time expiry weight lo hi events := by
  induction events with
  | nil => simp [levelAt, spanSum]
  | cons e rest ih =>
    have hrest := (List.pairwise_cons.mp hSorted).2
    calc ∫ t in Ico lo hi, levelAt time expiry weight (e :: rest) t
        = ∫ t in Ico lo hi, (block time expiry weight e ((rest.head?.map time).getD hi) t +
            levelAt time expiry weight rest t) :=
          setIntegral_congr_fun measurableSet_Ico fun t ht =>
            levelAt_cons time expiry weight ht.2 hSorted
      _ = _ := by
          rw [integral_add (integrableOn_block ..) (integrableOn_levelAt time expiry weight lo hi hrest),
            integral_block, ih hrest, spanSum]

/-- Adjacent windows add up: nothing is counted twice and nothing is lost at the seam. -/
theorem integral_levelAt_adjacent {events : List E} {lo mid hi : ℝ} (hlo : lo ≤ mid)
    (hhi : mid ≤ hi) (hSorted : events.Pairwise fun a b => time a ≤ time b) :
    (∫ t in Ico lo mid, levelAt time expiry weight events t) +
        ∫ t in Ico mid hi, levelAt time expiry weight events t =
      ∫ t in Ico lo hi, levelAt time expiry weight events t := by
  rw [← Ico_union_Ico_eq_Ico hlo hhi, setIntegral_union ?_ measurableSet_Ico
    (integrableOn_levelAt time expiry weight lo mid hSorted)
    (integrableOn_levelAt time expiry weight mid hi hSorted)]
  exact Set.disjoint_left.mpr fun t h₁ h₂ => absurd h₁.2 (not_lt.mpr h₂.1)

end Integral

end Timeline

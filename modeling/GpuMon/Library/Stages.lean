import Mathlib.Tactic

/-!
# Stages that may raise

A job runs its stages one after another, up to the first that raises. It is run again on what the
first run left.

* `pipeline_settled`: stages that find their work done leave everything as it is.
* `rerun_appending_iff`: stages that append leave it only if the first of them with something to
  append raises.
-/

namespace Stages

variable {σ : Type*}

/-- The state a job is left in, and whether it raised. -/
structure Outcome (σ : Type*) where
  state : σ
  raised : Bool
  deriving DecidableEq

def passed (s : σ) : Outcome σ := ⟨s, false⟩

def raise (s : σ) : Outcome σ := ⟨s, true⟩

def Outcome.next (r : Outcome σ) (f : σ → Outcome σ) : Outcome σ := if r.raised then r else f r.state

def pipeline : List (σ → Outcome σ) → σ → Outcome σ
  | [], s => passed s
  | f :: fs, s => (f s).next (pipeline fs)

@[simp] theorem next_passed (s : σ) (f : σ → Outcome σ) : (passed s).next f = f s := rfl

@[simp] theorem next_raise (s : σ) (f : σ → Outcome σ) : (raise s).next f = raise s := rfl

theorem outcome_cases (r : Outcome σ) : r = passed r.state ∨ r = raise r.state := by
  obtain ⟨s, _ | _⟩ := r
  · exact .inl rfl
  · exact .inr rfl

/-- What every stage keeps, the job keeps. -/
theorem pipeline_rel {R : σ → σ → Prop} (hRefl : ∀ s, R s s)
    (hTrans : ∀ {a b c}, R a b → R b c → R a c) {fs : List (σ → Outcome σ)}
    (h : ∀ f ∈ fs, ∀ s, R s (f s).state) (s : σ) : R s (pipeline fs s).state := by
  induction fs generalizing s with
  | nil => exact hRefl s
  | cons f fs ih =>
    obtain ⟨hf, hfs⟩ := List.forall_mem_cons.mp h
    rw [pipeline, Outcome.next]
    split
    · exact hf s
    · exact hTrans (hf s) (ih hfs _)

/-- A stage that makes its change whole or raises. -/
def attempt (g : σ → Option σ) (s : σ) : Outcome σ :=
  match g s with
  | some t => passed t
  | none => raise s

theorem attempt_of_some {g : σ → Option σ} {s t : σ} (h : g s = some t) :
    attempt g s = passed t := by
  rw [attempt, h]

theorem attempt_of_none {g : σ → Option σ} {s : σ} (h : g s = none) : attempt g s = raise s := by
  rw [attempt, h]

theorem pipeline_append (fs gs : List (σ → Outcome σ)) (s : σ) :
    pipeline (fs ++ gs) s = (pipeline fs s).next (pipeline gs) := by
  induction fs generalizing s with
  | nil => rfl
  | cons f fs ih =>
    rw [List.cons_append, pipeline, pipeline]
    obtain hPassed | hRaised := outcome_cases (f s)
    · rw [hPassed, next_passed, next_passed]
      exact ih _
    · rw [hRaised]
      simp only [next_raise]

/-- A job of such stages passes where all their changes can be made. -/
theorem pipeline_attempt_eq_passed_iff {gs : List (σ → Option σ)} {s t : σ} :
    pipeline (gs.map attempt) s = passed t ↔ gs.foldlM (fun r g => g r) s = some t := by
  induction gs generalizing s with
  | nil => simp [pipeline, passed]
  | cons g gs ih =>
    rw [List.map_cons, pipeline, List.foldlM_cons]
    cases hg : g s with
    | none => simp [attempt_of_none hg, raise, passed, Outcome.next]
    | some r =>
      rw [attempt_of_some hg, next_passed, ih]
      simp

/-! ## Work that is found done -/

/-- A stage that only grows the state, raises before it changes anything, and finds its work done
once it has passed. -/
structure Settles (R : σ → σ → Prop) (f : σ → Outcome σ) : Prop where
  grows : ∀ s, R s (f s).state
  unchanged : ∀ s, (f s).raised = true → (f s).state = s
  settled : ∀ s t, (f s).raised = false → R (f s).state t → f t = passed t

/-- After a run of such stages, another one changes nothing and ends alike. -/
theorem pipeline_settled {R : σ → σ → Prop} (hRefl : ∀ s, R s s)
    (hTrans : ∀ {a b c}, R a b → R b c → R a c) {fs : List (σ → Outcome σ)}
    (h : ∀ f ∈ fs, Settles R f) {s t : σ} (hGrows : R (pipeline fs s).state t)
    (hRaised : (pipeline fs s).raised = true → t = (pipeline fs s).state) :
    pipeline fs t = ⟨t, (pipeline fs s).raised⟩ := by
  induction fs generalizing s with
  | nil => rfl
  | cons f fs ih =>
    obtain ⟨hf, hfs⟩ := List.forall_mem_cons.mp h
    obtain hPassed | hRaise := outcome_cases (f s)
    · have hNext : pipeline (f :: fs) s = pipeline fs (f s).state := by
        rw [pipeline, hPassed]
        rfl
      rw [hNext] at hGrows hRaised ⊢
      have hStep : R (f s).state (pipeline fs (f s).state).state :=
        pipeline_rel hRefl hTrans (fun g hg => (hfs g hg).grows) _
      have hDone : f t = passed t := hf.settled s t (by rw [hPassed]; rfl) (hTrans hStep hGrows)
      rw [pipeline, hDone, next_passed]
      exact ih hfs hGrows hRaised
    · -- the second run meets the state in which the first one raised
      have hNext : pipeline (f :: fs) s = f s := by
        rw [pipeline, hRaise]
        rfl
      have hRaised' : (f s).raised = true := by rw [hRaise]; rfl
      have hSame : t = s := (hRaised (by rw [hNext, hRaised'])).trans
        (by rw [hNext, hf.unchanged s hRaised'])
      rw [hSame, hNext, hRaised', hRaise, hf.unchanged s hRaised']
      rfl

/-! ## Work that is always done again -/

/-- A stage that appends what `count` counts, and does so again in every state that `R` leads to. -/
structure Appends (count : σ → ℕ) (R : σ → σ → Prop) (f : σ → Outcome σ) : Prop where
  keeps : ∀ s, R s (f s).state
  grows : ∀ s, count s ≤ count (f s).state
  again : ∀ s, f s = raise s ∨ ∀ t, R s t → count t < count (f t).state

/-- The first stage that does anything raises. -/
def RaisesFirst (s : σ) : List (σ → Outcome σ) → Prop
  | [] => True
  | f :: fs => (∀ t, f t = passed t) ∧ RaisesFirst s fs ∨ f s = raise s

theorem raise_ne_passed (s : σ) : raise s ≠ passed s := by
  simp [raise, passed]

/-- A second run leaves everything as it is only where the first one raised or had no work. -/
theorem rerun_appending_iff {count : σ → ℕ} {R : σ → σ → Prop} (hRefl : ∀ s, R s s)
    (hTrans : ∀ {a b c}, R a b → R b c → R a c) {fs : List (σ → Outcome σ)}
    (h : ∀ f ∈ fs, (∀ t, f t = passed t) ∨ Appends count R f) (s : σ) :
    (pipeline fs (pipeline fs s).state).state = (pipeline fs s).state ↔ RaisesFirst s fs := by
  have hKeeps : ∀ f, (∀ t, f t = passed t) ∨ Appends count R f → ∀ t, R t (f t).state := by
    rintro f (hIdle | hf) t
    · rw [hIdle]
      exact hRefl t
    · exact hf.keeps t
  have hCount : ∀ f, (∀ t, f t = passed t) ∨ Appends count R f →
      ∀ t, count t ≤ count (f t).state := by
    rintro f (hIdle | hf) t
    · rw [hIdle]
      exact le_rfl
    · exact hf.grows t
  induction fs with
  | nil => exact iff_of_true rfl trivial
  | cons f fs ih =>
    obtain ⟨hf, hfs⟩ := List.forall_mem_cons.mp h
    obtain hIdle | hAppends := hf
    · have hSkip : ∀ t, pipeline (f :: fs) t = pipeline fs t := fun t => by
        rw [pipeline, hIdle, next_passed]
      have hRaise : f s ≠ raise s := by
        rw [hIdle]
        exact (raise_ne_passed s).symm
      rw [hSkip, hSkip]
      refine (ih hfs).trans ⟨fun hRest => .inl ⟨hIdle, hRest⟩, ?_⟩
      rintro (⟨-, hRest⟩ | hFirst)
      · exact hRest
      · exact absurd hFirst hRaise
    · obtain hRaise | hAgain := hAppends.again s
      · have hStop : pipeline (f :: fs) s = raise s := by
          rw [pipeline, hRaise, next_raise]
        refine iff_of_true ?_ (.inr hRaise)
        rw [hStop]
        exact congrArg Outcome.state hStop
      · -- what the first run leaves is a state in which the stage appends once more
        have hReach : R s (pipeline (f :: fs) s).state :=
          pipeline_rel hRefl hTrans (fun g hg => hKeeps g (h g hg)) s
        refine iff_of_false (fun hSame => ?_) ?_
        · have hMore := hAgain _ hReach
          have hRest : ∀ t, count (f t).state ≤ count (pipeline (f :: fs) t).state := by
            intro t
            rw [pipeline, Outcome.next]
            split
            · exact le_rfl
            · exact pipeline_rel (R := fun a b => count a ≤ count b) (fun _ => le_rfl)
                le_trans (fun g hg => hCount g (hfs g hg)) _
          have hLess := hMore.trans_le (hRest _)
          rw [hSame] at hLess
          exact lt_irrefl _ hLess
        · rintro (⟨hIdle, -⟩ | hRaise)
          · have := hAgain s (hRefl s)
            rw [hIdle] at this
            exact lt_irrefl _ this
          · have := hAgain s (hRefl s)
            rw [hRaise] at this
            exact lt_irrefl _ this

end Stages

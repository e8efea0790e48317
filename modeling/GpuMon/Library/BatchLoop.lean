import Mathlib.Tactic

/-!
# Loops that commit in batches

A loop reads items one after another and collects what they ask for in a batch, which it
commits from time to time. An exception or a crash loses the batch and nothing else. The state
of the loop is what is committed and the batch; an exception carries what is committed.

* `resume`: a loop that skips what it finds committed can be started again. From the state an
  interrupted run has committed, the items read before that commit are skipped and the others
  are handled as if there had been no interruption.
* `foldlM_agrees`: two loops whose steps agree agree as a whole.
-/

universe u v w

namespace BatchLoop

variable {δ β : Type u} {ι : Type v}

/-- What an item does: it is settled already or waits in the batch, or the batch is committed,
which settles the item and those that waited. -/
inductive Effect (settled : δ → ι → Prop) (waits : List β → ι → Prop) (d : δ) (b : List β) (i : ι)
    (d' : δ) (b' : List β) : Prop
  | stay : d' = d → settled d i ∨ waits b' i → (∀ j, waits b j → waits b' j) →
      Effect settled waits d b i d' b'
  | commit : b' = [] → settled d' i → (∀ j, settled d j → settled d' j) →
      (∀ j, waits b j → settled d' j) → Effect settled waits d b i d' b'

variable {f : δ × List β → ι → Except δ (δ × List β)} {settled : δ → ι → Prop}
  {waits : List β → ι → Prop} {d₀ d : δ} {b : List β} {read rest : List ι}

theorem ok_of_bind {ε σ τ : Type u} {x : Except ε σ} {k : σ → Except ε τ} {r : τ}
    (h : x.bind k = .ok r) : ∃ a, x = .ok a ∧ k a = .ok r := by
  cases x with
  | error e => cases h
  | ok a => exact ⟨a, rfl, h⟩

/-- A loop that ends without an exception got past every item. -/
theorem exists_ok_of_foldlM {ε σ : Type u} {f : σ → ι → Except ε σ} {s t : σ}
    (h : read.foldlM f s = .ok t) : ∀ i ∈ read, ∃ s' t', f s' i = .ok t' := by
  induction read generalizing s with
  | nil =>
    intro i hi
    cases hi
  | cons i read ih =>
    obtain ⟨next, hFirst, hRest⟩ := ok_of_bind (k := fun u => read.foldlM f u) h
    intro j hj
    rcases List.mem_cons.mp hj with rfl | hj
    · exact ⟨s, next, hFirst⟩
    · exact ih hRest j hj

/-- A loop over calls that all succeed succeeds, each result with what is known of it. -/
theorem exists_mapM_ok {ε κ σ : Type u} {f : κ → Except ε σ} {P : κ → σ → Prop} {keys : List κ}
    (h : ∀ k ∈ keys, ∃ r, f k = .ok r ∧ P k r) :
    ∃ results, keys.mapM f = .ok results ∧ List.Forall₂ P keys results := by
  induction keys with
  | nil => exact ⟨[], rfl, .nil⟩
  | cons k keys ih =>
    obtain ⟨r, hCall, hResult⟩ := h k List.mem_cons_self
    obtain ⟨results, hCalls, hResults⟩ := ih fun k' hk' => h k' (List.mem_cons_of_mem k hk')
    refine ⟨r :: results, ?_, .cons hResult hResults⟩
    rw [List.mapM_cons, hCall, hCalls]
    rfl

/-- A loop over lookups that all find something. -/
theorem mapM_eq_some_iff {α β : Type} {f : α → Option β} {l : List α} {r : List β} :
    l.mapM f = some r ↔ l.map f = r.map some := by
  induction l generalizing r with
  | nil => cases r <;> simp
  | cons a l ih =>
    rw [List.mapM_cons]
    cases r with
    | nil => cases f a <;> simp [Option.bind_eq_some_iff]
    | cons b r =>
      cases hf : f a with
      | none => simp [hf]
      | some c => simp [hf, Option.bind_eq_some_iff, ih, and_comm]

/-! ## Loops that may raise -/

/-- A call that does not raise, whatever it returns, can be left out of what is to be checked. -/
theorem isSome_bind_of_forall {α τ : Type u} {x : Option α} {g : α → Option τ} {P : Prop}
    (h : ∀ a, x = some a → ((g a).isSome = true ↔ P)) :
    (x >>= g).isSome = true ↔ x.isSome = true ∧ P := by
  cases x with
  | none => simp
  | some a => simpa using h a rfl

/-- A loop gets through when no item raises; `I` is what the loop keeps. -/
theorem isSome_foldlM_iff {σ : Type u} {g : σ → ι → Option σ} {I : σ → Prop} {P : ι → Prop}
    (hStep : ∀ s i, I s → ((g s i).isSome = true ↔ P i))
    (hKeep : ∀ s i t, I s → g s i = some t → I t) {items : List ι} {s : σ} (hs : I s) :
    (items.foldlM g s).isSome = true ↔ ∀ i ∈ items, P i := by
  induction items generalizing s with
  | nil => simp
  | cons i items ih =>
    rw [List.foldlM_cons, List.forall_mem_cons, ← hStep s i hs]
    exact isSome_bind_of_forall fun t ht => ih (hKeep s i t hs ht)

/-- A loop whose items raise or not whatever came before. -/
theorem isSome_foldlM_forall_iff {σ : Type u} {g : σ → ι → Option σ} {P : ι → Prop}
    (hStep : ∀ s i, (g s i).isSome = true ↔ P i) (items : List ι) (s : σ) :
    (items.foldlM g s).isSome = true ↔ ∀ i ∈ items, P i :=
  isSome_foldlM_iff (I := fun _ => True) (fun s i _ => hStep s i) (fun _ _ _ _ _ => trivial) trivial

theorem isSome_foldlM {σ : Type u} {g : σ → ι → Option σ} (h : ∀ s i, (g s i).isSome = true)
    (items : List ι) (s : σ) : (items.foldlM g s).isSome = true :=
  (isSome_foldlM_forall_iff (fun s i => iff_of_true (h s i) trivial) items s).mpr
    fun _ _ => trivial

theorem isSome_mapM_iff {α β : Type u} {g : α → Option β} {l : List α} :
    (l.mapM g).isSome = true ↔ ∀ a ∈ l, (g a).isSome = true := by
  induction l with
  | nil => simp
  | cons a l ih =>
    rw [List.mapM_cons, List.forall_mem_cons, ← ih]
    refine isSome_bind_of_forall fun b _ => ?_
    cases l.mapM g <;> simp

/-- Every result comes from one of the calls. -/
theorem exists_of_mem_results {κ σ : Type u} {P : κ → σ → Prop} {keys : List κ}
    {results : List σ} (h : List.Forall₂ P keys results) {r : σ} (hr : r ∈ results) :
    ∃ k ∈ keys, P k r := by
  induction h with
  | nil => cases hr
  | cons hHead _ ih =>
    rcases List.mem_cons.mp hr with rfl | hr
    · exact ⟨_, List.mem_cons_self, hHead⟩
    · obtain ⟨k, hk, hResult⟩ := ih hr
      exact ⟨k, List.mem_cons_of_mem _ hk, hResult⟩

theorem foldlM_fixed {ε σ : Type u} {f : σ → ι → Except ε σ} {s : σ}
    (h : ∀ i ∈ read, f s i = .ok s) : read.foldlM f s = .ok s := by
  induction read with
  | nil => rfl
  | cons i read ih =>
    rw [List.foldlM_cons, h i List.mem_cons_self]
    exact ih fun j hj => h j (List.mem_cons_of_mem i hj)

theorem foldlM_concat {ε σ : Type u} {f : σ → ι → Except ε σ} {s : σ} {i : ι} :
    (read ++ [i]).foldlM f s = (read.foldlM f s).bind fun t => f t i := by
  rw [List.foldlM_append]
  refine congrArg (read.foldlM f s).bind (funext fun t => ?_)
  rw [List.foldlM_cons]
  exact bind_pure (f t i)

/-- The items read so far, split at the last commit. -/
structure Boundary (f : δ × List β → ι → Except δ (δ × List β)) (settled : δ → ι → Prop)
    (waits : List β → ι → Prop) (d₀ : δ) (read : List ι) (d : δ) (b : List β)
    (done pending : List ι) : Prop where
  read_eq : read = done ++ pending
  done_run : done.foldlM f (d₀, []) = .ok (d, [])
  pending_run : pending.foldlM f (d, []) = .ok (d, b)
  done_settled : ∀ i ∈ done, settled d i
  pending_waits : ∀ i ∈ pending, settled d i ∨ waits b i

theorem exists_boundary (hEffect : ∀ i ∈ read, ∀ d b d' b', f (d, b) i = .ok (d', b') →
    Effect settled waits d b i d' b') (h : read.foldlM f (d₀, []) = .ok (d, b)) :
    ∃ done pending, Boundary f settled waits d₀ read d b done pending := by
  induction read using List.reverseRecOn generalizing d b with
  | nil =>
    cases h
    exact ⟨[], [], rfl, rfl, rfl, fun i hi => (List.not_mem_nil hi).elim,
      fun i hi => (List.not_mem_nil hi).elim⟩
  | append_singleton read i ih =>
    rw [foldlM_concat] at h
    obtain ⟨⟨dᵢ, bᵢ⟩, hRead, hItem⟩ := ok_of_bind h
    obtain ⟨done, pending, hBound⟩ :=
      ih (fun j hj => hEffect j (List.mem_append_left _ hj)) hRead
    cases hEffect i List.mem_concat_self dᵢ bᵢ d b hItem with
    | stay hSame hWaits hKeep =>
      subst hSame
      refine ⟨done, pending ++ [i], ?_, hBound.done_run, ?_, hBound.done_settled, ?_⟩
      · rw [hBound.read_eq, List.append_assoc]
      · rw [foldlM_concat, hBound.pending_run]
        exact hItem
      · intro j hj
        rcases List.mem_append.mp hj with hOld | hNew
        · exact (hBound.pending_waits j hOld).imp_right (hKeep j)
        · rw [List.mem_singleton.mp hNew]
          exact hWaits
    | commit hEmpty hSettled hKeep hWaited =>
      subst hEmpty
      refine ⟨read ++ [i], [], (List.append_nil _).symm, ?_, rfl, ?_,
        fun j hj => (List.not_mem_nil hj).elim⟩
      · rw [foldlM_concat, hRead]
        exact hItem
      · intro j hj
        rcases List.mem_append.mp hj with hOld | hNew
        · rw [hBound.read_eq] at hOld
          rcases List.mem_append.mp hOld with hFirst | hPending
          · exact hKeep j (hBound.done_settled j hFirst)
          · exact (hBound.pending_waits j hPending).elim (hKeep j) (hWaited j)
        · rw [List.mem_singleton.mp hNew]
          exact hSettled

/-- Started again from what an interrupted run has committed, the loop ends as it would have
without the interruption. -/
theorem resume (hSkip : ∀ d b i, settled d i → f (d, b) i = .ok (d, b))
    (hEffect : ∀ i ∈ read, ∀ d b d' b', f (d, b) i = .ok (d', b') →
      Effect settled waits d b i d' b') (h : read.foldlM f (d₀, []) = .ok (d, b)) :
    (read ++ rest).foldlM f (d, []) = (read ++ rest).foldlM f (d₀, []) := by
  obtain ⟨done, pending, hBound⟩ := exists_boundary hEffect h
  rw [hBound.read_eq, List.append_assoc, List.foldlM_append, List.foldlM_append, hBound.done_run,
    foldlM_fixed fun i hi => hSkip d [] i (hBound.done_settled i hi)]

/-! ## Loops that agree -/

/-- Two results, both values or both exceptions, that are related. -/
inductive Agrees {ε ε' : Type u} {α α' : Type v} (E : ε → ε' → Prop) (R : α → α' → Prop) :
    Except ε α → Except ε' α' → Prop
  | ok {a : α} {a' : α'} : R a a' → Agrees E R (.ok a) (.ok a')
  | error {e : ε} {e' : ε'} : E e e' → Agrees E R (.error e) (.error e')

theorem Agrees.bind {ε ε' : Type u} {α α' γ γ' : Type v} {E : ε → ε' → Prop} {R : α → α' → Prop}
    {Q : γ → γ' → Prop} {x : Except ε α} {x' : Except ε' α'} {k : α → Except ε γ}
    {k' : α' → Except ε' γ'} (h : Agrees E R x x')
    (hNext : ∀ a a', R a a' → Agrees E Q (k a) (k' a')) :
    Agrees E Q (x >>= k) (x' >>= k') := by
  cases h with
  | ok hValue => exact hNext _ _ hValue
  | error hFailed => exact .error hFailed

theorem Agrees.trans {ε ε' ε'' : Type u} {α α' α'' : Type v} {E₁ : ε → ε' → Prop}
    {E₂ : ε' → ε'' → Prop} {E : ε → ε'' → Prop} {R₁ : α → α' → Prop} {R₂ : α' → α'' → Prop}
    {R : α → α'' → Prop} (hE : ∀ {e e' e''}, E₁ e e' → E₂ e' e'' → E e e'')
    (hR : ∀ {a a' a''}, R₁ a a' → R₂ a' a'' → R a a'') {x : Except ε α} {y : Except ε' α'}
    {z : Except ε'' α''} (h₁ : Agrees E₁ R₁ x y) (h₂ : Agrees E₂ R₂ y z) : Agrees E R x z := by
  cases h₁ with
  | ok h => cases h₂ with
    | ok h' => exact .ok (hR h h')
  | error h => cases h₂ with
    | error h' => exact .error (hE h h')

theorem foldlM_agrees {ε ε' : Type u} {α α' : Type v} {ι : Type w} {E : ε → ε' → Prop}
    {R : α → α' → Prop} {f : α → ι → Except ε α} {g : α' → ι → Except ε' α'} {items : List ι}
    (hStep : ∀ i ∈ items, ∀ a a', R a a' → Agrees E R (f a i) (g a' i)) {a : α} {a' : α'}
    (h : R a a') : Agrees E R (items.foldlM f a) (items.foldlM g a') := by
  induction items generalizing a a' with
  | nil => exact .ok h
  | cons i items ih =>
    rw [List.foldlM_cons, List.foldlM_cons]
    refine (hStep i List.mem_cons_self a a' h).bind fun b b' hNext => ?_
    exact ih (fun j hj => hStep j (List.mem_cons_of_mem i hj)) hNext

end BatchLoop

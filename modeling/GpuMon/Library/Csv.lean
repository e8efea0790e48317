import Mathlib.Tactic

/-!
# Comma-separated values

The format of RFC 4180 over any alphabet that has its four symbols; every other character is text.
A field is written as it is, or between quotes with each quote in it doubled. The fields of a
record are separated by commas, and each record ends with CR LF, which may be missing at the end of
the file.

* `decode_eq_some_iff`: the reader accepts the files of the format and gives their records, so a
  file has one meaning only.
* `decode_row`: a row of quoted fields is read as one record with these fields, whatever they are.
-/

namespace Csv

universe u

structure Symbols (α : Type u) where
  quote : α
  comma : α
  cr : α
  lf : α
  apart : [quote, comma, cr, lf].Nodup

variable {α : Type u}

/-! ## The symbols -/

def IsText (S : Symbols α) (c : α) : Prop := c ∉ [S.quote, S.comma, S.cr, S.lf]

section Symbols

variable {S : Symbols α}

theorem not_isText_quote : ¬IsText S S.quote := not_not_intro List.mem_cons_self

theorem not_isText_comma : ¬IsText S S.comma := not_not_intro (by simp)

theorem not_isText_cr : ¬IsText S S.cr := not_not_intro (by simp)

theorem comma_ne_quote : S.comma ≠ S.quote := by
  intro h
  simpa [h] using S.apart

theorem cr_ne_quote : S.cr ≠ S.quote := by
  intro h
  simpa [h] using S.apart

theorem cr_ne_comma : S.cr ≠ S.comma := by
  intro h
  simpa [h] using S.apart

end Symbols

/-! ## The format -/

variable [DecidableEq α] (S : Symbols α)

instance (c : α) : Decidable (IsText S c) := inferInstanceAs (Decidable (c ∉ _))

/-- A field with each quote doubled. -/
def doubled (v : List α) : List α := v.flatMap fun c => if c = S.quote then [c, c] else [c]

def quoted (v : List α) : List α := S.quote :: doubled S v ++ [S.quote]

/-- A text is a field with a value. -/
inductive IsField : List α → List α → Prop
  | plain {v : List α} : (∀ c ∈ v, IsText S c) → IsField v v
  | escaped (v : List α) : IsField (quoted S v) v

/-- A text is a record of fields. -/
inductive IsRecord : List α → List (List α) → Prop
  | one {t v : List α} : IsField S t v → IsRecord t [v]
  | cons {t v t' : List α} {vs : List (List α)} : IsField S t v → IsRecord t' vs →
      IsRecord (t ++ S.comma :: t') (v :: vs)

/-- A text is a file of records. A line break at its end belongs to the last record. -/
inductive IsFile : List α → List (List (List α)) → Prop
  | last {t : List α} {r : List (List α)} : IsRecord S t r → IsFile t [r]
  | ended {t : List α} {r : List (List α)} : IsRecord S t r → IsFile (t ++ [S.cr, S.lf]) [r]
  | cons {t t' : List α} {r : List (List α)} {rs : List (List (List α))} : IsRecord S t r →
      IsFile t' rs → t' ≠ [] → IsFile (t ++ S.cr :: S.lf :: t') (r :: rs)

/-- The fields of a row, each in quotes, with commas between them. -/
def row (vs : List (List α)) : List α := [S.comma].intercalate (vs.map (quoted S))

theorem isRecord_row (v : List α) (vs : List (List α)) : IsRecord S (row S (v :: vs)) (v :: vs) := by
  induction vs generalizing v with
  | nil =>
    have hRow : row S [v] = quoted S v := List.append_nil _
    rw [hRow]
    exact .one (.escaped v)
  | cons w vs ih =>
    have hRow : row S (v :: w :: vs) = quoted S v ++ S.comma :: row S (w :: vs) := rfl
    rw [hRow]
    exact .cons (.escaped v) (ih w)

/-! ## The reader -/

/-- Where the reader is: before a field, in a plain one, between the quotes, after what may be the
closing one, or between CR and LF. -/
inductive Phase
  | start
  | plain
  | quoted
  | closed
  | cr
  deriving DecidableEq

/-- The field can end here. -/
def Phase.isOver : Phase → Bool
  | .start => true
  | .plain => true
  | .closed => true
  | _ => false

structure Reading (α : Type u) where
  records : List (List (List α)) := []
  fields : List (List α) := []
  field : List α := []
  phase : Phase := .start

def Reading.endField (s : Reading α) : Reading α :=
  { records := s.records, fields := s.fields ++ [s.field] }

def Reading.endRecord (s : Reading α) : Reading α :=
  { records := s.records ++ [s.fields ++ [s.field]] }

def afterField (s : Reading α) (c : α) : Option (Reading α) :=
  if c = S.comma then some s.endField
  else if c = S.cr then some { s with phase := .cr }
  else none

def inPlain (s : Reading α) (c : α) : Option (Reading α) :=
  if IsText S c then some { s with field := s.field ++ [c], phase := .plain } else afterField S s c

def step (s : Reading α) (c : α) : Option (Reading α) :=
  match s.phase with
  | .start => if c = S.quote then some { s with phase := .quoted } else inPlain S s c
  | .plain => inPlain S s c
  | .quoted =>
    if c = S.quote then some { s with phase := .closed }
    else some { s with field := s.field ++ [c] }
  | .closed =>
    if c = S.quote then some { s with field := s.field ++ [c], phase := .quoted }
    else afterField S s c
  | .cr => if c = S.lf then some s.endRecord else none

/-- After a line break at the end there is no further record. -/
def finish (s : Reading α) : Option (List (List (List α))) :=
  if s.phase.isOver then
    if s.phase = .start ∧ s.fields = [] ∧ s.records ≠ [] then some s.records
    else some s.endRecord.records
  else none

def run (s : Reading α) (t : List α) : Option (Reading α) := t.foldlM (step S) s

def decode (t : List α) : Option (List (List (List α))) := (run S {} t).bind finish

/-- What one character does. -/
inductive Move (s : Reading α) : α → Reading α → Prop
  | opened : s.phase = .start → Move s S.quote { s with phase := .quoted }
  | text {c : α} : s.phase = .start ∨ s.phase = .plain → IsText S c →
      Move s c { s with field := s.field ++ [c], phase := .plain }
  | inside {c : α} : s.phase = .quoted → c ≠ S.quote → Move s c { s with field := s.field ++ [c] }
  | closed : s.phase = .quoted → Move s S.quote { s with phase := .closed }
  | reopened : s.phase = .closed →
      Move s S.quote { s with field := s.field ++ [S.quote], phase := .quoted }
  | comma : s.phase.isOver = true → Move s S.comma s.endField
  | cr : s.phase.isOver = true → Move s S.cr { s with phase := .cr }
  | lf : s.phase = .cr → Move s S.lf s.endRecord

section Steps

variable {S} {s s' : Reading α} {c : α}

theorem move_of_afterField (hOver : s.phase.isOver = true) (h : afterField S s c = some s') :
    Move S s c s' := by
  unfold afterField at h
  by_cases hComma : c = S.comma
  · rw [if_pos hComma, Option.some.injEq] at h
    subst hComma h
    exact .comma hOver
  · rw [if_neg hComma] at h
    by_cases hCr : c = S.cr
    · rw [if_pos hCr, Option.some.injEq] at h
      subst hCr h
      exact .cr hOver
    · rw [if_neg hCr] at h
      cases h

theorem move_of_inPlain (hPhase : s.phase = .start ∨ s.phase = .plain)
    (h : inPlain S s c = some s') : Move S s c s' := by
  unfold inPlain at h
  by_cases hText : IsText S c
  · rw [if_pos hText, Option.some.injEq] at h
    subst h
    exact .text hPhase hText
  · rw [if_neg hText] at h
    refine move_of_afterField ?_ h
    rcases hPhase with h | h <;> rw [h] <;> rfl

theorem move_of_step (h : step S s c = some s') : Move S s c s' := by
  unfold step at h
  cases hPhase : s.phase with
  | start =>
    rw [hPhase] at h
    by_cases hc : c = S.quote
    · obtain rfl := Option.some.inj ((if_pos hc).symm.trans h)
      subst hc
      exact .opened hPhase
    · exact move_of_inPlain (.inl hPhase) ((if_neg hc).symm.trans h)
  | plain =>
    rw [hPhase] at h
    exact move_of_inPlain (.inr hPhase) h
  | quoted =>
    rw [hPhase] at h
    by_cases hc : c = S.quote
    · obtain rfl := Option.some.inj ((if_pos hc).symm.trans h)
      subst hc
      exact .closed hPhase
    · obtain rfl := Option.some.inj ((if_neg hc).symm.trans h)
      have hMove := Move.inside hPhase hc
      rwa [hPhase] at hMove
  | closed =>
    rw [hPhase] at h
    by_cases hc : c = S.quote
    · obtain rfl := Option.some.inj ((if_pos hc).symm.trans h)
      subst hc
      exact .reopened hPhase
    · refine move_of_afterField ?_ ((if_neg hc).symm.trans h)
      rw [hPhase]
      rfl
  | cr =>
    rw [hPhase] at h
    by_cases hc : c = S.lf
    · obtain rfl := Option.some.inj ((if_pos hc).symm.trans h)
      subst hc
      exact .lf hPhase
    · cases (if_neg hc).symm.trans h

theorem step_eq_afterField (hOver : s.phase.isOver = true) (hQuote : c ≠ S.quote)
    (hText : ¬IsText S c) : step S s c = afterField S s c := by
  unfold step
  cases hPhase : s.phase with
  | start => exact (if_neg hQuote).trans (if_neg hText)
  | plain => exact if_neg hText
  | closed => exact if_neg hQuote
  | quoted =>
    rw [hPhase] at hOver
    cases hOver
  | cr =>
    rw [hPhase] at hOver
    cases hOver

theorem step_of_move (h : Move S s c s') : step S s c = some s' := by
  cases h with
  | opened hPhase =>
    rw [step, hPhase]
    exact if_pos rfl
  | text hPhase hText =>
    have hQuote : c ≠ S.quote := fun hc => not_isText_quote (hc ▸ hText)
    rcases hPhase with hPhase | hPhase <;> rw [step, hPhase]
    · exact (if_neg hQuote).trans (if_pos hText)
    · exact if_pos hText
  | inside hPhase hc =>
    rw [step, hPhase]
    exact if_neg hc
  | closed hPhase =>
    rw [step, hPhase]
    exact if_pos rfl
  | reopened hPhase =>
    rw [step, hPhase]
    exact if_pos rfl
  | comma hOver =>
    rw [step_eq_afterField hOver comma_ne_quote not_isText_comma]
    exact if_pos rfl
  | cr hOver =>
    rw [step_eq_afterField hOver cr_ne_quote not_isText_cr]
    exact (if_neg cr_ne_comma).trans (if_pos rfl)
  | lf hPhase =>
    rw [step, hPhase]
    exact if_pos rfl

end Steps

/-! ## Files are read -/

section Reads

variable {S} {s s' : Reading α} {c : α} {t v : List α} {vs : List (List α)}
  {rs : List (List (List α))}

theorem run_cons (h : Move S s c s') (t : List α) : run S s (c :: t) = run S s' t := by
  rw [run, List.foldlM_cons, step_of_move h]
  rfl

theorem run_append (h : run S s t = some s') (t' : List α) :
    run S s (t ++ t') = run S s' t' := by
  rw [run] at h
  rw [run, List.foldlM_append, h]
  rfl

/-- Characters that are text go on with a plain field. -/
theorem run_text (hPhase : s.phase = .start ∨ s.phase = .plain) (hText : ∀ c ∈ v, IsText S c) :
    run S s v =
      some { s with field := s.field ++ v, phase := if v = [] then s.phase else .plain } := by
  induction v generalizing s with
  | nil =>
    rw [List.append_nil]
    rfl
  | cons c v ih =>
    rw [run_cons (.text hPhase (hText c List.mem_cons_self)),
      ih (.inr rfl) fun d hd => hText d (List.mem_cons_of_mem c hd)]
    simp

/-- Between the quotes every value comes back. -/
theorem run_doubled (hPhase : s.phase = .quoted) (v : List α) :
    run S s (doubled S v) = some { s with field := s.field ++ v } := by
  induction v generalizing s with
  | nil =>
    show some s = some { s with field := s.field ++ [] }
    rw [List.append_nil]
  | cons c v ih =>
    have hNext : run S s (if c = S.quote then [c, c] else [c]) =
        some { s with field := s.field ++ [c] } := by
      by_cases hc : c = S.quote
      · subst hc
        rw [if_pos rfl, run_cons (.closed hPhase), run_cons (.reopened rfl), ← hPhase]
        rfl
      · rw [if_neg hc, run_cons (.inside hPhase hc)]
        rfl
    show run S s ((if c = S.quote then [c, c] else [c]) ++ doubled S v) = _
    have hRest : run S { s with field := s.field ++ [c] } (doubled S v) =
        some { s with field := s.field ++ [c] ++ v } := ih hPhase
    rw [run_append hNext, hRest, List.append_assoc]
    rfl

/-- A field is read up to a place where it can end. -/
theorem run_field (records : List (List (List α))) (fields : List (List α))
    (h : IsField S t v) :
    ∃ phase, phase.isOver = true ∧ (phase = .start → t = []) ∧
      run S { records, fields } t = some { records, fields, field := v, phase := phase } := by
  cases h with
  | plain hText =>
    refine ⟨if t = [] then .start else .plain, ?_, ?_, ?_⟩
    · split_ifs <;> rfl
    · intro hStart
      by_contra hne
      rw [if_neg hne] at hStart
      cases hStart
    · rw [run_text (.inl rfl) hText]
      rfl
  | escaped v =>
    have hInside : run S { records, fields, phase := .quoted } (doubled S v) =
        some { records, fields, field := v, phase := .quoted } := run_doubled rfl v
    refine ⟨.closed, rfl, nofun, ?_⟩
    rw [quoted, List.cons_append, run_cons (.opened rfl), run_append hInside,
      run_cons (.closed rfl)]
    rfl

/-- A record is read up to a place where its last field can end. -/
theorem run_record (records : List (List (List α))) (fields : List (List α))
    (h : IsRecord S t vs) :
    ∃ front last phase, vs = front ++ [last] ∧ phase.isOver = true ∧
      (phase = .start → front = [] → t = []) ∧
      run S { records, fields } t =
        some { records, fields := fields ++ front, field := last, phase := phase } := by
  induction h generalizing fields with
  | @one t v hField =>
    obtain ⟨phase, hOver, hEmpty, hRun⟩ := run_field records fields hField
    refine ⟨[], v, phase, rfl, hOver, fun hStart _ => hEmpty hStart, ?_⟩
    rw [hRun, List.append_nil]
  | @cons t v t' vs hField _ ih =>
    obtain ⟨phase, hOver, -, hRun⟩ := run_field records fields hField
    obtain ⟨front, last, phase', rfl, hOver', -, hRun'⟩ := ih (fields ++ [v])
    refine ⟨v :: front, last, phase', rfl, hOver', nofun, ?_⟩
    rw [run_append hRun, run_cons (.comma hOver)]
    refine hRun'.trans ?_
    rw [List.append_assoc]
    rfl

/-- A record with its line break. -/
theorem run_line (records : List (List (List α))) (h : IsRecord S t vs) :
    run S { records } (t ++ [S.cr, S.lf]) = some { records := records ++ [vs] } := by
  obtain ⟨front, last, phase, rfl, hOver, -, hRun⟩ := run_record records [] h
  rw [run_append hRun, run_cons (.cr hOver), run_cons (.lf rfl)]
  rfl

omit [DecidableEq α] in
theorem finish_of_ended {records : List (List (List α))} (h : records ≠ []) :
    finish ({ records } : Reading α) = some records := by
  simp [finish, Phase.isOver, h]

/-- A file is read after any records, unless it is empty. -/
theorem finish_run (h : IsFile S t rs) {records : List (List (List α))}
    (hNew : records = [] ∨ t ≠ []) : (run S { records } t).bind finish = some (records ++ rs) := by
  induction h generalizing records with
  | @last t r hRecord =>
    obtain ⟨front, last, phase, rfl, hOver, hEmpty, hRun⟩ := run_record records [] hRecord
    have hMore : ¬(phase = .start ∧ [] ++ front = [] ∧ records ≠ []) := by
      rintro ⟨hStart, hFront, hOld⟩
      exact (hNew.resolve_left hOld) (hEmpty hStart hFront)
    rw [hRun]
    exact (if_pos hOver).trans (if_neg hMore)
  | @ended t r hRecord =>
    rw [run_line records hRecord, Option.bind_some, finish_of_ended (by simp)]
  | @cons t t' r rs hRecord _ hne ih =>
    have hText : t ++ S.cr :: S.lf :: t' = t ++ [S.cr, S.lf] ++ t' := by simp
    rw [hText, run_append (run_line records hRecord), ih (.inr hne), List.append_assoc]
    rfl

theorem decode_of_isFile (h : IsFile S t rs) : decode S t = some rs := finish_run h (.inl rfl)

end Reads

/-! ## What is read is a file -/

section Sound

variable {S} {s s' : Reading α} {c : α} {t : List α}

/-- The text of the records that are read. -/
def Ended (S : Symbols α) (done : List α) (records : List (List (List α))) : Prop :=
  (records = [] ∧ done = [] ∨ records ≠ [] ∧ IsFile S done records) ∧
    ∀ t rs, IsFile S t rs → t ≠ [] → IsFile S (done ++ t) (records ++ rs)

/-- The text of the fields that are read of a record. -/
def Begun (S : Symbols α) (cur : List α) (fields : List (List α)) : Prop :=
  (cur = [] ↔ fields = []) ∧
    ∀ t vs, IsRecord S t vs → IsRecord S (cur ++ t) (fields ++ vs)

/-- The text of a field as far as it is read. -/
def Partial (S : Symbols α) : Phase → List α → List α → Prop
  | .start, part, field => part = [] ∧ field = []
  | .plain, part, field => part = field ∧ part ≠ [] ∧ ∀ c ∈ part, IsText S c
  | .quoted, part, field => part = S.quote :: doubled S field
  | .closed, part, field => part = quoted S field
  | .cr, part, field => ∃ whole, part = whole ++ [S.cr] ∧ IsField S whole field

def Describes (S : Symbols α) (s : Reading α) (t : List α) : Prop :=
  ∃ done cur part, t = done ++ (cur ++ part) ∧ Ended S done s.records ∧ Begun S cur s.fields ∧
    Partial S s.phase part s.field

theorem isField_of_isOver {phase : Phase} {part field : List α} (hOver : phase.isOver = true)
    (h : Partial S phase part field) : IsField S part field := by
  cases phase with
  | start =>
    obtain ⟨rfl, rfl⟩ := h
    exact .plain (List.forall_mem_nil _)
  | plain =>
    obtain ⟨rfl, -, hText⟩ := h
    exact .plain hText
  | closed =>
    subst h
    exact .escaped field
  | quoted => cases hOver
  | cr => cases hOver

theorem start_of_partial_nil {phase : Phase} {field : List α} (hOver : phase.isOver = true)
    (h : Partial S phase [] field) : phase = .start := by
  cases phase with
  | start => rfl
  | plain => exact absurd rfl h.2.1
  | closed => cases h
  | quoted => cases hOver
  | cr => cases hOver

theorem begun_nil : Begun S [] [] := ⟨iff_of_true rfl rfl, fun _ _ hRecord => hRecord⟩

theorem Begun.snoc {cur part v : List α} {fields : List (List α)} (h : Begun S cur fields)
    (hField : IsField S part v) : Begun S (cur ++ part ++ [S.comma]) (fields ++ [v]) := by
  refine ⟨by simp, fun t vs hRecord => ?_⟩
  have := h.2 _ _ (IsRecord.cons hField hRecord)
  simpa using this

theorem Begun.isRecord {cur part v : List α} {fields : List (List α)} (h : Begun S cur fields)
    (hField : IsField S part v) : IsRecord S (cur ++ part) (fields ++ [v]) :=
  h.2 _ _ (.one hField)

theorem Ended.snoc {done t : List α} {records : List (List (List α))} {r : List (List α)}
    (h : Ended S done records) (hRecord : IsRecord S t r) :
    Ended S (done ++ t ++ [S.cr, S.lf]) (records ++ [r]) := by
  refine ⟨.inr ⟨by simp, ?_⟩, fun t' rs hFile hne => ?_⟩
  · rw [List.append_assoc]
    exact h.2 _ _ (.ended hRecord) (by simp)
  · have := h.2 _ _ (.cons hRecord hFile hne) (by simp)
    simpa using this

theorem doubled_append_quote (v : List α) :
    doubled S (v ++ [S.quote]) = doubled S v ++ [S.quote, S.quote] := by
  simp [doubled]

theorem doubled_append {v : List α} (hc : c ≠ S.quote) :
    doubled S (v ++ [c]) = doubled S v ++ [c] := by
  simp [doubled, hc]

/-- One character goes on with the description. -/
theorem describes_step (h : Describes S s t) (hMove : Move S s c s') : Describes S s' (t ++ [c]) := by
  obtain ⟨done, cur, part, rfl, hDone, hCur, hPart⟩ := h
  -- within a field the records and fields before it stay
  have hKeep : ∀ {phase : Phase} {field : List α}, Partial S phase (part ++ [c]) field →
      Describes S { s with field, phase } (done ++ (cur ++ part) ++ [c]) := fun hPart' =>
    ⟨done, cur, part ++ [c], by simp only [List.append_assoc], hDone, hCur, hPart'⟩
  cases hMove with
  | opened hPhase =>
    rw [hPhase] at hPart
    obtain ⟨rfl, hField⟩ := hPart
    refine hKeep ?_
    rw [hField]
    rfl
  | text hPhase hText =>
    refine hKeep ?_
    have hPlain : part = s.field ∧ ∀ d ∈ part, IsText S d := by
      rcases hPhase with hPhase | hPhase <;> rw [hPhase] at hPart
      · obtain ⟨rfl, hField⟩ := hPart
        exact ⟨hField.symm, List.forall_mem_nil _⟩
      · exact ⟨hPart.1, hPart.2.2⟩
    refine ⟨by rw [hPlain.1], by simp, fun d hd => ?_⟩
    rcases List.mem_append.mp hd with hd | hd
    · exact hPlain.2 d hd
    · rwa [List.mem_singleton.mp hd]
  | inside hPhase hc =>
    rw [hPhase] at hPart
    have hInside : Partial S .quoted (part ++ [c]) (s.field ++ [c]) := by
      show part ++ [c] = _
      rw [doubled_append hc, hPart]
      rfl
    have hNext := hKeep hInside
    rwa [← hPhase] at hNext
  | closed hPhase =>
    rw [hPhase] at hPart
    refine hKeep ?_
    show part ++ [S.quote] = _
    rw [hPart]
    rfl
  | reopened hPhase =>
    rw [hPhase] at hPart
    refine hKeep ?_
    show part ++ [S.quote] = _
    rw [doubled_append_quote, hPart]
    simp [quoted]
  | comma hOver =>
    refine ⟨done, cur ++ part ++ [S.comma], [], ?_, hDone,
      hCur.snoc (isField_of_isOver hOver hPart), rfl, rfl⟩
    simp only [List.append_assoc, List.append_nil]
  | cr hOver => exact hKeep ⟨part, rfl, isField_of_isOver hOver hPart⟩
  | lf hPhase =>
    rw [hPhase] at hPart
    obtain ⟨whole, rfl, hField⟩ := hPart
    refine ⟨done ++ (cur ++ whole) ++ [S.cr, S.lf], [], [], ?_,
      hDone.snoc (hCur.isRecord hField), begun_nil, rfl, rfl⟩
    simp only [List.append_assoc, List.append_nil, List.cons_append, List.nil_append]

theorem describes_run {s₀ : Reading α} {t₀ : List α} (h₀ : Describes S s₀ t₀)
    (h : run S s₀ t = some s) : Describes S s (t₀ ++ t) := by
  induction t generalizing s₀ t₀ with
  | nil =>
    obtain rfl := Option.some.inj h
    rwa [List.append_nil]
  | cons c t ih =>
    obtain ⟨s₁, hStep, hRun⟩ := Option.bind_eq_some_iff.mp h
    have hNext := ih (describes_step h₀ (move_of_step hStep)) hRun
    rwa [List.append_assoc] at hNext

/-- At the end of the text the records that are read are those of a file. -/
theorem isFile_of_finish {rs : List (List (List α))} (h : Describes S s t)
    (hFinish : finish s = some rs) : IsFile S t rs := by
  obtain ⟨done, cur, part, rfl, hDone, hCur, hPart⟩ := h
  unfold finish at hFinish
  by_cases hOver : s.phase.isOver = true
  · rw [if_pos hOver] at hFinish
    by_cases hEnd : s.phase = .start ∧ s.fields = [] ∧ s.records ≠ []
    · rw [if_pos hEnd] at hFinish
      obtain rfl := Option.some.inj hFinish
      obtain ⟨hStart, hFields, hSome⟩ := hEnd
      rw [hStart] at hPart
      rw [hCur.1.mpr hFields, hPart.1, List.append_nil, List.append_nil]
      exact (hDone.1.resolve_left fun hNone => hSome hNone.1).2
    · rw [if_neg hEnd] at hFinish
      obtain rfl := Option.some.inj hFinish
      have hLast := IsFile.last (hCur.isRecord (isField_of_isOver hOver hPart))
      by_cases hText : cur ++ part = []
      · -- an empty record without a comma is the only one of its file
        obtain ⟨rfl, rfl⟩ := List.append_eq_nil_iff.mp hText
        have hNone : s.records = [] := by
          by_contra hSome
          exact hEnd ⟨start_of_partial_nil hOver hPart, hCur.1.mp rfl, hSome⟩
        obtain ⟨-, rfl⟩ := hDone.1.resolve_right fun hFile => hFile.1 hNone
        show IsFile S ([] ++ ([] ++ [])) (s.records ++ [s.fields ++ [s.field]])
        rw [hNone]
        exact hLast
      · exact hDone.2 _ _ hLast hText
  · rw [if_neg hOver] at hFinish
    cases hFinish

theorem decode_eq_some_iff {rs : List (List (List α))} : decode S t = some rs ↔ IsFile S t rs := by
  refine ⟨fun h => ?_, decode_of_isFile⟩
  obtain ⟨s, hRun, hFinish⟩ := Option.bind_eq_some_iff.mp h
  have hStart : Describes S ({} : Reading α) [] :=
    ⟨[], [], [], rfl, ⟨.inl ⟨rfl, rfl⟩, fun t rs hFile _ => hFile⟩,
      begun_nil, rfl, rfl⟩
  exact isFile_of_finish (describes_run hStart hRun) hFinish

end Sound

theorem decode_row (v : List α) (vs : List (List α)) :
    decode S (row S (v :: vs)) = some [v :: vs] :=
  decode_of_isFile (.last (isRecord_row S v vs))

end Csv

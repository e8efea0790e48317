import GpuMon.Library.PyText

/-!
# URL references that begin with a slash

The part of the URL parser of browsers that reads such a reference against the origin of a page:
blanks are trimmed, a second slash hands the text to the parser of hosts, and otherwise the path is
cut into segments, its dot segments are removed, and what cannot stand in a URL is
percent-encoded. What the parser makes of any other reference is a parameter.

* `twoEmpty_path_iff`: when a path without its dot segments begins with two slashes.
* `resolve_reference`: otherwise what is written out leads back to the same origin.
-/

namespace Url

open PyText

/-- Scheme, host and port of a page; no port is the default one. -/
structure Origin where
  scheme : Text
  host : Text
  port : Option Nat := none
  deriving DecidableEq

structure Resolved where
  origin : Origin
  path : List Text
  query : Option Text := none
  fragment : Option Text := none
  deriving DecidableEq

/-! ## Percent-encoding -/

def hexDigit (n : Nat) : Char := (Nat.digitChar n).toUpper

def percentByte (b : UInt8) : Text := ['%', hexDigit (b.toNat / 16), hexDigit (b.toNat % 16)]

/-- The characters of `encodeSet` are replaced by the bytes of their UTF-8 encoding. -/
def percentEncode (encodeSet : Char → Bool) (c : Char) : Text :=
  if encodeSet c then (String.utf8EncodeChar c).flatMap percentByte else [c]

def isControl (c : Char) : Bool := c.toNat < 0x20 || 0x7E < c.toNat

def fragmentSet (c : Char) : Bool := isControl c || c ∈ [' ', '"', '<', '>', '`']

def querySet (c : Char) : Bool := isControl c || c ∈ [' ', '"', '#', '<', '>', '\'']

def pathSet (c : Char) : Bool :=
  isControl c || c ∈ [' ', '"', '#', '<', '>', '?', '^', '`', '\x7b', '\x7d']

/-! ## The parser -/

def isSlash (c : Char) : Bool := c = '/' || c = '\\'

def isDoubleDot (s : Text) : Bool :=
  lower s ∈ (["..", ".%2e", "%2e.", "%2e%2e"] : List String).map String.toList

def isSingleDot (s : Text) : Bool :=
  lower s ∈ ([".", "%2e"] : List String).map String.toList

/-- A segment that a slash follows. -/
def addSegment (path : List Text) (s : Text) : List Text :=
  if isDoubleDot s then path.dropLast else if isSingleDot s then path else path ++ [s]

def addLast (path : List Text) (s : Text) : List Text :=
  if isDoubleDot s then path.dropLast ++ [[]]
  else if isSingleDot s then path ++ [[]]
  else path ++ [s]

def fragmentState (t : Text) : Text := t.flatMap (percentEncode fragmentSet)

def queryState (t : Text) : Text × Option Text :=
  ((t.takeWhile (· ≠ '#')).flatMap (percentEncode querySet),
    (t.dropWhile (· ≠ '#')).tail?.map fragmentState)

def pathState (origin : Origin) (path : List Text) (buffer : Text) : Text → Resolved
  | [] => { origin, path := addLast path buffer }
  | c :: rest =>
    if isSlash c then pathState origin (addSegment path buffer) [] rest
    else if c = '?' then
      { origin, path := addLast path buffer, query := some (queryState rest).1,
        fragment := (queryState rest).2 }
    else if c = '#' then
      { origin, path := addLast path buffer, fragment := some (fragmentState rest) }
    else pathState origin path (buffer ++ percentEncode pathSet c) rest

def isBlank (c : Char) : Bool := c.toNat ≤ 0x20

/-- Controls and spaces around the text, tabs and line breaks anywhere. -/
def clean (t : Text) : Text :=
  ((t.dropWhile isBlank).rdropWhile isBlank).filter fun c => c ∉ ['\t', '\n', '\r']

variable (elsewhere : Origin → Text → Option Resolved)

/-- `new URL(t, base)` for a page at `base`. -/
def resolve (base : Origin) (t : Text) : Option Resolved :=
  match clean t with
  | [] => elsewhere base []
  | c :: rest =>
    if c = '/' ∧ rest.head?.any isSlash = false then some (pathState base [] [] rest)
    else elsewhere base (c :: rest)

def Resolved.pathname (r : Resolved) : Text := r.path.flatMap ('/' :: ·)

/-- A part that is empty is left out together with its mark. -/
def marked (mark : Char) : Option Text → Text
  | none | some [] => []
  | some t => mark :: t

def Resolved.search (r : Resolved) : Text := marked '?' r.query

def Resolved.hash (r : Resolved) : Text := marked '#' r.fragment

/-! ## Segments -/

/-- The segments up to the query or the fragment. -/
def segments (buffer : Text) : Text → List Text
  | [] => [buffer]
  | c :: rest =>
    if isSlash c then buffer :: segments [] rest
    else if c = '?' ∨ c = '#' then [buffer]
    else segments (buffer ++ percentEncode pathSet c) rest

def normalize (path : List Text) : List Text → List Text
  | [] => path
  | [s] => addLast path s
  | s :: rest => normalize (addSegment path s) rest

theorem segments_ne_nil (buffer t : Text) : segments buffer t ≠ [] := by
  induction t generalizing buffer with
  | nil => exact List.cons_ne_nil _ _
  | cons c rest ih =>
    rw [segments]
    split
    · exact List.cons_ne_nil _ _
    · split
      · exact List.cons_ne_nil _ _
      · exact ih _

theorem normalize_cons {path : List Text} {s : Text} {rest : List Text} (h : rest ≠ []) :
    normalize path (s :: rest) = normalize (addSegment path s) rest := by
  cases rest with
  | nil => exact (h rfl).elim
  | cons => rfl

theorem pathState_path (origin : Origin) (path : List Text) (buffer t : Text) :
    (pathState origin path buffer t).path = normalize path (segments buffer t) := by
  induction t generalizing path buffer with
  | nil => rfl
  | cons c rest ih =>
    rw [pathState, segments]
    split
    · rw [ih, normalize_cons (segments_ne_nil [] rest)]
    · by_cases hQuery : c = '?'
      · rw [if_pos hQuery, if_pos (.inl hQuery)]
        rfl
      · rw [if_neg hQuery]
        by_cases hFragment : c = '#'
        · rw [if_pos hFragment, if_pos (.inr hFragment)]
          rfl
        · rw [if_neg hFragment, if_neg (by simp [hQuery, hFragment])]
          exact ih path _

theorem pathState_origin (origin : Origin) (path : List Text) (buffer t : Text) :
    (pathState origin path buffer t).origin = origin := by
  induction t generalizing path buffer with
  | nil => rfl
  | cons c rest ih =>
    rw [pathState]
    split
    · exact ih _ _
    · split
      · rfl
      · split
        · rfl
        · exact ih _ _

/-! ## An empty first segment -/

/-- How many segments are left of `h` and some more, a slash after each. -/
def depth (h : Nat) : List Text → Nat
  | [] => h
  | s :: rest => depth (if isDoubleDot s then h - 1 else if isSingleDot s then h else h + 1) rest

/-- No segment is removed but those that come in after the first `h`. -/
def StaysAbove (h : Nat) : List Text → Prop
  | [] => True
  | s :: rest =>
    if isDoubleDot s then 0 < h ∧ StaysAbove (h - 1) rest
    else if isSingleDot s then StaysAbove h rest
    else StaysAbove (h + 1) rest

/-- An empty segment where everything before is removed again, and which stays. -/
def BeginsEmpty (segs : List Text) : Prop :=
  ∃ front rest, segs = front ++ [] :: rest ∧ depth 0 front = 0 ∧ rest ≠ [] ∧ StaysAbove 0 rest

theorem length_addSegment (path : List Text) (s : Text) :
    (addSegment path s).length =
      if isDoubleDot s then path.length - 1 else if isSingleDot s then path.length
      else path.length + 1 := by
  unfold addSegment
  split
  · exact List.length_dropLast
  · split
    · rfl
    · exact List.length_append

theorem head?_dropLast {α : Type*} {l : List α} (h : 1 < l.length) : l.dropLast.head? = l.head? := by
  match l, h with
  | a :: b :: l, _ => rfl

/-- The first of two segments or more is empty. -/
def TwoEmpty (path : List Text) : Prop := path.head? = some [] ∧ 1 < path.length

theorem twoEmpty_addLast_iff (path : List Text) (s : Text) :
    TwoEmpty (addLast path s) ↔ path.head? = some [] ∧ StaysAbove (path.length - 1) [s] := by
  unfold TwoEmpty addLast StaysAbove
  cases path with
  | nil =>
    split
    · simp
    · split <;> simp
  | cons a path =>
    split
    · cases path with
      | nil => simp
      | cons b path => simp [StaysAbove]
    · split <;> simp [StaysAbove]

/-- What one more segment means for the first one. -/
theorem begins_addSegment_iff (path : List Text) (s : Text) (rest : List Text) :
    ((addSegment path s).head? = some [] ∧
        StaysAbove ((addSegment path s).length - 1) rest) ↔
      (path.head? = some [] ∧ StaysAbove (path.length - 1) (s :: rest)) ∨
        (path = [] ∧ s = [] ∧ StaysAbove 0 rest) := by
  rw [length_addSegment, StaysAbove, addSegment]
  split
  · rename_i hDouble
    have hSegment : s ≠ [] := by
      rintro rfl
      cases hDouble
    by_cases hLength : 1 < path.length
    · rw [head?_dropLast hLength]
      simp [hSegment]
      omega
    · have hHead : path.dropLast = [] := List.eq_nil_of_length_eq_zero (by
        rw [List.length_dropLast]
        omega)
      simp [hHead, hSegment]
      omega
  · split
    · rename_i hSingle
      have hSegment : s ≠ [] := by
        rintro rfl
        cases hSingle
      simp [hSegment]
    · cases path with
      | nil => simp
      | cons a path => simp

theorem twoEmpty_normalize_iff {segs : List Text} (hne : segs ≠ []) (path : List Text) :
    TwoEmpty (normalize path segs) ↔
      (path.head? = some [] ∧ StaysAbove (path.length - 1) segs) ∨
        ∃ front rest, segs = front ++ [] :: rest ∧ depth path.length front = 0 ∧ rest ≠ [] ∧
          StaysAbove 0 rest := by
  induction segs generalizing path with
  | nil => exact (hne rfl).elim
  | cons s rest ih =>
    by_cases hRest : rest = []
    · subst hRest
      rw [normalize, twoEmpty_addLast_iff, or_iff_left]
      rintro ⟨front, rest, hSplit, -, hRest, -⟩
      cases front with
      | nil =>
        rw [List.nil_append] at hSplit
        exact hRest (List.cons.inj hSplit).2.symm
      | cons a front =>
        have := congrArg List.length hSplit
        simp at this
    · rw [normalize_cons hRest, ih hRest, begins_addSegment_iff, length_addSegment, or_assoc]
      refine or_congr_right ⟨?_, ?_⟩
      · rintro (⟨hPath, hSegment, hStays⟩ | ⟨front, after, hSplit, hDepth, hAfter⟩)
        · exact ⟨[], rest, by rw [hSegment]; rfl, by rw [hPath]; rfl, hRest, hStays⟩
        · exact ⟨s :: front, after, by rw [hSplit]; rfl, hDepth, hAfter⟩
      · rintro ⟨front, after, hSplit, hDepth, hAfter, hStays⟩
        cases front with
        | nil =>
          obtain ⟨rfl, rfl⟩ := List.cons.inj hSplit
          exact .inl ⟨List.eq_nil_of_length_eq_zero hDepth, rfl, hStays⟩
        | cons a front =>
          obtain ⟨rfl, rfl⟩ := List.cons.inj hSplit
          exact .inr ⟨front, after, rfl, hDepth, hAfter, hStays⟩

/-- When the path of a reference begins with two slashes. -/
theorem twoEmpty_path_iff (origin : Origin) (t : Text) :
    TwoEmpty (pathState origin [] [] t).path ↔ BeginsEmpty (segments [] t) := by
  rw [pathState_path, twoEmpty_normalize_iff (segments_ne_nil [] t)]
  simp [BeginsEmpty]

/-! ## What is written out -/

def Resolved.reference (r : Resolved) : Text := r.pathname ++ r.search ++ r.hash

theorem hexDigit_visible : ∀ n < 16, 0x20 < (hexDigit n).toNat ∧ isSlash (hexDigit n) = false := by
  decide

/-- A character stays, or is written with percent signs and hexadecimal digits. -/
theorem mem_percentEncode {encodeSet : Char → Bool} {c d : Char}
    (h : c ∈ percentEncode encodeSet d) :
    c = d ∧ encodeSet d = false ∨ 0x20 < c.toNat ∧ isSlash c = false := by
  unfold percentEncode at h
  split at h
  · obtain ⟨b, -, hb⟩ := List.mem_flatMap.mp h
    simp only [percentByte, List.mem_cons, List.not_mem_nil, or_false] at hb
    have hByte := b.toNat_lt
    rcases hb with rfl | rfl | rfl
    · exact .inr (by decide)
    · exact .inr (hexDigit_visible _ (by omega))
    · exact .inr (hexDigit_visible _ (Nat.mod_lt _ (by decide)))
  · rename_i hPlain
    exact .inl ⟨List.mem_singleton.mp h, by simpa using hPlain⟩

theorem eq_space_of_toNat {c : Char} (h : c.toNat = 0x20) : c = ' ' := Char.toNat_inj.mp h

/-- The encode sets hold all controls and the space. -/
theorem visible_of_mem_percentEncode {encodeSet : Char → Bool}
    (hControl : ∀ c, isControl c = true → encodeSet c = true) (hSpace : encodeSet ' ' = true)
    {c d : Char} (h : c ∈ percentEncode encodeSet d) : 0x20 < c.toNat := by
  rcases mem_percentEncode h with ⟨rfl, hPlain⟩ | ⟨hVisible, -⟩
  · by_contra hBlank
    rcases Nat.lt_or_ge c.toNat 0x20 with hLess | hSame
    · rw [hControl c (by simp [isControl, hLess])] at hPlain
      cases hPlain
    · have hEq : c = ' ' := eq_space_of_toNat (by omega)
      rw [hEq, hSpace] at hPlain
      cases hPlain
  · exact hVisible

theorem visible_path {c d : Char} (h : c ∈ percentEncode pathSet d) : 0x20 < c.toNat :=
  visible_of_mem_percentEncode (fun c hc => by simp [pathSet, hc]) rfl h

theorem visible_query {c d : Char} (h : c ∈ percentEncode querySet d) : 0x20 < c.toNat :=
  visible_of_mem_percentEncode (fun c hc => by simp [querySet, hc]) rfl h

theorem visible_fragment {c d : Char} (h : c ∈ percentEncode fragmentSet d) : 0x20 < c.toNat :=
  visible_of_mem_percentEncode (fun c hc => by simp [fragmentSet, hc]) rfl h

/-- A segment as it stands in a path. -/
def IsSegment (s : Text) : Prop := ∀ c ∈ s, 0x20 < c.toNat ∧ isSlash c = false

theorem isSegment_nil : IsSegment [] := fun _ h => (List.not_mem_nil h).elim

theorem isSegment_of_mem_segments {buffer t : Text} (hBuffer : IsSegment buffer) {s : Text}
    (h : s ∈ segments buffer t) : IsSegment s := by
  induction t generalizing buffer with
  | nil =>
    rw [List.mem_singleton.mp h]
    exact hBuffer
  | cons c rest ih =>
    rw [segments] at h
    split at h
    · rcases List.mem_cons.mp h with rfl | h
      · exact hBuffer
      · exact ih isSegment_nil h
    · rename_i hSlash
      split at h
      · rw [List.mem_singleton.mp h]
        exact hBuffer
      · refine ih (fun d hd => ?_) h
        rcases List.mem_append.mp hd with hOld | hNew
        · exact hBuffer d hOld
        · refine ⟨visible_path hNew, ?_⟩
          rcases mem_percentEncode hNew with ⟨rfl, -⟩ | ⟨-, hNew⟩
          · simpa using hSlash
          · exact hNew

theorem isSegment_of_mem_addSegment {path : List Text} {s u : Text}
    (hPath : ∀ u ∈ path, IsSegment u) (hs : IsSegment s) (h : u ∈ addSegment path s) :
    IsSegment u := by
  unfold addSegment at h
  split at h
  · exact hPath u (List.mem_of_mem_dropLast h)
  · split at h
    · exact hPath u h
    · rcases List.mem_append.mp h with h | h
      · exact hPath u h
      · rw [List.mem_singleton.mp h]
        exact hs

theorem isSegment_of_mem_addLast {path : List Text} {s u : Text}
    (hPath : ∀ u ∈ path, IsSegment u) (hs : IsSegment s) (h : u ∈ addLast path s) :
    IsSegment u := by
  unfold addLast at h
  split at h
  · rcases List.mem_append.mp h with h | h
    · exact hPath u (List.mem_of_mem_dropLast h)
    · rw [List.mem_singleton.mp h]
      exact isSegment_nil
  · split at h <;> rcases List.mem_append.mp h with h | h
    · exact hPath u h
    · rw [List.mem_singleton.mp h]
      exact isSegment_nil
    · exact hPath u h
    · rw [List.mem_singleton.mp h]
      exact hs

theorem isSegment_of_mem_normalize {segs path : List Text} (hPath : ∀ u ∈ path, IsSegment u)
    (hSegs : ∀ s ∈ segs, IsSegment s) {u : Text} (h : u ∈ normalize path segs) : IsSegment u := by
  induction segs generalizing path with
  | nil => exact hPath u h
  | cons s rest ih =>
    obtain ⟨hs, hRest⟩ := List.forall_mem_cons.mp hSegs
    by_cases hNil : rest = []
    · subst hNil
      exact isSegment_of_mem_addLast hPath hs h
    · rw [normalize_cons hNil] at h
      exact ih (fun u hu => isSegment_of_mem_addSegment hPath hs hu) hRest h

theorem normalize_ne_nil {segs : List Text} (h : segs ≠ []) (path : List Text) :
    normalize path segs ≠ [] := by
  induction segs generalizing path with
  | nil => exact (h rfl).elim
  | cons s rest ih =>
    by_cases hNil : rest = []
    · subst hNil
      rw [normalize, addLast]
      split
      · simp
      · split <;> simp
    · rw [normalize_cons hNil]
      exact ih hNil _

theorem isSegment_of_mem_path {origin : Origin} {t u : Text}
    (h : u ∈ (pathState origin [] [] t).path) : IsSegment u := by
  rw [pathState_path] at h
  exact isSegment_of_mem_normalize (fun _ hu => (List.not_mem_nil hu).elim)
    (fun _ hs => isSegment_of_mem_segments isSegment_nil hs) h

theorem visible_fragmentState {t : Text} : ∀ c ∈ fragmentState t, 0x20 < c.toNat := by
  intro c hc
  obtain ⟨d, -, hd⟩ := List.mem_flatMap.mp hc
  exact visible_fragment hd

theorem visible_queryState {t : Text} : ∀ c ∈ (queryState t).1, 0x20 < c.toNat := by
  intro c hc
  obtain ⟨d, -, hd⟩ := List.mem_flatMap.mp hc
  exact visible_query hd

theorem visible_queryState_fragment {t u : Text} (h : (queryState t).2 = some u) :
    ∀ c ∈ u, 0x20 < c.toNat := by
  obtain ⟨v, -, rfl⟩ := Option.map_eq_some_iff.mp h
  exact visible_fragmentState

/-- Query and fragment have no controls and no spaces. -/
theorem visible_parts (origin : Origin) (path : List Text) (buffer t : Text) :
    (∀ q, (pathState origin path buffer t).query = some q → ∀ c ∈ q, 0x20 < c.toNat) ∧
      ∀ f, (pathState origin path buffer t).fragment = some f → ∀ c ∈ f, 0x20 < c.toNat := by
  induction t generalizing path buffer with
  | nil => exact ⟨fun _ h => (nomatch h), fun _ h => (nomatch h)⟩
  | cons c rest ih =>
    rw [pathState]
    split
    · exact ih _ _
    · split
      · refine ⟨?_, fun _ h => visible_queryState_fragment h⟩
        rintro _ ⟨⟩
        exact visible_queryState
      · split
        · refine ⟨fun _ h => (nomatch h), ?_⟩
          rintro _ ⟨⟩
          exact visible_fragmentState
        · exact ih _ _

theorem visible_marked {mark : Char} (hMark : 0x20 < mark.toNat) {part : Option Text}
    (h : ∀ t, part = some t → ∀ c ∈ t, 0x20 < c.toNat) : ∀ c ∈ marked mark part, 0x20 < c.toNat := by
  match part, h with
  | none, _ | some [], _ => exact fun _ hc => (List.not_mem_nil hc).elim
  | some (a :: t), h => exact List.forall_mem_cons.mpr ⟨hMark, h _ rfl⟩

theorem visible_reference (origin : Origin) (t : Text) :
    ∀ c ∈ (pathState origin [] [] t).reference, 0x20 < c.toNat := by
  obtain ⟨hQuery, hFragment⟩ := visible_parts origin [] [] t
  intro c hc
  rcases List.mem_append.mp hc with hc | hc
  · rcases List.mem_append.mp hc with hc | hc
    · obtain ⟨s, hs, hc⟩ := List.mem_flatMap.mp hc
      rcases List.mem_cons.mp hc with rfl | hc
      · decide
      · exact (isSegment_of_mem_path hs c hc).1
    · exact visible_marked (by decide) hQuery c hc
  · exact visible_marked (by decide) hFragment c hc

theorem clean_of_visible {t : Text} (h : ∀ c ∈ t, 0x20 < c.toNat) : clean t = t := by
  have hBlank : ∀ c ∈ t, isBlank c = false := fun c hc => by
    simpa [isBlank] using h c hc
  have hFront : t.dropWhile isBlank = t := by
    rw [List.dropWhile_eq_self_iff]
    intro hLength
    simp [hBlank _ (List.getElem_mem hLength)]
  have hBack : t.rdropWhile isBlank = t := by
    rw [List.rdropWhile_eq_self_iff]
    intro hne
    simp [hBlank _ (List.getLast_mem hne)]
  rw [clean, hFront, hBack, List.filter_eq_self]
  intro c hc
  have := h c hc
  simp only [List.mem_cons, List.not_mem_nil, or_false, decide_eq_true_eq]
  rintro (rfl | rfl | rfl) <;> revert this <;> decide

theorem isSlash_marked (mark : Char) (hMark : isSlash mark = false) (part : Option Text) :
    (marked mark part).head?.any isSlash = false := by
  match part with
  | none | some [] => rfl
  | some (_ :: _) => exact hMark

/-- What is written out begins with one slash, or with two where the path does. -/
theorem reference_eq_cons (origin : Origin) (t : Text) :
    ∃ rest, (pathState origin [] [] t).reference = '/' :: rest ∧
      (TwoEmpty (pathState origin [] [] t).path → rest.head? = some '/') ∧
      (¬TwoEmpty (pathState origin [] [] t).path → rest.head?.any isSlash = false) := by
  have hSegments : ∀ u ∈ (pathState origin [] [] t).path, IsSegment u :=
    fun _ hu => isSegment_of_mem_path hu
  have hPath : (pathState origin [] [] t).path ≠ [] := by
    rw [pathState_path]
    exact normalize_ne_nil (segments_ne_nil [] t) []
  rw [Resolved.reference, Resolved.pathname]
  match hEq : (pathState origin [] [] t).path, hSegments, hPath with
  | [] :: b :: path, _, _ => exact ⟨_, rfl, fun _ => rfl, fun h => (h ⟨rfl, by simp⟩).elim⟩
  | [[]], _, _ =>
    refine ⟨_, rfl, fun h => absurd h.2 (by simp), fun _ => ?_⟩
    have hSearch := isSlash_marked '?' rfl (pathState origin [] [] t).query
    have hHash := isSlash_marked '#' rfl (pathState origin [] [] t).fragment
    change ((pathState origin [] [] t).search ++ (pathState origin [] [] t).hash).head?.any _ = _
    rw [List.head?_append]
    cases hHead : (pathState origin [] [] t).search.head? with
    | none => exact hHash
    | some c =>
      rw [Resolved.search] at hHead
      rw [hHead] at hSearch
      exact hSearch
  | (c :: s) :: path, hSegments, _ =>
    refine ⟨_, rfl, fun h => ?_, fun _ => ?_⟩
    · cases h.1
    · exact (hSegments (c :: s) List.mem_cons_self c List.mem_cons_self).2

/-- What is written out for a reference is resolved at its origin unless it has two slashes. -/
theorem resolve_reference (elsewhere : Origin → Text → Option Resolved) (base origin : Origin)
    (t : Text) (h : ¬TwoEmpty (pathState origin [] [] t).path) :
    ∃ r, resolve elsewhere base (pathState origin [] [] t).reference = some r ∧
      r.origin = base := by
  obtain ⟨rest, hRest, -, hSlash⟩ := reference_eq_cons origin t
  rw [resolve, clean_of_visible (visible_reference origin t), hRest]
  dsimp only
  rw [if_pos ⟨rfl, hSlash h⟩]
  exact ⟨_, rfl, pathState_origin base [] [] rest⟩

end Url

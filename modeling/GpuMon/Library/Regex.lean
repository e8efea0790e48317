import GpuMon.Library.PyText

/-!
# Backtracking regular expressions

The matcher of Python's `re`, for expressions whose repetitions run over single characters.
A cursor is a place in the text with the groups captured so far; `go` lists the ends of all
matches from a cursor in the order in which the backtracking matcher tries them, so that the
head of the list is the match it reports.

* `mem_go_seq`, `mem_go_alt`, ..: which ends there are, one lemma a constructor.
* `Takes`: the language of an expression without captures; `fullmatch?_between`: what is captured
  between a head and a tail.
* `First`: the match that is reported, composed along the expression.
* `exists_of_search`: a search that succeeds has found a match at some place of the text.
-/

open PyText

inductive Regex
  | eps
  | chr (p : Char → Bool)
  | seq (a b : Regex)
  | alt (a b : Regex)
  | opt (a : Regex)
  | rep (p : Char → Bool) (low : Nat) (high : Option Nat) (greedy : Bool)
  | group (n : Nat) (a : Regex)
  | bol
  | eol
  | wordBoundary (isWord : Char → Bool)

namespace Regex

/-- A place in the text: what is before it (reversed), what is after it, the groups so far. -/
structure Cursor where
  before : Text
  after : Text
  groups : List (Nat × Text) := []
  deriving DecidableEq

namespace Cursor

def start (t : Text) : Cursor := { before := [], after := t }

def advance (c : Cursor) (k : Nat) : Cursor :=
  { c with before := (c.after.take k).reverse ++ c.before, after := c.after.drop k }

theorem advance_after (c : Cursor) (k : Nat) : (c.advance k).after = c.after.drop k := rfl

/-- `m.group(n)`: the last capture counts. -/
def group? (c : Cursor) (n : Nat) : Option Text :=
  (c.groups.find? fun g => g.1 = n).map Prod.snd

end Cursor

/-- How many characters a repetition can take at a place. -/
def runLength (p : Char → Bool) (high : Option Nat) (t : Text) : Nat :=
  match high with
  | none => (t.takeWhile p).length
  | some h => min h (t.takeWhile p).length

/-- The lengths from `low` to `n`, in the order a repetition tries them. -/
def repLengths (low n : Nat) (greedy : Bool) : List Nat :=
  let lengths := List.range' low (n + 1 - low)
  if greedy then lengths.reverse else lengths

def go : Regex → Cursor → List Cursor
  | eps, c => [c]
  | chr p, c => match c.after with
    | [] => []
    | x :: _ => if p x then [c.advance 1] else []
  | seq a b, c => (go a c).flatMap (go b)
  | alt a b, c => go a c ++ go b c
  | opt a, c => go a c ++ [c]
  | rep p low high greedy, c =>
    (repLengths low (runLength p high c.after) greedy).map c.advance
  | group n a, c => (go a c).map fun e =>
      { e with groups := (n, c.after.take (c.after.length - e.after.length)) :: e.groups }
  | bol, c => if c.before = [] then [c] else []
  | eol, c => if c.after = [] ∨ c.after = ['\n'] then [c] else []
  | wordBoundary isWord, c =>
    if (c.before.head?.any isWord) ≠ (c.after.head?.any isWord) then [c] else []

/-! ## Expressions -/

/-- A literal. -/
def lit (t : Text) : Regex := t.foldr (fun ch r => seq (chr fun x => x = ch) r) eps

/-- The characters that match an ASCII character regardless of case. -/
def sameIgnoringCase (ch x : Char) : Bool :=
  x = ch || x = ch.toLower || x = ch.toUpper ||
    (ch.toLower = 'i' && (x.toNat = 0x130 || x.toNat = 0x131)) ||
    (ch.toLower = 'k' && x.toNat = 0x212a) || (ch.toLower = 's' && x.toNat = 0x17f)

/-- A literal under `re.I`. -/
def litI (t : Text) : Regex := t.foldr (fun ch r => seq (chr (sameIgnoringCase ch)) r) eps

/-- One of several literals, under `re.I`. -/
def anyOfI : List Text → Regex
  | [] => chr fun _ => false
  | [t] => litI t
  | t :: rest => alt (litI t) (anyOfI rest)

/-- `.`. -/
def anyChar (x : Char) : Bool := x ≠ '\n'

def star (p : Char → Bool) : Regex := rep p 0 none true

def starLazy (p : Char → Bool) : Regex := rep p 0 none false

def plus (p : Char → Bool) : Regex := rep p 1 none true

def times (n : Nat) (p : Char → Bool) : Regex := rep p n (some n) true

/-- One expression after another. -/
def all : List Regex → Regex
  | [] => eps
  | [r] => r
  | r :: rest => seq r (all rest)

/-- `^head(..)tail$`. -/
def between (head : Text) (a : Regex) (tail : Text) : Regex :=
  all [bol, lit head, group 1 a, lit tail, eol]

/-! ## Matching -/

/-- `r.match(t)`. -/
def match? (r : Regex) (t : Text) : Option Cursor := (go r (Cursor.start t)).head?

/-- `r.fullmatch(t)`. -/
def fullmatch? (r : Regex) (t : Text) : Option Cursor :=
  (go r (Cursor.start t)).find? fun e => e.after.isEmpty

/-- `r.search`, from a place on: where the match begins and ends. -/
def searchFrom (r : Regex) : Text → Text → Option (Cursor × Cursor)
  | before, [] => (go r ⟨before, [], []⟩).head?.map fun e => (⟨before, [], []⟩, e)
  | before, x :: after => match (go r ⟨before, x :: after, []⟩).head? with
    | some e => some (⟨before, x :: after, []⟩, e)
    | none => searchFrom r (x :: before) after

/-- `r.search(t)`. -/
def search (r : Regex) (t : Text) : Option Cursor := (searchFrom r [] t).map Prod.snd

/-- `r.findall(t)` for an expression without groups that matches no empty text. -/
def findallFrom (r : Regex) : Nat → Text → Text → List Text
  | 0, _, _ => []
  | fuel + 1, before, after => match searchFrom r before after with
    | none => []
    | some (s, e) =>
      s.after.take (s.after.length - e.after.length) :: findallFrom r fuel e.before e.after

def findall (r : Regex) (t : Text) : List Text := findallFrom r (t.length + 1) [] t

/-! ## Ends of matches -/

section Ends

variable {a b : Regex} {c e : Cursor}

@[simp] theorem mem_go_eps : e ∈ go eps c ↔ e = c := List.mem_singleton

theorem mem_go_chr {p : Char → Bool} :
    e ∈ go (chr p) c ↔ ∃ x rest, c.after = x :: rest ∧ p x = true ∧ e = c.advance 1 := by
  unfold go
  split
  · rename_i hNil
    simp [hNil]
  · rename_i x rest hCons
    split
    · rename_i hp
      constructor
      · intro he
        exact ⟨x, rest, hCons, hp, List.mem_singleton.mp he⟩
      · rintro ⟨-, -, -, -, rfl⟩
        exact List.mem_singleton_self _
    · rename_i hp
      simp only [List.not_mem_nil, false_iff]
      rintro ⟨y, rest', hCons', hy, -⟩
      rw [hCons] at hCons'
      cases hCons'
      exact hp hy

@[simp] theorem mem_go_seq : e ∈ go (seq a b) c ↔ ∃ m ∈ go a c, e ∈ go b m := List.mem_flatMap

@[simp] theorem mem_go_alt : e ∈ go (alt a b) c ↔ e ∈ go a c ∨ e ∈ go b c := List.mem_append

@[simp] theorem mem_go_opt : e ∈ go (opt a) c ↔ e ∈ go a c ∨ e = c := by
  simp [go]

theorem mem_repLengths {low n k : Nat} {greedy : Bool} :
    k ∈ repLengths low n greedy ↔ low ≤ k ∧ k ≤ n := by
  unfold repLengths
  dsimp only
  split <;> simp only [List.mem_reverse, List.mem_range'_1] <;> omega

theorem mem_go_rep {p : Char → Bool} {low : Nat} {high : Option Nat} {greedy : Bool} :
    e ∈ go (rep p low high greedy) c ↔
      ∃ k, low ≤ k ∧ k ≤ runLength p high c.after ∧ e = c.advance k := by
  simp only [go, List.mem_map, mem_repLengths]
  constructor
  · rintro ⟨k, ⟨hLow, hHigh⟩, rfl⟩
    exact ⟨k, hLow, hHigh, rfl⟩
  · rintro ⟨k, hLow, hHigh, rfl⟩
    exact ⟨k, ⟨hLow, hHigh⟩, rfl⟩

theorem mem_go_group {n : Nat} : e ∈ go (group n a) c ↔ ∃ m ∈ go a c,
    e = { m with groups := (n, c.after.take (c.after.length - m.after.length)) :: m.groups } := by
  simp only [go, List.mem_map, eq_comm]

theorem mem_go_bol : e ∈ go bol c ↔ c.before = [] ∧ e = c := by
  unfold go
  split <;> simp_all

/-- A literal that matches is there. -/
theorem mem_go_lit {t : Text} : e ∈ go (lit t) c ↔ t <+: c.after ∧ e = c.advance t.length := by
  induction t generalizing c with
  | nil => simp [lit, Cursor.advance]
  | cons ch t ih =>
    have hStep : e ∈ go (lit (ch :: t)) c ↔ ∃ m ∈ go (chr fun x => x = ch) c, e ∈ go (lit t) m :=
      mem_go_seq
    rw [hStep]
    constructor
    · rintro ⟨m, hm, he⟩
      obtain ⟨x, rest, hCons, hx, rfl⟩ := mem_go_chr.mp hm
      obtain ⟨hPrefix, rfl⟩ := ih.mp he
      have hx : x = ch := of_decide_eq_true hx
      subst hx
      have hRest : t <+: rest := by simpa [Cursor.advance, hCons] using hPrefix
      refine ⟨by rw [hCons]; exact List.cons_prefix_cons.mpr ⟨rfl, hRest⟩, ?_⟩
      simp [Cursor.advance, hCons]
    · rintro ⟨⟨rest, hEq⟩, rfl⟩
      refine ⟨c.advance 1, mem_go_chr.mpr ⟨ch, t ++ rest, hEq.symm, by simp, rfl⟩, ?_⟩
      rw [ih]
      constructor
      · simp [Cursor.advance, ← hEq]
      · simp [Cursor.advance, ← hEq]

end Ends

/-! ## What an expression takes from the text -/

theorem Cursor.advance_advance (c : Cursor) (m n : Nat) :
    (c.advance m).advance n = c.advance (m + n) := by
  simp [Cursor.advance, List.take_add, List.drop_drop]

/-- From every place the expression takes a text of the language, and captures nothing. -/
def Takes (r : Regex) (language : Text → Prop) : Prop :=
  ∀ c e, e ∈ go r c ↔ ∃ t, language t ∧ t <+: c.after ∧ e = c.advance t.length

theorem takes_lit (s : Text) : Takes (lit s) fun t => t = s := by
  intro c e
  rw [mem_go_lit]
  simp only [exists_eq_left]

theorem takes_times (n : Nat) (p : Char → Bool) :
    Takes (times n p) fun t => t.length = n ∧ ∀ x ∈ t, p x = true := by
  intro c e
  rw [times, mem_go_rep]
  constructor
  · rintro ⟨k, hLow, hHigh, rfl⟩
    have hRun : k ≤ (c.after.takeWhile p).length := hHigh.trans (Nat.min_le_right n _)
    obtain rfl : k = n := le_antisymm (hHigh.trans (Nat.min_le_left n _)) hLow
    have hLength : (c.after.take k).length = k := by
      rw [List.length_take, min_eq_left]
      exact hRun.trans (List.takeWhile_prefix p).length_le
    refine ⟨c.after.take k, ⟨hLength, fun x hx => ?_⟩, List.take_prefix k c.after, by rw [hLength]⟩
    have hPrefix : c.after.take k <+: c.after.takeWhile p :=
      List.prefix_of_prefix_length_le (List.take_prefix k c.after) (List.takeWhile_prefix p)
        (hLength.trans_le hRun)
    exact List.mem_takeWhile_imp (hPrefix.subset hx)
  · rintro ⟨t, ⟨rfl, ht⟩, ⟨rest, hRest⟩, rfl⟩
    refine ⟨t.length, le_rfl, le_min le_rfl ?_, rfl⟩
    rw [← hRest, List.takeWhile_append_of_pos ht, List.length_append]
    exact Nat.le_add_right _ _

theorem Takes.seq {a b : Regex} {P Q : Text → Prop} (ha : Takes a P) (hb : Takes b Q) :
    Takes (.seq a b) fun t => ∃ s u, t = s ++ u ∧ P s ∧ Q u := by
  intro c e
  rw [mem_go_seq]
  constructor
  · rintro ⟨m, hm, he⟩
    obtain ⟨s, hs, ⟨rest, hRest⟩, rfl⟩ := (ha c m).mp hm
    obtain ⟨u, hu, hPrefix, rfl⟩ := (hb _ e).mp he
    rw [Cursor.advance_after, ← hRest, List.drop_left] at hPrefix
    refine ⟨s ++ u, ⟨s, u, rfl, hs, hu⟩, ?_, ?_⟩
    · rw [← hRest]
      exact (List.prefix_append_right_inj s).mpr hPrefix
    · rw [Cursor.advance_advance, List.length_append]
  · rintro ⟨t, ⟨s, u, rfl, hs, hu⟩, ⟨rest, hRest⟩, rfl⟩
    refine ⟨c.advance s.length, (ha c _).mpr ⟨s, hs, ?_, rfl⟩, (hb _ _).mpr ⟨u, hu, ?_, ?_⟩⟩
    · rw [← hRest, List.append_assoc]
      exact List.prefix_append s _
    · rw [Cursor.advance_after, ← hRest, List.append_assoc, List.drop_left]
      exact List.prefix_append u rest
    · rw [Cursor.advance_advance, List.length_append]

theorem of_fullmatch? {r : Regex} {t : Text} {e : Cursor} (h : fullmatch? r t = some e) :
    e ∈ go r (Cursor.start t) ∧ e.after = [] := by
  have hEnd : e.after.isEmpty = true :=
    List.find?_some (p := fun m : Cursor => m.after.isEmpty) h
  exact ⟨List.mem_of_find?_eq_some h, List.isEmpty_iff.mp hEnd⟩

theorem mem_go_eol {c e : Cursor} : e ∈ go eol c ↔ (c.after = [] ∨ c.after = ['\n']) ∧ e = c := by
  unfold go
  split <;> simp_all

/-- What stands between the head and the tail of a text that matches is captured. -/
theorem group?_of_between {head tail t : Text} {a : Regex} {P : Text → Prop} (ha : Takes a P)
    {e : Cursor} (he : e ∈ go (between head a tail) (Cursor.start t)) (hEnd : e.after = []) :
    ∃ s, e.group? 1 = some s ∧ t = head ++ s ++ tail ∧ P s := by
  simp only [between, all, mem_go_seq, mem_go_bol, mem_go_group, mem_go_lit, mem_go_eol] at he
  obtain ⟨_, ⟨-, rfl⟩, _, ⟨hHead, rfl⟩, _, ⟨m, hm, rfl⟩, _, ⟨hTail, rfl⟩, -, rfl⟩ := he
  obtain ⟨s, hs, hPrefix, rfl⟩ := (ha _ m).mp hm
  obtain ⟨rest, hRest⟩ := hHead
  obtain ⟨more, hMore⟩ := hPrefix
  obtain ⟨last, hLast⟩ := hTail
  have hStart : t = head ++ rest := hRest.symm
  subst hStart
  simp only [Cursor.advance, Cursor.start, List.drop_left] at hMore hLast hEnd ⊢
  subst hMore
  simp only [List.drop_left] at hLast hEnd
  subst hLast
  rw [List.drop_left] at hEnd
  subst hEnd
  refine ⟨s, ?_, by simp, hs⟩
  simp [Cursor.group?]

theorem exists_mem_go_between {s : Text} {a : Regex} {P : Text → Prop} (ha : Takes a P) (hs : P s)
    (head tail : Text) :
    ∃ e ∈ go (between head a tail) (Cursor.start (head ++ s ++ tail)), e.after = [] := by
  let c := (Cursor.start (head ++ s ++ tail)).advance head.length
  have hRest : c.after = s ++ tail := by simp [c, Cursor.advance, Cursor.start]
  have hMiddle : (c.advance s.length).after = tail := by
    rw [Cursor.advance_after, hRest, List.drop_left]
  let m : Cursor := { c.advance s.length with
    groups := (1, c.after.take (c.after.length - (c.advance s.length).after.length)) ::
      (c.advance s.length).groups }
  have hEnd : (m.advance tail.length).after = [] := by
    rw [Cursor.advance_after]
    exact List.drop_eq_nil_of_le (by rw [← hMiddle])
  refine ⟨m.advance tail.length, ?_, hEnd⟩
  simp only [between, all, mem_go_seq, mem_go_bol, mem_go_group, mem_go_lit, mem_go_eol]
  refine ⟨_, ⟨rfl, rfl⟩, c, ⟨?_, rfl⟩, m, ⟨c.advance s.length, ?_, rfl⟩, _, ⟨?_, rfl⟩, .inl hEnd, rfl⟩
  · rw [Cursor.start, List.append_assoc]
    exact List.prefix_append head _
  · exact (ha c _).mpr ⟨s, hs, hRest ▸ List.prefix_append s tail, rfl⟩
  · exact hMiddle ▸ List.prefix_refl _

/-- The text between is captured just when the whole text matches around it. -/
theorem fullmatch?_between {head tail t s : Text} {a : Regex} {P : Text → Prop} (ha : Takes a P) :
    (fullmatch? (between head a tail) t).bind (fun m => m.group? 1) = some s ↔
      t = head ++ s ++ tail ∧ P s := by
  constructor
  · intro h
    obtain ⟨e, hFind, hGroup⟩ := Option.bind_eq_some_iff.mp h
    obtain ⟨hMem, hEnd⟩ := of_fullmatch? hFind
    obtain ⟨s', hs', hText, hP⟩ := group?_of_between ha hMem hEnd
    rw [hGroup] at hs'
    cases hs'
    exact ⟨hText, hP⟩
  · rintro ⟨rfl, hP⟩
    obtain ⟨e, he, hEnd⟩ := exists_mem_go_between ha hP head tail
    cases hFind : fullmatch? (between head a tail) (head ++ s ++ tail) with
    | none =>
      exact (List.find?_eq_none.mp hFind e he (List.isEmpty_iff.mpr hEnd)).elim
    | some e' =>
      obtain ⟨hMem, hAfter⟩ := of_fullmatch? hFind
      obtain ⟨s', hs', hText, -⟩ := group?_of_between ha hMem hAfter
      rw [Option.bind_some, hs']
      exact congrArg some (List.append_cancel_left (List.append_cancel_right hText)).symm

/-! ## The first match -/

/-- The match that the matcher reports ends at `e`. -/
def First (r : Regex) (c e : Cursor) : Prop := (go r c).head? = some e

theorem repLengths_greedy {low n : Nat} (h : low ≤ n) :
    ∃ rest, repLengths low n true = n :: rest := by
  obtain ⟨d, rfl⟩ := Nat.exists_eq_add_of_le h
  refine ⟨(List.range' low d).reverse, ?_⟩
  have hLen : low + d + 1 - low = d + 1 := by omega
  simp only [repLengths, if_true, hLen, List.range'_concat, List.reverse_append]
  simp

theorem takeWhile_append_of_forall {p : Char → Bool} {t rest : Text} (ht : ∀ x ∈ t, p x = true)
    (hRest : ∀ x ∈ rest.head?, p x = false) : (t ++ rest).takeWhile p = t := by
  rw [List.takeWhile_append_of_pos ht]
  cases rest with
  | nil => rw [List.takeWhile_nil, List.append_nil]
  | cons x rest => rw [List.takeWhile_cons, if_neg (by simp [hRest x rfl]), List.append_nil]

namespace First

variable {a b : Regex} {c m e : Cursor} {t rest before : Text} {groups groups' : List (Nat × Text)}

theorem match? (h : First a (Cursor.start t) e) : Regex.match? a t = some e := h

theorem seq (ha : First a c m) (hb : First b m e) : First (.seq a b) c e := by
  obtain ⟨ms, hms⟩ := List.head?_eq_some_iff.mp ha
  obtain ⟨es, hes⟩ := List.head?_eq_some_iff.mp hb
  rw [First, go, hms, List.flatMap_cons, hes]
  rfl

theorem bol : First .bol ⟨[], t, groups⟩ ⟨[], t, groups⟩ := rfl

theorem eol : First .eol ⟨before, [], groups⟩ ⟨before, [], groups⟩ := rfl

theorem lit (t : Text) :
    First (lit t) ⟨before, t ++ rest, groups⟩ ⟨t.reverse ++ before, rest, groups⟩ := by
  induction t generalizing before with
  | nil => rfl
  | cons ch t ih =>
    have hChr : First (.chr fun x => x = ch) ⟨before, ch :: (t ++ rest), groups⟩
        ⟨ch :: before, t ++ rest, groups⟩ := by
      simp [First, go, Cursor.advance]
    have hTail := hChr.seq ih
    rw [List.reverse_cons, List.append_assoc]
    exact hTail

/-- A greedy repetition takes all the characters it can. -/
theorem rep {p : Char → Bool} {low : Nat} (hLow : low ≤ t.length) (ht : ∀ x ∈ t, p x = true)
    (hRest : ∀ x ∈ rest.head?, p x = false) :
    First (.rep p low none true) ⟨before, t ++ rest, groups⟩
      ⟨t.reverse ++ before, rest, groups⟩ := by
  obtain ⟨ks, hks⟩ := repLengths_greedy hLow
  simp only [First, go, runLength, takeWhile_append_of_forall ht hRest, hks, List.map_cons,
    List.head?_cons, Cursor.advance, List.take_left, List.drop_left]

/-- A group captures what its expression has taken. -/
theorem group {n : Nat} {text before' : Text} (hText : text = t ++ rest)
    (ha : First a ⟨before, text, groups⟩ ⟨before', rest, groups'⟩) :
    First (.group n a) ⟨before, text, groups⟩ ⟨before', rest, (n, t) :: groups'⟩ := by
  have hLength : text.length - rest.length = t.length := by simp [hText]
  rw [First] at ha
  rw [First, go, List.head?_map, ha, Option.map_some, hLength, hText, List.take_left]

end First

/-- A match of the head of a sequence that is never empty-handed. -/
theorem match?_eq_none {r : Regex} {t : Text} (h : ∀ e, e ∉ go r (Cursor.start t)) :
    match? r t = none := by
  rw [match?, List.eq_nil_iff_forall_not_mem.mpr h]
  rfl

theorem searchFrom_mem {r : Regex} {before after : Text} {s e : Cursor}
    (h : searchFrom r before after = some (s, e)) : s.after <:+ after ∧ e ∈ go r s := by
  induction after generalizing before with
  | nil =>
    unfold searchFrom at h
    obtain ⟨e', he', hEq⟩ := Option.map_eq_some_iff.mp h
    cases hEq
    exact ⟨List.suffix_refl _, List.mem_of_head? he'⟩
  | cons x after ih =>
    unfold searchFrom at h
    split at h
    · rename_i e' he'
      cases h
      exact ⟨List.suffix_refl _, List.mem_of_head? he'⟩
    · obtain ⟨hSuffix, hMem⟩ := ih h
      exact ⟨hSuffix.trans (List.suffix_cons x after), hMem⟩

/-- A search that succeeds has found a match at some place of the text. -/
theorem exists_of_search {r : Regex} {t : Text} {e : Cursor} (h : search r t = some e) :
    ∃ s : Cursor, s.after <:+ t ∧ e ∈ go r s := by
  obtain ⟨⟨s, e'⟩, hFrom, rfl⟩ := Option.map_eq_some_iff.mp h
  exact ⟨s, searchFrom_mem hFrom⟩

/-! ## Where a search matches -/

/-- `e` ends the match at the first place of a text that has one, between `a` and `b`. -/
structure Leftmost (r : Regex) (t a b : Text) (e : Cursor) : Prop where
  split : t = a ++ b
  first : First r ⟨a.reverse, b, []⟩ e
  earliest : ∀ a' b', t = a' ++ b' → a'.length < a.length → go r ⟨a'.reverse, b', []⟩ = []

section Search

variable {r : Regex} {t before after : Text} {s e : Cursor}

theorem searchFrom_eq_none (h : searchFrom r before after = none) {a b : Text}
    (hSplit : after = a ++ b) : go r ⟨a.reverse ++ before, b, []⟩ = [] := by
  induction after generalizing before a with
  | nil =>
    obtain ⟨rfl, rfl⟩ := List.append_eq_nil_iff.mp hSplit.symm
    exact List.head?_eq_none_iff.mp (Option.map_eq_none_iff.mp h)
  | cons x after ih =>
    unfold searchFrom at h
    split at h
    · cases h
    · rename_i hHere
      cases a with
      | nil =>
        rw [List.nil_append] at hSplit
        exact hSplit ▸ List.head?_eq_none_iff.mp hHere
      | cons y a =>
        obtain ⟨rfl, hRest⟩ := List.cons.inj hSplit
        rw [List.reverse_cons, List.append_assoc]
        exact ih h hRest

theorem searchFrom_eq_some (h : searchFrom r before after = some (s, e)) : ∃ a b,
    after = a ++ b ∧ First r ⟨a.reverse ++ before, b, []⟩ e ∧
      ∀ a' b', after = a' ++ b' → a'.length < a.length →
        go r ⟨a'.reverse ++ before, b', []⟩ = [] := by
  induction after generalizing before with
  | nil =>
    obtain ⟨e', he', hEq⟩ := Option.map_eq_some_iff.mp h
    cases hEq
    exact ⟨[], [], rfl, he', fun a' b' _ hLt => absurd hLt (Nat.not_lt_zero _)⟩
  | cons x after ih =>
    unfold searchFrom at h
    split at h
    · rename_i e' he'
      cases h
      exact ⟨[], x :: after, rfl, he', fun a' b' _ hLt => absurd hLt (Nat.not_lt_zero _)⟩
    · rename_i hHere
      obtain ⟨a, b, rfl, hFirst, hEarliest⟩ := ih h
      refine ⟨x :: a, b, rfl, ?_, ?_⟩
      · rw [List.reverse_cons, List.append_assoc]
        exact hFirst
      · intro a' b' hSplit hLt
        cases a' with
        | nil =>
          rw [List.nil_append] at hSplit
          exact hSplit ▸ List.head?_eq_none_iff.mp hHere
        | cons y a' =>
          obtain ⟨rfl, hRest⟩ := List.cons.inj hSplit
          rw [List.reverse_cons, List.append_assoc]
          exact hEarliest a' b' hRest (Nat.lt_of_succ_lt_succ hLt)

theorem leftmost_of_search (h : search r t = some e) : ∃ a b, Leftmost r t a b e := by
  obtain ⟨⟨s, e'⟩, hFrom, rfl⟩ := Option.map_eq_some_iff.mp h
  obtain ⟨a, b, hSplit, hFirst, hEarliest⟩ := searchFrom_eq_some hFrom
  rw [List.append_nil] at hFirst
  simp only [List.append_nil] at hEarliest
  exact ⟨a, b, hSplit, hFirst, hEarliest⟩

theorem go_eq_nil_of_search (h : search r t = none) {a b : Text} (hSplit : t = a ++ b) :
    go r ⟨a.reverse, b, []⟩ = [] := by
  rw [← List.append_nil a.reverse]
  exact searchFrom_eq_none (Option.map_eq_none_iff.mp h) hSplit

/-- A search succeeds exactly when there is a match at some place. -/
theorem search_isSome_iff :
    (search r t).isSome ↔ ∃ a b, t = a ++ b ∧ go r ⟨a.reverse, b, []⟩ ≠ [] := by
  constructor
  · intro h
    obtain ⟨e, he⟩ := Option.isSome_iff_exists.mp h
    obtain ⟨a, b, hLeft⟩ := leftmost_of_search he
    exact ⟨a, b, hLeft.split, List.ne_nil_of_mem (List.mem_of_head? hLeft.first)⟩
  · rintro ⟨a, b, hSplit, hNe⟩
    rw [Option.isSome_iff_ne_none]
    exact fun hNone => hNe (go_eq_nil_of_search hNone hSplit)

theorem go_seq_ne_nil_iff {a b : Regex} {c : Cursor} :
    go (seq a b) c ≠ [] ↔ ∃ m ∈ go a c, go b m ≠ [] := by
  simp [go]

theorem go_group_ne_nil_iff {n : Nat} {c : Cursor} : go (group n r) c ≠ [] ↔ go r c ≠ [] := by
  simp [go]

theorem go_opt_ne_nil (c : Cursor) : go (opt r) c ≠ [] := by
  simp [go]

theorem go_plus_ne_nil_iff {p : Char → Bool} {c : Cursor} :
    go (plus p) c ≠ [] ↔ ∃ x rest, c.after = x :: rest ∧ p x = true := by
  have hMem : go (plus p) c ≠ [] ↔ 1 ≤ (c.after.takeWhile p).length := by
    rw [plus, go, ne_eq, List.map_eq_nil_iff, List.eq_nil_iff_forall_not_mem]
    push Not
    simp only [mem_repLengths, runLength]
    exact ⟨fun ⟨k, hLow, hHigh⟩ => hLow.trans hHigh, fun h => ⟨1, le_refl 1, h⟩⟩
  rw [hMem]
  cases c.after with
  | nil => simp
  | cons x rest => by_cases hx : p x = true <;> simp [hx]

theorem go_starLazy_ne_nil {p : Char → Bool} (c : Cursor) : go (starLazy p) c ≠ [] := by
  refine List.ne_nil_of_mem (a := c.advance 0) ?_
  rw [starLazy, mem_go_rep]
  exact ⟨0, le_refl 0, Nat.zero_le _, rfl⟩

/-- A literal that matches regardless of case is there, in some case. -/
theorem mem_go_litI {c : Cursor} : e ∈ go (litI t) c ↔ ∃ h rest, c.after = h ++ rest ∧
    List.Forall₂ (fun ch x => sameIgnoringCase ch x = true) t h ∧ e = c.advance t.length := by
  induction t generalizing c with
  | nil =>
    simp only [litI, List.foldr_nil, mem_go_eps, List.forall₂_nil_left_iff, List.length_nil]
    constructor
    · rintro rfl
      exact ⟨[], e.after, rfl, rfl, rfl⟩
    · rintro ⟨h, rest, -, -, rfl⟩
      rfl
  | cons ch t ih =>
    have hStep : e ∈ go (litI (ch :: t)) c ↔
        ∃ m ∈ go (chr (sameIgnoringCase ch)) c, e ∈ go (litI t) m := mem_go_seq
    rw [hStep]
    constructor
    · rintro ⟨m, hm, he⟩
      obtain ⟨x, rest, hCons, hx, rfl⟩ := mem_go_chr.mp hm
      obtain ⟨h, rest', hSplit, hSame, rfl⟩ := ih.mp he
      rw [Cursor.advance_after, hCons, List.drop_one, List.tail_cons] at hSplit
      refine ⟨x :: h, rest', by rw [hCons, hSplit]; rfl, .cons hx hSame, ?_⟩
      simp [Cursor.advance, hCons]
    · rintro ⟨h, rest, hSplit, hSame, rfl⟩
      obtain ⟨x, h', hx, hSame', rfl⟩ := List.forall₂_cons_left_iff.mp hSame
      rw [List.cons_append] at hSplit
      refine ⟨c.advance 1, mem_go_chr.mpr ⟨x, h' ++ rest, hSplit, hx, rfl⟩, ih.mpr ?_⟩
      refine ⟨h', rest, ?_, hSame', ?_⟩
      · rw [Cursor.advance_after, hSplit, List.drop_one, List.tail_cons]
      · simp [Cursor.advance, hSplit]

end Search

/-! ## Texts of a given shape -/

/-- Somewhere in the text stand characters that satisfy the tests, one after another. -/
def Occurs (tests : List (Char → Bool)) (t : Text) : Prop :=
  ∃ a h b, t = a ++ h ++ b ∧ List.Forall₂ (fun p c => p c = true) tests h

theorem exists_test {tests : List (Char → Bool)} {h : Text} {c : Char}
    (hTests : List.Forall₂ (fun p c => p c = true) tests h) (hc : c ∈ h) :
    ∃ p ∈ tests, p c = true := by
  induction hTests with
  | nil => cases hc
  | cons hHead _ ih =>
    rcases List.mem_cons.mp hc with rfl | hc
    · exact ⟨_, List.mem_cons_self, hHead⟩
    · obtain ⟨p, hp, hTest⟩ := ih hc
      exact ⟨p, List.mem_cons_of_mem _ hp, hTest⟩

theorem forall₂_concat_iff {tests : List (Char → Bool)} {p : Char → Bool} {h : Text} :
    List.Forall₂ (fun p c => p c = true) (tests ++ [p]) h ↔ ∃ front c, h = front ++ [c] ∧
      List.Forall₂ (fun p c => p c = true) tests front ∧ p c = true := by
  induction tests generalizing h with
  | nil =>
    simp only [List.nil_append, List.forall₂_cons_left_iff, List.forall₂_nil_left_iff]
    constructor
    · rintro ⟨c, rest, hc, rfl, rfl⟩
      exact ⟨[], c, rfl, rfl, hc⟩
    · rintro ⟨front, c, rfl, rfl, hc⟩
      exact ⟨c, [], hc, rfl, rfl⟩
  | cons q tests ih =>
    simp only [List.cons_append, List.forall₂_cons_left_iff, ih]
    constructor
    · rintro ⟨d, rest, hd, ⟨front, c, rfl, hFront, hc⟩, rfl⟩
      exact ⟨d :: front, c, rfl, ⟨d, front, hd, hFront, rfl⟩, hc⟩
    · rintro ⟨_, c, rfl, ⟨d, front, hd, hFront, rfl⟩, hc⟩
      exact ⟨d, front ++ [c], hd, ⟨front, c, rfl, hFront, hc⟩, rfl⟩

namespace Occurs

variable {tests : List (Char → Bool)} {p : Char → Bool} {a b t : Text} {c : Char}

theorem append_left (h : Occurs tests b) : Occurs tests (a ++ b) := by
  obtain ⟨x, y, z, rfl, hTests⟩ := h
  exact ⟨a ++ x, y, z, by simp, hTests⟩

theorem append_right (h : Occurs tests a) : Occurs tests (a ++ b) := by
  obtain ⟨x, y, z, rfl, hTests⟩ := h
  exact ⟨x, y, z ++ b, by simp, hTests⟩

theorem not_nil : ¬ Occurs (p :: tests) [] := by
  rintro ⟨x, y, z, hEq, hTests⟩
  have hNil : y = [] := by simp_all
  rw [hNil] at hTests
  cases hTests

theorem none_of_any {α : Type*} {l : List α} {f : α → Bool} (h : l.any f = false) :
    ∀ c ∈ l, f c = false := fun c hc => by
  simpa using List.any_eq_false.mp h c hc

/-- Characters that the first test refuses come before it. -/
theorem skip_left (h : ∀ c ∈ a, p c = false) :
    Occurs (p :: tests) (a ++ b) ↔ Occurs (p :: tests) b := by
  refine ⟨?_, append_left⟩
  induction a with
  | nil => exact id
  | cons c a ih =>
    rintro ⟨x, y, z, hEq, hTests⟩
    cases x with
    | nil =>
      obtain ⟨d, y', hd, -, rfl⟩ := List.forall₂_cons_left_iff.mp hTests
      rw [List.nil_append, List.cons_append, List.cons_append] at hEq
      rw [← (List.cons.inj hEq).1, h c List.mem_cons_self] at hd
      cases hd
    | cons d x =>
      refine ih (fun c hc => h c (List.mem_cons_of_mem _ hc)) ⟨x, y, z, ?_, hTests⟩
      exact (List.cons.inj hEq).2

/-- Characters that the last test refuses come after it. -/
theorem skip_right (h : ∀ c ∈ b, p c = false) :
    Occurs (tests ++ [p]) (a ++ b) ↔ Occurs (tests ++ [p]) a := by
  refine ⟨?_, append_right⟩
  induction b using List.reverseRecOn with
  | nil => rw [List.append_nil]; exact id
  | append_singleton b c ih =>
    rintro ⟨x, y, z, hEq, hTests⟩
    refine ih (fun c hc => h c (List.mem_append_left _ hc)) ?_
    rw [← List.append_assoc] at hEq
    cases z using List.reverseRecOn with
    | nil =>
      obtain ⟨y', d, rfl, -, hd⟩ := forall₂_concat_iff.mp hTests
      rw [List.append_nil, ← List.append_assoc] at hEq
      have hSame := (List.append_inj' hEq rfl).2
      rw [← List.singleton_inj.mp hSame, h c (by simp)] at hd
      cases hd
    | append_singleton z d =>
      rw [← List.append_assoc] at hEq
      exact ⟨x, y, z, (List.append_inj' hEq rfl).1, hTests⟩

/-- A character that every test refuses keeps what is before it and after it apart. -/
theorem append_cons_iff (h : ∀ p ∈ tests, p c = false) :
    Occurs tests (a ++ c :: b) ↔ Occurs tests a ∨ Occurs tests b := by
  constructor
  · rintro ⟨x, y, z, hEq, hTests⟩
    have hNotMem : c ∉ y := by
      intro hc
      obtain ⟨p, hp, hTest⟩ := exists_test hTests hc
      rw [h p hp] at hTest
      cases hTest
    rcases List.append_eq_append_iff.mp hEq with ⟨w, hFront, hBack⟩ | ⟨w, rfl, rfl⟩
    · cases w with
      | nil =>
        rw [List.append_nil] at hFront
        exact .inl ⟨x, y, [], by rw [List.append_nil, hFront], hTests⟩
      | cons d w =>
        obtain ⟨rfl, rfl⟩ := List.cons.inj hBack
        rcases List.append_eq_append_iff.mp hFront with ⟨v, -, rfl⟩ | ⟨v, -, hv⟩
        · exact absurd (List.mem_append_right v List.mem_cons_self) hNotMem
        · cases v with
          | nil =>
            rw [List.nil_append] at hv
            exact absurd (hv ▸ List.mem_cons_self) hNotMem
          | cons e v => exact .inr ⟨v, y, z, by rw [(List.cons.inj hv).2]; rfl, hTests⟩
    · exact .inl ⟨x, y, w, rfl, hTests⟩
  · rintro (hLeft | hRight)
    · exact hLeft.append_right
    · rw [List.append_cons]
      exact hRight.append_left

end Occurs

end Regex

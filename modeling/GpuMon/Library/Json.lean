import GpuMon.Library.PyText

/-!
# JSON texts

A text is read in three steps: its string literals are found, what is outside of them is cut into
words and punctuation, and an automaton with a stack checks the order of the tokens. The contents
of the literals, kept as they are written, play no part after the first step.

* `tokens_erase`, `accepts_erase`: the contents of string literals do not matter.
* `no_double_brace`: two opening braces never stand side by side outside of the literals.
* `IsJson.replace`: so placeholders can be replaced by escaped text.
-/

namespace Json

/-! ## String literals -/

/-- A character outside of the string literals, or a literal with its content. -/
inductive Symbol
  | outside (c : Char)
  | string (content : Text)
  deriving DecidableEq

/-- Where the scan is; `hex` is followed by some more digits of a `\u` escape. -/
inductive Scan
  | outside
  | inString (content : Text)
  | escape (content : Text)
  | hex (content : Text) (left : Nat)

def isControl (c : Char) : Bool := c.toNat < 0x20

def isEscape (c : Char) : Bool := c ∈ ['"', '\\', '/', 'b', 'f', 'n', 'r', 't']

def isHexDigit (c : Char) : Bool :=
  ('0' ≤ c && c ≤ '9') || ('a' ≤ c && c ≤ 'f') || ('A' ≤ c && c ≤ 'F')

/-- What one character ends, and where the scan goes on. -/
def scanStep : Scan → Char → Option (List Symbol × Scan)
  | .outside, c => if c = '"' then some ([], .inString []) else some ([.outside c], .outside)
  | .inString s, c =>
    if c = '"' then some ([.string s], .outside)
    else if c = '\\' then some ([], .escape (s ++ [c]))
    else if isControl c then none
    else some ([], .inString (s ++ [c]))
  | .escape s, c =>
    if isEscape c then some ([], .inString (s ++ [c]))
    else if c = 'u' then some ([], .hex (s ++ [c]) 4)
    else none
  | .hex s left, c =>
    if isHexDigit c then
      some ([], if left ≤ 1 then .inString (s ++ [c]) else .hex (s ++ [c]) (left - 1))
    else none

/-- The symbols of a text; a literal that is not closed makes it invalid. -/
def scan : Scan → Text → Option (List Symbol)
  | .outside, [] => some []
  | _, [] => none
  | q, c :: t => (scanStep q c).bind fun (front, next) => (scan next t).map (front ++ ·)

/-! ## Tokens -/

inductive Token
  | punct (c : Char)
  | scalar (word : Text)
  | string (content : Text)
  deriving DecidableEq

def isBlank (c : Char) : Bool := c = ' ' || c = '\t' || c = '\n' || c = '\r'

def isPunct (c : Char) : Bool := c ∈ ['{', '}', '[', ']', ':', ',']

/-- Some digits, and what follows them. -/
def digits? (t : Text) : Option Text :=
  if t.head?.any Char.isDigit then some (t.dropWhile Char.isDigit) else none

def fraction? : Text → Option Text
  | '.' :: t => digits? t
  | t => some t

def exponent? : Text → Option Text
  | 'e' :: '+' :: t | 'E' :: '+' :: t | 'e' :: '-' :: t | 'E' :: '-' :: t => digits? t
  | 'e' :: t | 'E' :: t => digits? t
  | t => some t

/-- A sign, an integer without leading zeros, a fraction and an exponent. -/
def isNumber (t : Text) : Bool :=
  let t := if t.head? = some '-' then t.drop 1 else t
  let whole := if t.head? = some '0' then some (t.drop 1) else digits? t
  (whole.bind fraction?).bind exponent? = some []

def isScalar (word : Text) : Bool :=
  word = "true" || word = "false" || word = "null" || isNumber word

/-- Puts the word that ends here before the tokens that follow. -/
def flush (word : Text) (rest : Option (List Token)) : Option (List Token) :=
  if word = [] then rest
  else if isScalar word then rest.map (.scalar word :: ·)
  else none

def tokens (word : Text) : List Symbol → Option (List Token)
  | [] => flush word (some [])
  | .string s :: rest => flush word ((tokens [] rest).map (.string s :: ·))
  | .outside c :: rest =>
    if isBlank c then flush word (tokens [] rest)
    else if isPunct c then flush word ((tokens [] rest).map (.punct c :: ·))
    else tokens (word ++ [c]) rest

/-- The tokens of a text. -/
def lex (t : Text) : Option (List Token) := (scan .outside t).bind (tokens [])

/-! ## The grammar -/

inductive Container
  | object
  | array
  deriving DecidableEq

/-- What may come next. -/
inductive Mode
  | value
  | firstItem
  | firstKey
  | key
  | colon
  | after
  deriving DecidableEq

def stepValue (stack : List Container) : Token → Option (Mode × List Container)
  | .punct '{' => some (.firstKey, .object :: stack)
  | .punct '[' => some (.firstItem, .array :: stack)
  | .punct _ => none
  | .scalar _ => some (.after, stack)
  | .string _ => some (.after, stack)

/-- One token, with the containers that are open. -/
def step : Mode × List Container → Token → Option (Mode × List Container)
  | (.firstItem, .array :: stack), .punct ']' => some (.after, stack)
  | (.firstItem, stack), t => stepValue stack t
  | (.value, stack), t => stepValue stack t
  | (.firstKey, .object :: stack), .punct '}' => some (.after, stack)
  | (.firstKey, stack), .string _ => some (.colon, stack)
  | (.key, stack), .string _ => some (.colon, stack)
  | (.colon, stack), .punct ':' => some (.value, stack)
  | (.after, .object :: stack), .punct ',' => some (.key, .object :: stack)
  | (.after, .array :: stack), .punct ',' => some (.value, .array :: stack)
  | (.after, .object :: stack), .punct '}' => some (.after, stack)
  | (.after, .array :: stack), .punct ']' => some (.after, stack)
  | _, _ => none

/-- The tokens make up one value. -/
def accepts (ts : List Token) : Bool := ts.foldlM step (.value, []) = some (.after, [])

def IsJson (t : Text) : Prop := ∃ ts, lex t = some ts ∧ accepts ts

instance (t : Text) : Decidable (IsJson t) :=
  decidable_of_iff ((lex t).any accepts) (by
    cases h : lex t <;> simp [IsJson, h])

example : IsJson "\x7b\"a\": [1, -0.5e+2, \"x\\\"y\"], \"b\": \x7b\x7d\x7d" ∧ ¬IsJson "\x7b\"a\" 01\x7d" ∧
    ¬IsJson "[1,]" ∧ ¬IsJson "\x7b\x7blevel\x7d\x7d" := by decide +kernel

/-! ## Contents do not matter -/

def Symbol.erase : Symbol → Symbol
  | .outside c => .outside c
  | .string _ => .string []

def Token.erase : Token → Token
  | .string _ => .string []
  | t => t

theorem flush_map (word : Text) (rest : Option (List Token)) :
    flush word (rest.map (List.map Token.erase)) = (flush word rest).map (List.map Token.erase) := by
  unfold flush
  split
  · rfl
  · split
    · cases rest <;> rfl
    · rfl

theorem tokens_erase (word : Text) (symbols : List Symbol) :
    tokens word (symbols.map Symbol.erase) =
      (tokens word symbols).map (List.map Token.erase) := by
  induction symbols generalizing word with
  | nil => exact flush_map word (some [])
  | cons a symbols ih =>
    cases a with
    | string s =>
      simp only [List.map_cons, Symbol.erase, tokens, ih, ← flush_map]
      cases tokens [] symbols <;> rfl
    | outside c =>
      simp only [List.map_cons, Symbol.erase, tokens, ih]
      split
      · rw [flush_map]
      · split
        · rw [← flush_map]
          cases tokens [] symbols <;> rfl
        · rfl

theorem step_erase (state : Mode × List Container) (t : Token) :
    step state t.erase = step state t := by
  cases t with
  | string s =>
    obtain ⟨mode, stack⟩ := state
    cases mode <;> rcases stack with _ | ⟨_ | _, stack⟩ <;> rfl
  | _ => rfl

theorem accepts_erase (ts : List Token) : accepts (ts.map Token.erase) = accepts ts := by
  unfold accepts
  simp only [List.foldlM_map, step_erase]

/-! ## Braces -/

theorem step_brace {state state' : Mode × List Container}
    (h : step state (.punct '{') = some state') : step state' (.punct '{') = none := by
  obtain ⟨mode, stack⟩ := state
  cases mode <;> rcases stack with _ | ⟨_ | _, stack⟩ <;> simp only [step, stepValue] at h <;>
    cases h <;> rfl

/-- An object does not begin with another object. -/
theorem not_accepts_of_braces {front rest : List Token} :
    accepts (front ++ .punct '{' :: .punct '{' :: rest) = false := by
  have hNone : (front ++ .punct '{' :: .punct '{' :: rest).foldlM step (.value, []) = none := by
    rw [List.foldlM_append]
    cases front.foldlM step (.value, []) with
    | none => rfl
    | some state =>
      rw [Option.bind_eq_bind, Option.bind_some, List.foldlM_cons]
      cases hStep : step state (.punct '{') with
      | none => rfl
      | some state' =>
        rw [Option.bind_eq_bind, Option.bind_some, List.foldlM_cons, step_brace hStep]
        rfl
  simp [accepts, hNone]

theorem flush_eq_some {word : Text} {rest : Option (List Token)} {ts : List Token}
    (h : flush word rest = some ts) : ∃ front ts', rest = some ts' ∧ ts = front ++ ts' := by
  unfold flush at h
  split at h
  · exact ⟨[], ts, h, rfl⟩
  · split at h
    · obtain ⟨ts', hRest, rfl⟩ := Option.map_eq_some_iff.mp h
      exact ⟨[.scalar word], ts', hRest, rfl⟩
    · cases h

/-- The tokens of a text end with those of what comes after its first symbol. -/
theorem exists_tokens_tail {a : Symbol} {symbols : List Symbol} {word : Text} {ts : List Token}
    (h : tokens word (a :: symbols) = some ts) :
    ∃ word' front ts', tokens word' symbols = some ts' ∧ ts = front ++ ts' := by
  cases a with
  | string s =>
    obtain ⟨front, _, hRest, rfl⟩ := flush_eq_some h
    obtain ⟨ts', hTail, rfl⟩ := Option.map_eq_some_iff.mp hRest
    exact ⟨[], front ++ [.string s], ts', hTail, by simp⟩
  | outside c =>
    rw [tokens] at h
    split at h
    · obtain ⟨front, ts', hTail, rfl⟩ := flush_eq_some h
      exact ⟨[], front, ts', hTail, rfl⟩
    · split at h
      · obtain ⟨front, _, hRest, rfl⟩ := flush_eq_some h
        obtain ⟨ts', hTail, rfl⟩ := Option.map_eq_some_iff.mp hRest
        exact ⟨[], front ++ [.punct c], ts', hTail, by simp⟩
      · exact ⟨_, [], ts, h, rfl⟩

theorem tokens_brace {rest : List Symbol} {word : Text} {ts : List Token}
    (h : tokens word (.outside '{' :: rest) = some ts) :
    ∃ front ts', tokens [] rest = some ts' ∧ ts = front ++ .punct '{' :: ts' := by
  have hFlush : flush word ((tokens [] rest).map (.punct '{' :: ·)) = some ts := h
  obtain ⟨front, _, hRest, rfl⟩ := flush_eq_some hFlush
  obtain ⟨ts', hTail, rfl⟩ := Option.map_eq_some_iff.mp hRest
  exact ⟨front, ts', hTail, rfl⟩

/-- Two braces side by side outside of the literals are two tokens side by side. -/
theorem tokens_braces {front rest : List Symbol} {word : Text} {ts : List Token}
    (h : tokens word (front ++ .outside '{' :: .outside '{' :: rest) = some ts) :
    ∃ front' rest', ts = front' ++ .punct '{' :: .punct '{' :: rest' := by
  induction front generalizing word ts with
  | nil =>
    obtain ⟨front', ts', hTail, rfl⟩ := tokens_brace h
    obtain ⟨tsEnd, hEnd, rfl⟩ : ∃ tsEnd, tokens [] rest = some tsEnd ∧ ts' = .punct '{' :: tsEnd := by
      obtain ⟨tsEnd, hEnd, hEq⟩ := Option.map_eq_some_iff.mp hTail
      exact ⟨tsEnd, hEnd, hEq.symm⟩
    exact ⟨front', tsEnd, rfl⟩
  | cons a front ih =>
    obtain ⟨word', before, ts', hTail, rfl⟩ := exists_tokens_tail h
    obtain ⟨front', rest', rfl⟩ := ih hTail
    exact ⟨before ++ front', rest', by simp⟩

/-- In a JSON text two opening braces never stand side by side outside of the literals. -/
theorem no_double_brace {t : Text} (h : IsJson t) {symbols : List Symbol}
    (hScan : scan .outside t = some symbols) :
    ¬[Symbol.outside '{', .outside '{'] <:+: symbols := by
  rintro ⟨front, rest, rfl⟩
  obtain ⟨ts, hLex, hAccepts⟩ := h
  rw [lex, hScan, Option.bind_some, List.append_assoc] at hLex
  obtain ⟨front', rest', rfl⟩ := tokens_braces hLex
  rw [not_accepts_of_braces] at hAccepts
  cases hAccepts

/-! ## Replacing inside literals -/

/-- Inside a literal the text stands for itself, up to the end of it. -/
def IsContent (u : Text) : Prop :=
  ∀ s t, scan (.inString s) (u ++ t) = scan (.inString (s ++ u)) t

theorem isContent_nil : IsContent [] := fun s t => by simp

theorem IsContent.append {u v : Text} (hu : IsContent u) (hv : IsContent v) :
    IsContent (u ++ v) := fun s t => by
  rw [List.append_assoc, hu, hv, List.append_assoc]

theorem scan_cons_of_step {q next : Scan} {c : Char} (h : scanStep q c = some ([], next))
    (t : Text) : scan q (c :: t) = scan next t := by
  rw [scan, h, Option.bind_some]
  exact Option.map_id'

/-- A character that needs no escape. -/
def isPlain (c : Char) : Bool := c ≠ '"' && c ≠ '\\' && !isControl c

theorem isContent_of_plain {u : Text} (h : ∀ c ∈ u, isPlain c) : IsContent u := by
  induction u with
  | nil => exact isContent_nil
  | cons c u ih =>
    obtain ⟨hc, hu⟩ := List.forall_mem_cons.mp h
    simp only [isPlain, Bool.and_eq_true, decide_eq_true_eq, Bool.not_eq_true'] at hc
    have hChar : IsContent [c] := fun s t => by
      refine scan_cons_of_step ?_ t
      rw [scanStep, if_neg hc.1.1, if_neg hc.1.2, if_neg (by simp [hc.2])]
    exact hChar.append (ih hu)

def Scan.erase : Scan → Scan
  | .outside => .outside
  | .inString _ => .inString []
  | .escape _ => .escape []
  | .hex _ left => .hex [] left

/-- A character does the same whatever the content of the literal was so far. -/
theorem scanStep_erase {q q' : Scan} (hSame : q.erase = q'.erase) {c : Char}
    {front : List Symbol} {next : Scan} (h : scanStep q c = some (front, next)) :
    ∃ front' next', scanStep q' c = some (front', next') ∧
      front'.map Symbol.erase = front.map Symbol.erase ∧ next.erase = next'.erase := by
  cases q <;> cases q' <;> cases hSame
  · exact ⟨front, next, h, rfl, rfl⟩
  · rename_i s s'
    simp only [scanStep] at h ⊢
    split_ifs at h ⊢ <;> cases h <;> exact ⟨_, _, rfl, rfl, rfl⟩
  · rename_i s s'
    simp only [scanStep] at h ⊢
    split_ifs at h ⊢ <;> cases h <;> exact ⟨_, _, rfl, rfl, rfl⟩
  · rename_i s left s'
    simp only [scanStep] at h ⊢
    split_ifs at h ⊢ <;> cases h <;> exact ⟨_, _, rfl, rfl, rfl⟩

/-- Where the braces of the placeholder `{{` can stand in a text: in a literal, or outside. -/
theorem scan_braces {q : Scan} {t : Text} {symbols : List Symbol}
    (h : scan q ('{' :: '{' :: t) = some symbols) :
    (∃ s, q = .inString s) ∨ ∃ rest, symbols = .outside '{' :: .outside '{' :: rest := by
  cases q with
  | outside =>
    right
    obtain ⟨tail, hTail, rfl⟩ := Option.map_eq_some_iff.mp h
    obtain ⟨rest, -, rfl⟩ := Option.map_eq_some_iff.mp hTail
    exact ⟨rest, rfl⟩
  | inString s => exact .inl ⟨s, rfl⟩
  | escape s => simp [scan, scanStep, isEscape] at h
  | hex s left => simp [scan, scanStep, isHexDigit] at h

/-- Placeholders are replaced by contents: the text has the same symbols, up to the contents. -/
theorem scan_replace {name new : Text} (hName : ∀ c ∈ name, isPlain c) (hNew : IsContent new)
    (t : Text) {q q' : Scan} (hSame : q.erase = q'.erase) {symbols : List Symbol}
    (h : scan q t = some symbols)
    (hBraces : ¬[Symbol.outside '{', .outside '{'] <:+: symbols) :
    ∃ symbols', scan q' (PyText.replace ('{' :: '{' :: name) new t) = some symbols' ∧
      symbols'.map Symbol.erase = symbols.map Symbol.erase := by
  have hOld : IsContent ('{' :: '{' :: name) :=
    isContent_of_plain (List.forall_mem_cons.mpr ⟨by decide, List.forall_mem_cons.mpr ⟨by decide, hName⟩⟩)
  induction hLength : t.length using Nat.strong_induction_on generalizing t q q' symbols with
  | _ n ih =>
    subst hLength
    by_cases hMatch : '{' :: '{' :: name <+: t
    · obtain ⟨rest, rfl⟩ := hMatch
      rw [PyText.replace_append (List.cons_ne_nil _ _)]
      rcases scan_braces h with ⟨s, rfl⟩ | ⟨rest, rfl⟩
      · obtain ⟨s', rfl⟩ : ∃ s', q' = .inString s' := by
          cases q' <;> cases hSame
          exact ⟨_, rfl⟩
        rw [hOld] at h
        rw [hNew]
        have hState : Scan.erase (.inString (s ++ '{' :: '{' :: name)) =
            Scan.erase (.inString (s' ++ new)) := rfl
        exact ih rest.length (by simp; omega) rest hState h hBraces rfl
      · exact absurd ⟨[], rest, rfl⟩ hBraces
    · cases t with
      | nil =>
        cases q <;> cases q' <;> cases hSame <;> cases h
        exact ⟨[], rfl, rfl⟩
      | cons c t =>
        rw [PyText.replace_cons hMatch]
        simp only [scan] at h
        obtain ⟨⟨front, next⟩, hStep, hMap⟩ := Option.bind_eq_some_iff.mp h
        obtain ⟨rest, hRest, rfl⟩ := Option.map_eq_some_iff.mp hMap
        obtain ⟨front', next', hStep', hFront, hNext⟩ := scanStep_erase hSame hStep
        obtain ⟨rest', hRest', hErase⟩ := ih t.length (by simp) t hNext hRest
          (fun hInfix => hBraces (hInfix.trans (List.suffix_append front rest).isInfix)) rfl
        refine ⟨front' ++ rest', ?_, by rw [List.map_append, List.map_append, hFront, hErase]⟩
        simp only [scan, hStep', Option.bind_some, hRest', Option.map_some]

/-- Two texts with the same tokens, up to the contents of string literals. -/
def SameTokens (t t' : Text) : Prop :=
  (lex t).map (List.map Token.erase) = (lex t').map (List.map Token.erase)

theorem IsJson.of_sameTokens {t t' : Text} (h : IsJson t) (hSame : SameTokens t t') : IsJson t' := by
  obtain ⟨ts, hLex, hAccepts⟩ := h
  rw [SameTokens, hLex] at hSame
  obtain ⟨ts', hLex', hErase⟩ := Option.map_eq_some_iff.mp hSame.symm
  refine ⟨ts', hLex', ?_⟩
  rw [← accepts_erase, hErase, accepts_erase]
  exact hAccepts

/-- Replacing a placeholder by the content of a literal keeps the tokens. -/
theorem IsJson.replace {t name new : Text} (h : IsJson t) (hName : ∀ c ∈ name, isPlain c)
    (hNew : IsContent new) : SameTokens t (PyText.replace ('{' :: '{' :: name) new t) := by
  obtain ⟨ts, hLex, -⟩ := id h
  obtain ⟨symbols, hScan, hTokens⟩ := Option.bind_eq_some_iff.mp hLex
  obtain ⟨symbols', hScan', hErase⟩ :=
    scan_replace hName hNew t rfl hScan (no_double_brace h hScan)
  rw [SameTokens, lex, lex, hScan, hScan', Option.bind_some, Option.bind_some, ← tokens_erase,
    ← tokens_erase, hErase]

end Json

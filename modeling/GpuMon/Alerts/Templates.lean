import GpuMon.Library.Json

/-!
# Webhook templates (`notifier._render`)

A template is a JSON text with placeholders. They are replaced one after another, also in what
was put in for earlier ones, by values that are escaped like the content of a JSON string.

* `isContent_jsonEscape`: an escaped value is the content of a string literal.
* `render_keeps_tokens`: a rendered template has the tokens of the template.
-/

namespace GpuMon.Templates

open PyText Json

/-- The escape of a character in `json.dumps(…, ensure_ascii=False)`. -/
def escapeChar (c : Char) : Text :=
  if c = '"' then "\\\""
  else if c = '\\' then "\\\\"
  else if c = '\n' then "\\n"
  else if c = '\r' then "\\r"
  else if c = '\t' then "\\t"
  else if c = '\x0c' then "\\f"
  else if c = '\x08' then "\\b"
  else if c.toNat < 0x20 then
    "\\u00".toList ++ [Nat.digitChar (c.toNat / 16), Nat.digitChar (c.toNat % 16)]
  else [c]

/-- `json.dumps(value, ensure_ascii=False)[1:-1]`. -/
def jsonEscape (value : Text) : Text := value.flatMap escapeChar

def placeholder (key : Text) : Text := ['{', '{'] ++ key ++ ['}', '}']

/-- `_render` on the items of its dictionary, each with `str(value)`. -/
def render (template : Text) (ctx : List (Text × Text)) : Text :=
  ctx.foldl (fun out item => replace (placeholder item.1) (jsonEscape item.2) out) template

/-- The values of `notify_alert` and `notify_recovery`, as texts. -/
structure Context where
  level : Text
  serverName : Text
  metric : Text
  value : Text
  op : Text
  threshold : Text
  ruleName : Text
  time : Text

def Context.items (c : Context) : List (Text × Text) :=
  [("level", c.level), ("server_name", c.serverName), ("metric", c.metric), ("value", c.value),
    ("op", c.op), ("threshold", c.threshold), ("rule_name", c.ruleName), ("time", c.time)]

/-! ## Escaped values -/

/-- A backslash with one of the short escapes. -/
theorem isContent_short {c : Char} (h : isEscape c) : IsContent ['\\', c] := fun s t => by
  have hBackslash : scanStep (.inString s) '\\' = some ([], .escape (s ++ ['\\'])) := rfl
  have hEscape : scanStep (.escape (s ++ ['\\'])) c = some ([], .inString (s ++ ['\\', c])) := by
    simp [scanStep, h]
  exact (scan_cons_of_step hBackslash _).trans (scan_cons_of_step hEscape t)

theorem scan_hexDigit {c : Char} (h : isHexDigit c) (s : Text) (left : Nat) (t : Text) :
    scan (.hex s (left + 2)) (c :: t) = scan (.hex (s ++ [c]) (left + 1)) t := by
  refine scan_cons_of_step ?_ t
  simp [scanStep, h]

/-- `\\u` with four digits. -/
theorem isContent_unicode {a b c d : Char} (ha : isHexDigit a) (hb : isHexDigit b)
    (hc : isHexDigit c) (hd : isHexDigit d) : IsContent ['\\', 'u', a, b, c, d] := fun s t => by
  have hBackslash : scanStep (.inString s) '\\' = some ([], .escape (s ++ ['\\'])) := rfl
  have hUnicode : scanStep (.escape (s ++ ['\\'])) 'u' =
      some ([], .hex (s ++ ['\\'] ++ ['u']) 4) := rfl
  have hLast : ∀ s', scan (.hex s' 1) (d :: t) = scan (.inString (s' ++ [d])) t := fun s' => by
    refine scan_cons_of_step ?_ t
    simp [scanStep, hd]
  simp only [List.cons_append, List.nil_append]
  rw [scan_cons_of_step hBackslash, scan_cons_of_step hUnicode, scan_hexDigit ha, scan_hexDigit hb,
    scan_hexDigit hc, hLast]
  simp

theorem isHexDigit_digitChar : ∀ n < 16, isHexDigit (Nat.digitChar n) := by decide

theorem isContent_escapeChar (c : Char) : IsContent (escapeChar c) := by
  unfold escapeChar
  split_ifs with hQuote hBackslash hNewline hReturn hTab hFeed hBack hControl
  all_goals try exact isContent_short (by decide)
  · have hHigh : c.toNat / 16 < 16 := by omega
    have hLow : c.toNat % 16 < 16 := by omega
    exact isContent_unicode (by decide) (by decide) (isHexDigit_digitChar _ hHigh)
      (isHexDigit_digitChar _ hLow)
  · refine isContent_of_plain (List.forall_mem_singleton.mpr ?_)
    simp [isPlain, isControl, hQuote, hBackslash, hControl]

/-- An escaped value is the content of a string literal. -/
theorem isContent_jsonEscape (value : Text) : IsContent (jsonEscape value) := by
  induction value with
  | nil => exact isContent_nil
  | cons c value ih =>
    rw [jsonEscape, List.flatMap_cons]
    exact (isContent_escapeChar c).append ih

/-! ## Rendering -/

def contextKeys : List Text :=
  ["level", "server_name", "metric", "value", "op", "threshold", "rule_name", "time"]

theorem keys_items (c : Context) : c.items.map Prod.fst = contextKeys := rfl

/-- The names of the placeholders need no escape. -/
theorem isPlain_of_mem_items {c : Context} : ∀ item ∈ c.items, ∀ a ∈ item.1, isPlain a := by
  have hAll : contextKeys.all (fun k => k.all isPlain) = true := by decide
  intro item hItem
  have hKey : item.1 ∈ contextKeys := keys_items c ▸ List.mem_map_of_mem hItem
  exact List.all_eq_true.mp (List.all_eq_true.mp hAll item.1 hKey)

/-- One value after another, the tokens stay. -/
theorem sameTokens_render (ctx : List (Text × Text)) (hNames : ∀ item ∈ ctx, ∀ a ∈ item.1, isPlain a)
    {template : Text} (h : IsJson template) : SameTokens template (render template ctx) := by
  induction ctx generalizing template with
  | nil => rfl
  | cons item ctx ih =>
    obtain ⟨hItem, hRest⟩ := List.forall_mem_cons.mp hNames
    have hStep : SameTokens template (replace (placeholder item.1) (jsonEscape item.2) template) := by
      have hName : ∀ a ∈ item.1 ++ ['}', '}'], isPlain a := by
        intro a ha
        rcases List.mem_append.mp ha with hKey | hBrace
        · exact hItem a hKey
        · fin_cases hBrace <;> decide
      exact h.replace hName (isContent_jsonEscape item.2)
    exact hStep.trans (ih hRest (h.of_sameTokens hStep))

/-- A rendered template is valid JSON with the tokens of the template, up to the contents of its
string literals. -/
theorem render_keeps_tokens (template : Text) (c : Context) (h : IsJson template) :
    ∃ ts ts', lex template = some ts ∧ lex (render template c.items) = some ts' ∧
      IsJson (render template c.items) ∧ ts'.map Token.erase = ts.map Token.erase := by
  have hSame := sameTokens_render c.items isPlain_of_mem_items h
  have hJson := h.of_sameTokens hSame
  obtain ⟨ts, hLex, -⟩ := h
  obtain ⟨ts', hLex', -⟩ := id hJson
  refine ⟨ts, ts', hLex, hLex', hJson, ?_⟩
  rw [SameTokens, hLex, hLex'] at hSame
  exact (Option.some.inj hSame).symm

/-- Values with quotes and backslashes, one of which completes a later placeholder. -/
def hostileContext : Context where
  level := "\x7b"
  serverName := "\", \"x\": \""
  metric := placeholder "rule_name"
  value := "1.5"
  op := "\\"
  threshold := "\n"
  ruleName := "\"\x7d"
  time := ""

def sampleTemplate : Text :=
  "\x7b\"text\": \"\x7b".toList ++ placeholder "level" ++ "server_name\x7d\x7d ".toList ++
    placeholder "metric" ++ placeholder "op" ++ "\", \"n\": [1, \x7b\x7d]\x7d".toList

theorem render_keeps_tokens_hostile :
    ∃ ts ts', lex sampleTemplate = some ts ∧ lex (render sampleTemplate hostileContext.items) = some ts' ∧
      IsJson (render sampleTemplate hostileContext.items) ∧
      ts'.map Token.erase = ts.map Token.erase :=
  render_keeps_tokens sampleTemplate hostileContext (by decide +kernel)

end GpuMon.Templates

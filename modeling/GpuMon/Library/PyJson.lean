import GpuMon.Library.PyFloat

/-!
# Decoded JSON

What `json.loads` makes of a text, and how Python programs read it: `d.get(key, default)`, truth
values, iteration, `float(x)` and `int(x)`, with the exceptions that end such a program.

`SameFields` and `InList` lift a relation on values to dicts and to lists: two payloads of one
shape that differ only where a policy says that they may.

* `getOr_same`: what is read under a key that the policy fixes is the same.
* `dicts_same`, `mapM_same`: programs that go through related lists item by item agree.
-/

namespace PyJson

inductive Value
  | null
  | bool (b : Bool)
  | int (n : Int)
  | float (x : PyFloat)
  | string (t : Text)
  | array (items : List Value)
  | object (fields : List (Text × Value))

/-- The entries of a dict, in their order. -/
abbrev Fields := List (Text × Value)

/-- The exceptions of the built-in operations, and an error of the program's own. -/
inductive Fault
  | raised (message : Text)
  | typeError
  | valueError
  | overflowError
  | keyError
  deriving DecidableEq

/-! ## Reading -/

/-- `d.get(key, default)`. -/
def getOr (d : Fields) (key : Text) (default : Value) : Value := (d.lookup key).getD default

/-- `d.get(key)`. -/
def get (d : Fields) (key : Text) : Value := getOr d key .null

/-- `bool(v)`. -/
def truthy : Value → Bool
  | .null => false
  | .bool b => b
  | .int n => n ≠ 0
  | .float x => x ≠ .finite 0
  | .string t => t ≠ []
  | .array items => !items.isEmpty
  | .object fields => !fields.isEmpty

/-- `v or w`. -/
def orElse (v w : Value) : Value := if truthy v then v else w

/-- A dict among the values. -/
def asDict : Value → Option Fields
  | .object fields => some fields
  | _ => none

/-- `[x for x in items if isinstance(x, dict)]`. -/
def dicts (items : List Value) : List Fields := items.filterMap asDict

/-- `iter(v)`: a dict goes through its keys, a text through its characters. -/
def iterate : Value → Except Fault (List Value)
  | .array items => .ok items
  | .object fields => .ok (fields.map fun p => .string p.1)
  | .string t => .ok (t.map fun c => .string [c])
  | _ => .error .typeError

/-- `float(v)`; an integer beyond the floats is an `OverflowError`. -/
def toFloat : Value → Except Fault PyFloat
  | .bool b => .ok (.finite (if b then 1 else 0))
  | .int n =>
    match PyFloat.ofRat n with
    | .finite x => .ok (.finite x)
    | _ => .error .overflowError
  | .float x => .ok x
  | .string t =>
    match PyFloat.float? t with
    | some x => .ok x
    | none => .error .valueError
  | _ => .error .typeError

/-- `int(x)` of a float. -/
def truncate : PyFloat → Except Fault Int
  | .finite x => .ok (PyNum.truncate x)
  | .infinite _ => .error .overflowError
  | .nan => .error .valueError

/-- `int(v)`. -/
def toInt : Value → Except Fault Int
  | .bool b => .ok (if b then 1 else 0)
  | .int n => .ok n
  | .float x => truncate x
  | .string t =>
    match PyText.int? t with
    | some n => .ok n
    | none => .error .valueError
  | _ => .error .typeError

/-- `v == n`. -/
def equalsInt : Value → Int → Bool
  | .bool b, n => (if b then 1 else 0) = n
  | .int m, n => m = n
  | .float (.finite x), n => x = n
  | _, _ => false

/-- `d[key] = v`: in the place of the old value, or at the end. -/
def set (d : Fields) (key : Text) (v : Value) : Fields :=
  if (d.lookup key).isSome then d.map fun p => if p.1 = key then (key, v) else p
  else d ++ [(key, v)]

/-- `d.pop(key, None)`. -/
def erase (d : Fields) (key : Text) : Fields := d.filter fun p => p.1 ≠ key

/-! ## Floats -/

def add : PyFloat → PyFloat → PyFloat
  | .finite x, .finite y => .ofRat (x + y)
  | .nan, _ | _, .nan => .nan
  | .infinite a, .infinite b => if a = b then .infinite a else .nan
  | .infinite a, .finite _ | .finite _, .infinite a => .infinite a

def lt : PyFloat → PyFloat → Bool
  | .finite x, .finite y => x < y
  | .nan, _ | _, .nan => false
  | .infinite a, .infinite b => a && !b
  | .infinite a, .finite _ => a
  | .finite _, .infinite b => !b

/-- `x / y` for `y ≠ 0`. -/
def div : PyFloat → PyFloat → PyFloat
  | .finite x, .finite y => .ofRat (x / y)
  | .nan, _ | _, .nan => .nan
  | .infinite _, .infinite _ => .nan
  | .infinite a, .finite y => .infinite (if y < 0 then !a else a)
  | .finite _, .infinite _ => .finite 0

/-- `x * k` for a positive `k`. -/
def scale (k : ℚ) : PyFloat → PyFloat
  | .finite x => .ofRat (x * k)
  | x => x

/-- `round(x, digits)`. -/
def round (digits : Nat) : PyFloat → PyFloat
  | .finite x => .finite (PyNum.roundTo digits x)
  | x => x

/-- `sum(xs)` of floats; without a summand it is the integer zero. -/
def sum (xs : List PyFloat) : PyFloat := xs.foldl add (.finite 0)

/-- `max(xs)`, the first one of those that no later one exceeds. -/
def max : List PyFloat → PyFloat
  | [] => .finite 0
  | x :: xs => xs.foldl (fun best y => if lt best y then y else best) x

/-! ## Payloads that differ where a policy lets them -/

/-- How the values under a key may differ. -/
abbrev Policy := Text → Value → Value → Prop

/-- Nothing may differ. -/
def Policy.Reflexive (P : Policy) : Prop := ∀ key v, P key v v

/-- The key is shown: its value may not differ. -/
def Policy.Shows (P : Policy) (key : Text) : Prop := ∀ v w, P key v w → v = w

def SameFields (P : Policy) (d e : Fields) : Prop :=
  List.Forall₂ (fun p q : Text × Value => p.1 = q.1 ∧ P p.1 p.2 q.2) d e

/-- Two related dicts, or one value. -/
def InDict (S : Fields → Fields → Prop) (v w : Value) : Prop :=
  v = w ∨ ∃ d e, v = .object d ∧ w = .object e ∧ S d e

/-- Two lists of related items, or one value. -/
def InList (R : Value → Value → Prop) (v w : Value) : Prop :=
  v = w ∨ ∃ l m, v = .array l ∧ w = .array m ∧ List.Forall₂ R l m

/-- The same exception, or related results. -/
def SameResult {α : Type*} (R : α → α → Prop) : Except Fault α → Except Fault α → Prop
  | .ok a, .ok b => R a b
  | .error e, .error f => e = f
  | _, _ => False

variable {P : Policy} {d e : Fields}

/-- Item by item, with the items of the first list at hand. -/
theorem map_of_related {α β : Type*} {R : α → α → Prop} {f : α → β} {l m : List α}
    (h : List.Forall₂ R l m) (hf : ∀ a ∈ l, ∀ b, R a b → f a = f b) : l.map f = m.map f := by
  induction h with
  | nil => rfl
  | @cons a b l m hHead _ ih =>
    rw [List.map_cons, List.map_cons, hf a List.mem_cons_self b hHead,
      ih fun c hc => hf c (List.mem_cons_of_mem a hc)]

theorem map_same {α β : Type*} {R : α → α → Prop} {f : α → β} {l m : List α}
    (h : List.Forall₂ R l m) (hf : ∀ a b, R a b → f a = f b) : l.map f = m.map f :=
  map_of_related h fun a _ b => hf a b

theorem filter_same {α : Type*} {R : α → α → Prop} {p : α → Bool} {l m : List α}
    (h : List.Forall₂ R l m) (hp : ∀ a b, R a b → p a = p b) :
    List.Forall₂ R (l.filter p) (m.filter p) := by
  induction h with
  | nil => exact .nil
  | @cons a b l m hHead _ ih =>
    rw [List.filter_cons, List.filter_cons, hp _ _ hHead]
    split
    · exact .cons hHead ih
    · exact ih

theorem SameFields.refl (hP : P.Reflexive) (d : Fields) : SameFields P d d :=
  List.forall₂_same.mpr fun p _ => ⟨rfl, hP p.1 p.2⟩

theorem InDict.refl (S : Fields → Fields → Prop) (v : Value) : InDict S v v := .inl rfl

theorem InList.refl (R : Value → Value → Prop) (v : Value) : InList R v v := .inl rfl

/-- Both dicts have the key, or none has it. -/
theorem lookup_same (h : SameFields P d e) (key : Text) :
    (d.lookup key = none ∧ e.lookup key = none) ∨
      ∃ v w, d.lookup key = some v ∧ e.lookup key = some w ∧ P key v w := by
  induction h with
  | nil => exact .inl ⟨rfl, rfl⟩
  | @cons p q d e hHead _ ih =>
    obtain ⟨hKey, hValue⟩ := hHead
    rw [List.lookup_cons, List.lookup_cons, ← hKey]
    by_cases hEq : key = p.1
    · subst hEq
      exact .inr ⟨p.2, q.2, by simp, by simp, hValue⟩
    · have hNe : (key == p.1) = false := beq_eq_false_iff_ne.mpr hEq
      rw [hNe]
      exact ih

/-- What is read under one key is related. -/
theorem getOr_related (hP : P.Reflexive) (h : SameFields P d e) (key : Text) (default : Value) :
    P key (getOr d key default) (getOr e key default) := by
  unfold getOr
  rcases lookup_same h key with ⟨hd, he⟩ | ⟨v, w, hd, he, hValue⟩
  · rw [hd, he]
    exact hP key default
  · rw [hd, he]
    exact hValue

theorem getOr_same (hP : P.Reflexive) (h : SameFields P d e) {key : Text} (hKey : P.Shows key)
    (default : Value) : getOr d key default = getOr e key default :=
  hKey _ _ (getOr_related hP h key default)

/-- A dict of which everything is shown. -/
theorem eq_of_sameFields (h : SameFields P d e) (hShown : ∀ p ∈ d, P.Shows p.1) : d = e := by
  induction h with
  | nil => rfl
  | @cons p q d e hHead _ ih =>
    obtain ⟨hKey, hValue⟩ := hHead
    have hEq : p = q := Prod.ext hKey (hShown p List.mem_cons_self _ _ hValue)
    rw [hEq, ih fun r hr => hShown r (List.mem_cons_of_mem p hr)]

theorem contains_same (h : SameFields P d e) (key : Text) :
    (d.lookup key).isSome = (e.lookup key).isSome := by
  rcases lookup_same h key with ⟨hd, he⟩ | ⟨v, w, hd, he, -⟩
  · rw [hd, he]
  · rw [hd, he]
    rfl

theorem lookup_ne_none {p : Text × Value} (hp : p ∈ d) : (d.lookup p.1).isSome := by
  induction d with
  | nil => cases hp
  | cons q d ih =>
    rw [List.lookup_cons]
    by_cases hEq : p.1 = q.1
    · simp [hEq]
    · rw [beq_eq_false_iff_ne.mpr hEq]
      rcases List.mem_cons.mp hp with rfl | hRest
      · exact absurd rfl hEq
      · exact ih hRest

theorem set_related (h : SameFields P d e) {key : Text} {v w : Value} (hv : P key v w) :
    SameFields P (set d key v) (set e key w) := by
  unfold set
  rw [← contains_same h key]
  split
  · rw [SameFields, List.forall₂_map_left_iff, List.forall₂_map_right_iff]
    refine List.Forall₂.imp ?_ h
    intro p q hpq
    rw [← hpq.1]
    split
    · exact ⟨rfl, hv⟩
    · exact hpq
  · exact List.rel_append h (.cons ⟨rfl, hv⟩ .nil)

/-- The old values under the key do not matter. -/
theorem set_same {key : Text} (h : SameFields P d e) (hShown : ∀ p ∈ d, p.1 ≠ key → P.Shows p.1)
    (v : Value) : set d key v = set e key v := by
  unfold set
  rw [← contains_same h key]
  split
  · refine map_of_related h fun p hp q hpq => ?_
    rw [← hpq.1]
    split
    · rfl
    · rename_i hNe
      exact Prod.ext hpq.1 (hShown p hp hNe _ _ hpq.2)
  · rename_i hNone
    rw [eq_of_sameFields h fun p hp => hShown p hp fun hKey =>
      hNone (hKey ▸ lookup_ne_none hp)]

theorem erase_related (h : SameFields P d e) (key : Text) :
    SameFields P (erase d key) (erase e key) :=
  filter_same h fun p q hpq => by rw [hpq.1]

/-- The dicts among related items are related, place by place. -/
theorem dicts_same {S : Fields → Fields → Prop} (hS : ∀ d, S d d) {l m : List Value}
    (h : List.Forall₂ (InDict S) l m) : List.Forall₂ S (dicts l) (dicts m) := by
  induction h with
  | nil => exact .nil
  | @cons v w l m hHead _ ih =>
    rcases hHead with rfl | ⟨d, e, rfl, rfl, hSame⟩
    · cases v with
      | object fields => exact .cons (hS fields) ih
      | _ => exact ih
    · exact .cons hSame ih

/-- Related lists are gone through alike. -/
theorem iterate_same {R : Value → Value → Prop} (hR : ∀ v, R v v) {v w : Value} (h : InList R v w) :
    SameResult (List.Forall₂ R) (iterate v) (iterate w) := by
  rcases h with rfl | ⟨l, m, rfl, rfl, hItems⟩
  · cases hv : iterate v with
    | error f => rfl
    | ok l => exact List.forall₂_same.mpr fun x _ => hR x
  · exact hItems

theorem truthy_same {R : Value → Value → Prop} {v w : Value} (h : InList R v w) :
    truthy v = truthy w := by
  rcases h with rfl | ⟨l, m, rfl, rfl, hItems⟩
  · rfl
  · cases hItems <;> rfl

theorem orElse_same {R : Value → Value → Prop} {v w : Value} (h : InList R v w) (other : Value) :
    InList R (orElse v other) (orElse w other) := by
  unfold orElse
  rw [truthy_same h]
  split
  · exact h
  · exact .refl R other

/-! ## Programs on related payloads -/

theorem sameResult_rfl {α : Type*} {R : α → α → Prop} (hR : ∀ a, R a a) (r : Except Fault α) :
    SameResult R r r := by
  cases r with
  | error e => rfl
  | ok a => exact hR a

theorem eq_of_sameResult {α : Type*} {r r' : Except Fault α} (h : SameResult Eq r r') : r = r' := by
  cases r <;> cases r'
  · exact congrArg _ h
  · cases h
  · cases h
  · exact congrArg _ h

/-- What follows related results is related if it maps related values to related results. -/
theorem bind_related {α β : Type} {R : α → α → Prop} {S : β → β → Prop} {r r' : Except Fault α}
    {f f' : α → Except Fault β} (h : SameResult R r r')
    (hf : ∀ a b, r = .ok a → r' = .ok b → R a b → SameResult S (f a) (f' b)) :
    SameResult S (r >>= f) (r' >>= f') := by
  cases r <;> cases r'
  · exact h
  · cases h
  · cases h
  · exact hf _ _ rfl rfl h

theorem bind_same {α β : Type} {R : α → α → Prop} {r r' : Except Fault α}
    {f f' : α → Except Fault β} (h : SameResult R r r')
    (hf : ∀ a b, r = .ok a → r' = .ok b → R a b → f a = f' b) : (r >>= f) = (r' >>= f') :=
  eq_of_sameResult (bind_related h fun a b ha hb hab =>
    hf a b ha hb hab ▸ sameResult_rfl (fun _ => rfl) _)

/-- A step that does not depend on what differs. -/
theorem bind_congr_right {α β : Type} {r : Except Fault α} {f f' : α → Except Fault β}
    (hf : ∀ a, f a = f' a) : (r >>= f) = (r >>= f') := congrArg (r >>= ·) (funext hf)

theorem map_related {α β : Type*} {R : α → α → Prop} {S : β → β → Prop} {r r' : Except Fault α}
    {f f' : α → β} (h : SameResult R r r') (hf : ∀ a b, R a b → S (f a) (f' b)) :
    SameResult S (r.map f) (r'.map f') := by
  cases r <;> cases r'
  · exact h
  · cases h
  · cases h
  · exact hf _ _ h

/-- Item by item, related lists give the same. -/
theorem mapM_same_of {α β : Type} {R : α → α → Prop} {f f' : α → Except Fault β} {l m : List α}
    (h : List.Forall₂ R l m) (hf : ∀ a b, R a b → f a = f' b) : l.mapM f = m.mapM f' := by
  induction h with
  | nil => rfl
  | cons hHead _ ih => rw [List.mapM_cons, List.mapM_cons, hf _ _ hHead, ih]

theorem mapM_same {α β : Type} {R : α → α → Prop} {f : α → Except Fault β} {l m : List α}
    (h : List.Forall₂ R l m) (hf : ∀ a b, R a b → f a = f b) : l.mapM f = m.mapM f :=
  mapM_same_of h hf

theorem getElem?_related {α : Type*} {R : α → α → Prop} {l m : List α} (h : List.Forall₂ R l m)
    (i : Nat) : Option.Rel R l[i]? m[i]? := by
  induction h generalizing i with
  | nil => exact .none
  | cons hHead _ ih =>
    cases i with
    | zero => exact .some hHead
    | succ i => exact ih i

theorem forall₂_and {α β : Type*} {R S : α → β → Prop} {l : List α} {m : List β}
    (hR : List.Forall₂ R l m) (hS : List.Forall₂ S l m) :
    List.Forall₂ (fun a b => R a b ∧ S a b) l m := by
  induction hR with
  | nil => exact .nil
  | cons hHead _ ih =>
    cases hS with
    | cons hHead' hTail' => exact .cons ⟨hHead, hHead'⟩ (ih hTail')

theorem mapM_congr {α β : Type} {f g : α → Except Fault β} {l : List α}
    (h : ∀ a ∈ l, f a = g a) : l.mapM f = l.mapM g := by
  induction l with
  | nil => rfl
  | cons a l ih =>
    rw [List.mapM_cons, List.mapM_cons, h a List.mem_cons_self,
      ih fun b hb => h b (List.mem_cons_of_mem a hb)]

theorem mapM_related {α β : Type} {R : α → α → Prop} {S : β → β → Prop} {f : α → Except Fault β}
    {l m : List α} (h : List.Forall₂ R l m) (hf : ∀ a b, R a b → SameResult S (f a) (f b)) :
    SameResult (List.Forall₂ S) (l.mapM f) (m.mapM f) := by
  induction h with
  | nil => exact .nil
  | cons hHead _ ih =>
    rw [List.mapM_cons, List.mapM_cons]
    exact bind_related (hf _ _ hHead) fun a b _ _ hab =>
      bind_related ih fun l m _ _ hlm => .cons hab hlm

theorem find?_related {α : Type*} {R : α → α → Prop} {p q : α → Bool} {l m : List α}
    (h : List.Forall₂ R l m) (hpq : ∀ a b, R a b → p a = q b) :
    Option.Rel R (l.find? p) (m.find? q) := by
  induction h with
  | nil => exact .none
  | @cons a b l m hHead _ ih =>
    rw [List.find?_cons, List.find?_cons, hpq _ _ hHead]
    split
    · exact .some hHead
    · exact ih

theorem orderedInsert_related {α : Type*} {R : α → α → Prop} {r : α → α → Prop} [DecidableRel r]
    (hr : ∀ a b a' b', R a a' → R b b' → (r a b ↔ r a' b')) {a a' : α} {l m : List α} (ha : R a a')
    (h : List.Forall₂ R l m) :
    List.Forall₂ R (l.orderedInsert r a) (m.orderedInsert r a') := by
  induction h with
  | nil => exact .cons ha .nil
  | @cons b b' l m hHead hTail ih =>
    rw [List.orderedInsert_cons, List.orderedInsert_cons]
    by_cases hLe : r a b
    · rw [if_pos hLe, if_pos ((hr _ _ _ _ ha hHead).mp hLe)]
      exact .cons ha (.cons hHead hTail)
    · rw [if_neg hLe, if_neg fun h => hLe ((hr _ _ _ _ ha hHead).mpr h)]
      exact .cons hHead ih

/-- Sorting by what related items share keeps related items together. -/
theorem insertionSort_related {α : Type*} {R : α → α → Prop} {r : α → α → Prop} [DecidableRel r]
    (hr : ∀ a b a' b', R a a' → R b b' → (r a b ↔ r a' b')) {l m : List α}
    (h : List.Forall₂ R l m) : List.Forall₂ R (l.insertionSort r) (m.insertionSort r) := by
  induction h with
  | nil => exact .nil
  | cons hHead _ ih => exact orderedInsert_related hr hHead ih

end PyJson

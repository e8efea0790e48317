import Mathlib.Tactic

/-!
# Tables with a primary key

A list of rows with distinct keys. A new row takes the key after the largest one in use; an
update may change everything of a row but its key.
-/

universe u

/-- Rows that carry their primary key. -/
class Keyed (α : Type u) where
  key : α → Nat

structure Table (α : Type u) [Keyed α] where
  rows : List α
  keysNodup : (rows.map Keyed.key).Nodup

namespace Table

variable {α : Type u} [Keyed α]

@[ext] theorem ext_rows {t t' : Table α} (h : t.rows = t'.rows) : t = t' := by
  cases t
  cases t'
  cases h
  rfl

instance [DecidableEq α] : DecidableEq (Table α) := fun t t' =>
  decidable_of_iff (t.rows = t'.rows) ⟨ext_rows, fun h => h ▸ rfl⟩

def empty : Table α := ⟨[], List.nodup_nil⟩

instance : Inhabited (Table α) := ⟨empty⟩

/-- A table of one row. -/
def singleton (a : α) : Table α := ⟨[a], List.nodup_singleton _⟩

/-- A key above all keys in use. -/
def nextKey (t : Table α) : Nat := (t.rows.map Keyed.key).foldr max 0 + 1

theorem lt_nextKey {t : Table α} {a : α} (h : a ∈ t.rows) : Keyed.key a < t.nextKey := by
  unfold nextKey
  generalize t.rows = rows at h
  induction rows with
  | nil => cases h
  | cons b rest ih =>
    rw [List.map_cons, List.foldr_cons]
    rcases List.mem_cons.mp h with rfl | h
    · omega
    · have := ih h
      omega

/-- `INSERT` of the row that `row` makes of the new key. -/
def insert (t : Table α) (row : Nat → α) (hKey : ∀ k, Keyed.key (row k) = k) : Table α where
  rows := t.rows ++ [row t.nextKey]
  keysNodup := by
    rw [List.map_append, List.nodup_append]
    refine ⟨t.keysNodup, List.nodup_singleton _, ?_⟩
    intro k hk k' hk'
    obtain ⟨a, ha, rfl⟩ := List.mem_map.mp hk
    have hLt := lt_nextKey ha
    have hNew : k' = t.nextKey := by simpa [hKey] using hk'
    omega

/-- An update of every row. -/
def map (t : Table α) (f : α → α) (hKey : ∀ a, Keyed.key (f a) = Keyed.key a) : Table α where
  rows := t.rows.map f
  keysNodup := by
    have hSame : (t.rows.map f).map Keyed.key = t.rows.map Keyed.key := by
      rw [List.map_map]
      exact List.map_congr_left fun a _ => hKey a
    rw [hSame]
    exact t.keysNodup

/-- `UPDATE` of the row with key `k`. -/
def modify (t : Table α) (k : Nat) (f : α → α) (hKey : ∀ a, Keyed.key (f a) = Keyed.key a) :
    Table α :=
  t.map (fun a => if Keyed.key a = k then f a else a) fun a => by
    split
    · exact hKey a
    · rfl

/-- `DELETE` of the rows that do not satisfy `keep`. -/
def filter (t : Table α) (keep : α → Bool) : Table α :=
  ⟨t.rows.filter keep, t.keysNodup.sublist (List.filter_sublist.map Keyed.key)⟩

/-- The row with key `k`. -/
def get? (t : Table α) (k : Nat) : Option α := t.rows.find? fun a => Keyed.key a = k

theorem isSome_get? {t : Table α} {a : α} (h : a ∈ t.rows) :
    (t.get? (Keyed.key a)).isSome = true := by
  unfold get?
  rw [List.find?_isSome]
  exact ⟨a, h, decide_eq_true rfl⟩

theorem eq_of_key_eq {t : Table α} {a b : α} (ha : a ∈ t.rows) (hb : b ∈ t.rows)
    (h : Keyed.key a = Keyed.key b) : a = b :=
  List.inj_on_of_nodup_map t.keysNodup ha hb h

theorem get?_eq_some {t : Table α} {k : Nat} {a : α} (h : t.get? k = some a) :
    a ∈ t.rows ∧ Keyed.key a = k := by
  unfold get? at h
  exact ⟨List.mem_of_find?_eq_some h, by simpa using List.find?_some h⟩

@[simp] theorem mem_insert {t : Table α} {row : Nat → α} {hKey : ∀ k, Keyed.key (row k) = k}
    {a : α} : a ∈ (t.insert row hKey).rows ↔ a ∈ t.rows ∨ a = row t.nextKey := by
  simp [insert]

@[simp] theorem mem_map {t : Table α} {f : α → α} {hKey : ∀ a, Keyed.key (f a) = Keyed.key a}
    {b : α} : b ∈ (t.map f hKey).rows ↔ ∃ a ∈ t.rows, f a = b := by
  simp [map]

@[simp] theorem mem_filter {t : Table α} {keep : α → Bool} {a : α} :
    a ∈ (t.filter keep).rows ↔ a ∈ t.rows ∧ keep a = true := by
  simp [filter]

theorem mem_modify {t : Table α} {k : Nat} {f : α → α}
    {hKey : ∀ a, Keyed.key (f a) = Keyed.key a} {b : α} :
    b ∈ (t.modify k f hKey).rows ↔
      (b ∈ t.rows ∧ Keyed.key b ≠ k) ∨ ∃ a ∈ t.rows, Keyed.key a = k ∧ f a = b := by
  unfold modify
  rw [mem_map]
  constructor
  · rintro ⟨a, ha, rfl⟩
    by_cases hk : Keyed.key a = k
    · exact .inr ⟨a, ha, hk, (if_pos hk).symm⟩
    · rw [if_neg hk]
      exact .inl ⟨ha, hk⟩
  · rintro (⟨hb, hk⟩ | ⟨a, ha, hk, rfl⟩)
    · exact ⟨b, hb, if_neg hk⟩
    · exact ⟨a, ha, if_pos hk⟩

/-- An update changes what is found under its own key. -/
theorem get?_modify (t : Table α) (k k' : Nat) (f : α → α)
    (hKey : ∀ a, Keyed.key (f a) = Keyed.key a) :
    (t.modify k f hKey).get? k' = if k' = k then (t.get? k').map f else t.get? k' := by
  have hSame : ∀ a : α, Keyed.key (if Keyed.key a = k then f a else a) = Keyed.key a := by
    intro a
    split
    · exact hKey a
    · rfl
  have hFind : (t.modify k f hKey).get? k' =
      (t.get? k').map fun a => if Keyed.key a = k then f a else a := by
    unfold get? modify map
    rw [List.find?_map]
    congr 2
    funext a
    exact congrArg (fun key => decide (key = k')) (hSame a)
  rw [hFind]
  cases hGet : t.get? k' with
  | none =>
    split <;> rfl
  | some a =>
    have hRow : t.rows.find? (fun a => Keyed.key a = k') = some a := hGet
    have hFound : Keyed.key a = k' := by simpa using List.find?_some hRow
    rw [Option.map_some, hFound]
    split <;> rfl

theorem nextKey_lt_insert {t : Table α} {row : Nat → α} {hKey : ∀ k, Keyed.key (row k) = k} :
    t.nextKey < (t.insert row hKey).nextKey := by
  have hNew := lt_nextKey (mem_insert.mpr (.inr rfl) : row t.nextKey ∈ (t.insert row hKey).rows)
  rwa [hKey] at hNew

theorem keys_map {t : Table α} {f : α → α} {hKey : ∀ a, Keyed.key (f a) = Keyed.key a} :
    (t.map f hKey).rows.map Keyed.key = t.rows.map Keyed.key := by
  change (t.rows.map f).map Keyed.key = _
  rw [List.map_map]
  exact List.map_congr_left fun a _ => hKey a

theorem nextKey_map {t : Table α} {f : α → α} {hKey : ∀ a, Keyed.key (f a) = Keyed.key a} :
    (t.map f hKey).nextKey = t.nextKey := by
  unfold nextKey
  rw [keys_map]

theorem nextKey_modify {t : Table α} {k : Nat} {f : α → α}
    {hKey : ∀ a, Keyed.key (f a) = Keyed.key a} : (t.modify k f hKey).nextKey = t.nextKey :=
  nextKey_map

/-- An update changes one row in place. -/
theorem rows_modify {t : Table α} {a : α} {before after : List α} {f : α → α}
    {hKey : ∀ a, Keyed.key (f a) = Keyed.key a} (hRows : t.rows = before ++ a :: after) :
    (t.modify (Keyed.key a) f hKey).rows = before ++ f a :: after := by
  have hKeys := t.keysNodup
  rw [hRows, List.map_append, List.map_cons, List.nodup_append, List.nodup_cons] at hKeys
  obtain ⟨-, ⟨hAfterKeys, -⟩, hBeforeKeys⟩ := hKeys
  have hBefore : before.map (fun x => if Keyed.key x = Keyed.key a then f x else x) = before := by
    refine (List.map_congr_left fun x hx => if_neg ?_).trans (List.map_id' before)
    exact hBeforeKeys _ (List.mem_map_of_mem hx) _ List.mem_cons_self
  have hAfter : after.map (fun x => if Keyed.key x = Keyed.key a then f x else x) = after := by
    refine (List.map_congr_left fun x hx => if_neg fun hSame => ?_).trans (List.map_id' after)
    exact hAfterKeys (hSame ▸ List.mem_map_of_mem hx)
  change t.rows.map (fun x => if Keyed.key x = Keyed.key a then f x else x) = _
  rw [hRows, List.map_append, List.map_cons, hBefore, hAfter, if_pos rfl]

/-- An update that `g` does not see. -/
theorem map_modify {t : Table α} {k : Nat} {f g : α → α}
    {hKey : ∀ a, Keyed.key (f a) = Keyed.key a} {hKey' : ∀ a, Keyed.key (g a) = Keyed.key a}
    (hSame : ∀ a, g (f a) = g a) : (t.modify k f hKey).map g hKey' = t.map g hKey' := by
  apply ext_rows
  change (t.rows.map _).map g = t.rows.map g
  rw [List.map_map]
  refine List.map_congr_left fun a _ => ?_
  change g (if Keyed.key a = k then f a else a) = g a
  split
  · exact hSame a
  · rfl

/-- A key is in use exactly when something is found under it. -/
theorem mem_keys_iff {t : Table α} {k : Nat} :
    k ∈ t.rows.map Keyed.key ↔ (t.get? k).isSome = true := by
  unfold get?
  rw [List.find?_isSome, List.mem_map]
  simp

/-- Updating the row just inserted is inserting the updated row. -/
theorem modify_insert {t : Table α} {row : Nat → α} {f : α → α}
    {hRow : ∀ k, Keyed.key (row k) = k} {hKey : ∀ a, Keyed.key (f a) = Keyed.key a} :
    (t.insert row hRow).modify t.nextKey f hKey =
      t.insert (fun k => f (row k)) fun k => (hKey _).trans (hRow k) := by
  apply ext_rows
  have hOld : t.rows.map (fun a => if Keyed.key a = t.nextKey then f a else a) = t.rows := by
    refine (List.map_congr_left fun a ha => ?_).trans (List.map_id' t.rows)
    exact if_neg (lt_nextKey ha).ne
  change (t.rows ++ [row t.nextKey]).map _ = t.rows ++ [f (row t.nextKey)]
  rw [List.map_append, hOld, List.map_singleton, if_pos (hRow _)]

end Table

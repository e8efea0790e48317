import Mathlib.Tactic

/-!
# Insertion-ordered dictionaries

The dictionary of a scripting language: an update keeps the key's place, a new key goes to
the end. The keys are distinct by construction, so a lookup never has to ask which of two
entries counts.
-/

universe u v

/-- A finite map with its keys in order of first insertion. -/
structure Dict (κ : Type u) (ν : Type v) where
  entries : List (κ × ν)
  keysNodup : (entries.map Prod.fst).Nodup

namespace Dict

variable {κ : Type u} {ν : Type v}

@[ext] theorem ext_entries {d d' : Dict κ ν} (h : d.entries = d'.entries) : d = d' := by
  cases d
  cases d'
  cases h
  rfl

/-- `while len(d) > most: d.pop(next(iter(d)))`. -/
def popWhile (most : Nat) : List (κ × ν) → List (κ × ν)
  | [] => []
  | p :: rest => if most < (p :: rest).length then popWhile most rest else p :: rest

theorem popWhile_eq_drop (most : Nat) (l : List (κ × ν)) :
    popWhile most l = l.drop (l.length - most) := by
  induction l with
  | nil => exact List.drop_nil.symm
  | cons p rest ih =>
    unfold popWhile
    split
    · rename_i hMost
      have hLength : (p :: rest).length - most = (rest.length - most) + 1 := by
        rw [List.length_cons] at hMost ⊢
        omega
      rw [ih, hLength, List.drop_succ_cons]
    · rename_i hMost
      rw [Nat.sub_eq_zero_of_le (not_lt.mp hMost), List.drop_zero]

/-- The newest `most` entries. -/
def keepNewest (most : Nat) (d : Dict κ ν) : Dict κ ν :=
  ⟨popWhile most d.entries, by
    rw [popWhile_eq_drop]
    exact d.keysNodup.sublist ((List.drop_sublist _ _).map Prod.fst)⟩

theorem length_keepNewest (most : Nat) (d : Dict κ ν) :
    (d.keepNewest most).entries.length ≤ most := by
  change (popWhile most d.entries).length ≤ most
  rw [popWhile_eq_drop, List.length_drop]
  omega

theorem keepNewest_eq_self {most : Nat} {d : Dict κ ν} (h : d.entries.length ≤ most) :
    d.keepNewest most = d := by
  refine ext_entries ?_
  change popWhile most d.entries = d.entries
  rw [popWhile_eq_drop, Nat.sub_eq_zero_of_le h, List.drop_zero]

/-- The entry that came last stays. -/
theorem getLast?_keepNewest {most : Nat} (d : Dict κ ν) (hMost : 0 < most) :
    (d.keepNewest most).entries.getLast? = d.entries.getLast? := by
  change (popWhile most d.entries).getLast? = d.entries.getLast?
  rw [popWhile_eq_drop, List.getLast?_drop]
  split
  · rename_i hShort
    have hNil : d.entries = [] := List.eq_nil_of_length_eq_zero (by omega)
    rw [hNil]
    rfl
  · rfl

variable [DecidableEq κ]

instance [DecidableEq ν] : DecidableEq (Dict κ ν) := fun d d' =>
  decidable_of_iff (d.entries = d'.entries) ⟨ext_entries, fun h => h ▸ rfl⟩

def empty : Dict κ ν := ⟨[], List.nodup_nil⟩

instance : Inhabited (Dict κ ν) := ⟨empty⟩

/-- `k in d`. -/
def contains (d : Dict κ ν) (k : κ) : Bool := d.entries.any fun p => p.1 = k

/-- `d.get(k)`. -/
def get? (d : Dict κ ν) (k : κ) : Option ν := (d.entries.find? fun p => p.1 = k).map Prod.snd

/-- The entries with the value at `k` replaced, or `(k, v)` put last. -/
def setEntries (k : κ) (v : ν) : List (κ × ν) → List (κ × ν)
  | [] => [(k, v)]
  | p :: rest => if p.1 = k then (k, v) :: rest else p :: setEntries k v rest

theorem mem_keys_setEntries {k k' : κ} {v : ν} {l : List (κ × ν)} :
    k' ∈ (setEntries k v l).map Prod.fst ↔ k' = k ∨ k' ∈ l.map Prod.fst := by
  induction l with
  | nil => simp [setEntries]
  | cons p rest ih =>
    unfold setEntries
    split
    · rename_i h
      simp [h]
    · rw [List.map_cons, List.mem_cons, ih, List.map_cons, List.mem_cons]
      tauto

theorem nodup_setEntries (k : κ) (v : ν) {l : List (κ × ν)} (h : (l.map Prod.fst).Nodup) :
    ((setEntries k v l).map Prod.fst).Nodup := by
  induction l with
  | nil => simp [setEntries]
  | cons p rest ih =>
    rw [List.map_cons, List.nodup_cons] at h
    unfold setEntries
    split
    · rename_i hk
      rw [List.map_cons, List.nodup_cons]
      exact ⟨hk ▸ h.1, h.2⟩
    · rename_i hk
      rw [List.map_cons, List.nodup_cons, mem_keys_setEntries]
      exact ⟨fun hmem => hmem.elim hk h.1, ih h.2⟩

theorem setEntries_of_notMem {k : κ} (v : ν) {l : List (κ × ν)} (h : k ∉ l.map Prod.fst) :
    setEntries k v l = l ++ [(k, v)] := by
  induction l with
  | nil => rfl
  | cons p rest ih =>
    rw [List.map_cons, List.mem_cons, not_or] at h
    rw [setEntries, if_neg (Ne.symm h.1), ih h.2]
    rfl

theorem length_setEntries_of_mem {k : κ} (v : ν) {l : List (κ × ν)} (h : k ∈ l.map Prod.fst) :
    (setEntries k v l).length = l.length := by
  induction l with
  | nil => cases h
  | cons p rest ih =>
    unfold setEntries
    split
    · rfl
    · rename_i hKey
      have hRest : k ∈ rest.map Prod.fst :=
        (List.mem_cons.mp h).resolve_left fun hk => hKey hk.symm
      rw [List.length_cons, ih hRest, List.length_cons]

/-- `d[k] = v`. -/
def set (d : Dict κ ν) (k : κ) (v : ν) : Dict κ ν :=
  ⟨setEntries k v d.entries, nodup_setEntries k v d.keysNodup⟩

/-- The entries whose key satisfies `keep`, in their order. -/
def filterKeys (d : Dict κ ν) (keep : κ → Bool) : Dict κ ν :=
  ⟨d.entries.filter fun p => keep p.1,
    d.keysNodup.sublist (List.filter_sublist.map Prod.fst)⟩

/-- The entries that satisfy `keep`, in their order. -/
def filter (d : Dict κ ν) (keep : κ × ν → Bool) : Dict κ ν :=
  ⟨d.entries.filter keep, d.keysNodup.sublist (List.filter_sublist.map Prod.fst)⟩

/-- `del d[k]`. -/
def erase (d : Dict κ ν) (k : κ) : Dict κ ν := d.filterKeys fun k' => k' ≠ k

/-- `{k: v for k, v in items}`: a later item replaces an earlier one with its key. -/
def ofList (items : List (κ × ν)) : Dict κ ν := items.foldl (fun d p => d.set p.1 p.2) empty

def keys (d : Dict κ ν) : List κ := d.entries.map Prod.fst

/-- `{k: f(v) for k, v in d.items()}`. -/
def mapValues {μ : Type*} (f : ν → μ) (d : Dict κ ν) : Dict κ μ :=
  ⟨d.entries.map fun p => (p.1, f p.2), by
    rw [List.map_map]
    exact d.keysNodup⟩

omit [DecidableEq κ] in
@[simp] theorem entries_mapValues {μ : Type*} (f : ν → μ) (d : Dict κ ν) :
    (d.mapValues f).entries = d.entries.map fun p => (p.1, f p.2) := rfl

theorem get?_mapValues {μ : Type*} (f : ν → μ) (d : Dict κ ν) (k : κ) :
    (d.mapValues f).get? k = (d.get? k).map f := by
  simp only [get?, mapValues, List.find?_map, Option.map_map]
  rfl

@[simp] theorem get?_empty (k : κ) : (empty : Dict κ ν).get? k = none := rfl

theorem get?_setEntries (k k' : κ) (v : ν) (l : List (κ × ν)) :
    ((setEntries k v l).find? fun p => p.1 = k').map Prod.snd =
      if k' = k then some v else (l.find? fun p => p.1 = k').map Prod.snd := by
  induction l with
  | nil =>
    by_cases h : k' = k
    · simp [setEntries, h]
    · simp [setEntries, h, Ne.symm h]
  | cons p rest ih =>
    unfold setEntries
    by_cases hp : p.1 = k
    · rw [if_pos hp]
      by_cases h : k' = k
      · simp [h]
      · simp [h, Ne.symm h, show ¬ p.1 = k' from fun hk => h (hk.symm.trans hp)]
    · rw [if_neg hp]
      by_cases hk : p.1 = k'
      · simp [hk, show ¬ k' = k from fun h => hp (hk.trans h)]
      · simpa [List.find?_cons, hk] using ih

@[simp] theorem get?_set (d : Dict κ ν) (k k' : κ) (v : ν) :
    (d.set k v).get? k' = if k' = k then some v else d.get? k' :=
  get?_setEntries k k' v d.entries

theorem find?_filter_key (keep : κ → Bool) (k : κ) (l : List (κ × ν)) :
    (l.filter fun p => keep p.1).find? (fun p => p.1 = k) =
      if keep k then l.find? (fun p => p.1 = k) else none := by
  induction l with
  | nil => simp
  | cons p rest ih =>
    by_cases hp : p.1 = k
    · subst hp
      by_cases hk : keep p.1
      · simp [hk]
      · simpa [hk] using ih
    · by_cases hkeep : keep p.1 <;> simpa [List.filter_cons, List.find?_cons, hp, hkeep] using ih

@[simp] theorem get?_filterKeys (d : Dict κ ν) (keep : κ → Bool) (k : κ) :
    (d.filterKeys keep).get? k = if keep k then d.get? k else none := by
  unfold get? filterKeys
  dsimp only
  rw [find?_filter_key]
  split <;> rfl

@[simp] theorem get?_erase (d : Dict κ ν) (k k' : κ) :
    (d.erase k).get? k' = if k' = k then none else d.get? k' := by
  simp only [erase, get?_filterKeys, ne_eq, decide_not, Bool.not_eq_true',
    decide_eq_false_iff_not]
  split_ifs <;> rfl

/-- The second of two updates of one key counts. -/
theorem set_set (d : Dict κ ν) (k : κ) (v w : ν) : (d.set k v).set k w = d.set k w := by
  have hEntries : ∀ l : List (κ × ν), setEntries k w (setEntries k v l) = setEntries k w l := by
    intro l
    induction l with
    | nil => simp [setEntries]
    | cons p rest ih =>
      by_cases hp : p.1 = k
      · simp [setEntries, hp]
      · simp [setEntries, hp, ih]
  exact ext_entries (hEntries d.entries)

theorem contains_iff (d : Dict κ ν) (k : κ) : d.contains k = true ↔ (d.get? k).isSome := by
  simp [contains, get?, List.find?_isSome, List.any_eq_true]

theorem mem_keys_iff (d : Dict κ ν) (k : κ) : k ∈ d.keys ↔ (d.get? k).isSome := by
  rw [← contains_iff]
  simp [contains, keys]

/-- Every entry is found under its key. -/
theorem get?_of_mem {d : Dict κ ν} {k : κ} {v : ν} (h : (k, v) ∈ d.entries) :
    d.get? k = some v := by
  have hnodup := d.keysNodup
  unfold get?
  generalize d.entries = l at h hnodup
  induction l with
  | nil => cases h
  | cons p rest ih =>
    rw [List.map_cons, List.nodup_cons] at hnodup
    rcases List.mem_cons.mp h with rfl | h
    · simp
    · have hne : ¬ p.1 = k := fun hk => hnodup.1 (hk ▸ List.mem_map_of_mem (f := Prod.fst) h)
      simpa [List.find?_cons, hne] using ih h hnodup.2

theorem mem_of_get? {d : Dict κ ν} {k : κ} {v : ν} (h : d.get? k = some v) :
    (k, v) ∈ d.entries := by
  obtain ⟨⟨k', v'⟩, hfind, rfl⟩ := Option.map_eq_some_iff.mp h
  have hk : k' = k := by simpa using List.find?_some hfind
  exact hk ▸ List.mem_of_find?_eq_some hfind

theorem get?_eq_some_iff {d : Dict κ ν} {k : κ} {v : ν} :
    d.get? k = some v ↔ (k, v) ∈ d.entries := ⟨mem_of_get?, get?_of_mem⟩

@[simp] theorem get?_filter (d : Dict κ ν) (keep : κ × ν → Bool) (k : κ) :
    (d.filter keep).get? k = (d.get? k).filter fun v => keep (k, v) := by
  refine Option.ext fun v => ?_
  rw [get?_eq_some_iff, Option.filter_eq_some_iff, get?_eq_some_iff]
  exact List.mem_filter

/-- The entries are the keys in their order, each with what is found under it. -/
theorem map_entries (d : Dict κ ν) :
    d.entries.map (Prod.map id some) = d.keys.map fun k => (k, d.get? k) := by
  rw [keys, List.map_map]
  refine List.map_congr_left fun p hp => ?_
  rw [Function.comp_apply, get?_of_mem hp]
  rfl

theorem ext_get? {d d' : Dict κ ν} (hKeys : d.keys = d'.keys) (h : ∀ k, d.get? k = d'.get? k) :
    d = d' := by
  apply ext_entries
  have hMap : d.entries.map (Prod.map id some) = d'.entries.map (Prod.map id some) := by
    simp only [map_entries, hKeys, h]
  exact (Function.injective_id.prodMap (Option.some_injective ν)).list_map hMap

/-- A replaced value stays in its place. -/
theorem keys_set_of_mem {d : Dict κ ν} {k : κ} (v : ν) (h : k ∈ d.keys) :
    (d.set k v).keys = d.keys := by
  have hEntries : ∀ l : List (κ × ν), k ∈ l.map Prod.fst →
      (setEntries k v l).map Prod.fst = l.map Prod.fst := by
    intro l hl
    induction l with
    | nil => cases hl
    | cons p rest ih =>
      rw [setEntries]
      split
      · rename_i hp
        rw [List.map_cons, List.map_cons, hp]
      · rename_i hp
        rw [List.map_cons, List.map_cons, ih ((List.mem_cons.mp hl).resolve_left (Ne.symm hp))]
  exact hEntries d.entries h

theorem get?_of_keepNewest {most : Nat} {d : Dict κ ν} {k : κ} {v : ν}
    (h : (d.keepNewest most).get? k = some v) : d.get? k = some v := by
  have hMem : (k, v) ∈ popWhile most d.entries := mem_of_get? h
  rw [popWhile_eq_drop] at hMem
  exact get?_of_mem (List.mem_of_mem_drop hMem)

theorem get?_foldl_set (items : List (κ × ν)) (d : Dict κ ν) (k : κ) :
    (items.foldl (fun d p => d.set p.1 p.2) d).get? k =
      ((items.filter fun p => p.1 = k).getLast?.map Prod.snd).or (d.get? k) := by
  induction items generalizing d with
  | nil => simp
  | cons p rest ih =>
    rw [List.foldl_cons, ih, get?_set]
    by_cases hp : p.1 = k
    · subst hp
      simp only [List.filter_cons, decide_true, if_true, List.getLast?_cons]
      cases (rest.filter fun q => q.1 = p.1).getLast? <;> rfl
    · simp [hp, Ne.symm hp]

/-- A dictionary built from items holds the last value given for each key. -/
theorem get?_ofList (items : List (κ × ν)) (k : κ) :
    (ofList items).get? k = (items.filter fun p => p.1 = k).getLast?.map Prod.snd := by
  simp [ofList, get?_foldl_set]

/-- `{key(a): a for a in items}` holds the last item of each key. -/
theorem get?_ofList_map {α : Type*} (key : α → κ) (items : List α) (k : κ) :
    (ofList (items.map fun a => (key a, a))).get? k = (items.filter fun a => key a = k).getLast? := by
  rw [get?_ofList, List.filter_map, List.getLast?_map, Option.map_map]
  exact Option.map_id'

/-- `{k: f(k) for k in ks}`. -/
theorem get?_ofList_graph (ks : List κ) (f : κ → ν) (k : κ) :
    (ofList (ks.map fun k => (k, f k))).get? k = if k ∈ ks then some (f k) else none := by
  have hSame : (ks.filter fun a => a = k).getLast? = if k ∈ ks then some k else none := by
    rw [List.filter_eq, List.getLast?_replicate]
    simp [List.count_eq_zero]
  have hFilter : (ks.map fun k => (k, f k)).filter (fun p => p.1 = k) =
      (ks.filter fun a => a = k).map fun k => (k, f k) := List.filter_map
  rw [get?_ofList, hFilter, List.getLast?_map, hSame]
  split <;> rfl

/-- An order in which a set is walked. -/
structure SetOrder (s : Finset κ) where
  items : List κ
  nodup : items.Nodup
  mem_items : ∀ k, k ∈ items ↔ k ∈ s

end Dict

import GpuMon.Library.Dict

/-!
# Sums and means by key

A list is cut into groups by a key of its items. A dictionary that is updated at the key of each
item ends up with the fold of each group (`get?_foldAt`). The sum of a list is the sum of the
sums of its groups (`sum_total`); the sum of their means is smaller, as soon as some group
has several items and is not all zero (`total_eq_sum_mean_iff`).
-/

universe u v w

namespace Grouping

variable {α : Type u} {κ : Type v} [DecidableEq κ]

/-- The items with one key, in their order. -/
def group (key : α → κ) (k : κ) (l : List α) : List α := l.filter fun a => key a = k

/-- The keys that occur. -/
def keys (key : α → κ) (l : List α) : Finset κ := (l.map key).toFinset

variable {key : α → κ} {k : κ} {a : α} {l : List α}

theorem mem_group : a ∈ group key k l ↔ a ∈ l ∧ key a = k := by
  simp [group]

theorem mem_keys : k ∈ keys key l ↔ ∃ a ∈ l, key a = k := by
  simp [keys]

theorem group_ne_nil_iff : group key k l ≠ [] ↔ k ∈ keys key l := by
  rw [mem_keys, ne_eq, List.eq_nil_iff_forall_not_mem]
  push Not
  simp only [mem_group]

theorem group_eq_nil_of_notMem (h : k ∉ keys key l) : group key k l = [] :=
  not_not.mp fun hne => h (group_ne_nil_iff.mp hne)

/-! ## A dictionary of folds -/

section Folds

variable {β : Type w} {init : β} {step : β → α → β}

/-- `d.setdefault(key(a), init)`, updated by `step`, for each item. -/
def foldAt (key : α → κ) (init : β) (step : β → α → β) (l : List α) : Dict κ β :=
  l.foldl (fun d a => d.set (key a) (step ((d.get? (key a)).getD init) a)) Dict.empty

theorem foldAt_concat (l : List α) (a : α) : foldAt key init step (l ++ [a]) =
    (foldAt key init step l).set (key a)
      (step (((foldAt key init step l).get? (key a)).getD init) a) := by
  simp [foldAt]

/-- Each key of the dictionary holds the fold of its group. -/
theorem get?_foldAt (key : α → κ) (init : β) (step : β → α → β) (l : List α) (k : κ) :
    (foldAt key init step l).get? k =
      if group key k l = [] then none else some ((group key k l).foldl step init) := by
  induction l using List.reverseRecOn with
  | nil => rfl
  | append_singleton l a ih =>
    rw [foldAt_concat, Dict.get?_set]
    by_cases hKey : k = key a
    · have hGroup : group key k (l ++ [a]) = group key k l ++ [a] := by
        simp [group, hKey]
      rw [if_pos hKey, ← hKey, ih, hGroup, if_neg (List.append_ne_nil_of_right_ne_nil _ (by simp)),
        List.foldl_append, List.foldl_cons, List.foldl_nil]
      split
      · rename_i hNil
        rw [hNil]
        rfl
      · rfl
    · have hGroup : group key k (l ++ [a]) = group key k l := by
        simp [group, Ne.symm hKey]
      rw [if_neg hKey, ih, hGroup]

theorem foldAt_get?_of_mem (h : k ∈ keys key l) :
    (foldAt key init step l).get? k = some ((group key k l).foldl step init) := by
  rw [get?_foldAt, if_neg (group_ne_nil_iff.mpr h)]

theorem toFinset_keys_foldAt (key : α → κ) (init : β) (step : β → α → β) (l : List α) :
    (foldAt key init step l).keys.toFinset = keys key l := by
  ext k
  rw [List.mem_toFinset, Dict.mem_keys_iff, get?_foldAt]
  by_cases h : k ∈ keys key l
  · simp [group_ne_nil_iff.mpr h, h]
  · simp [group_eq_nil_of_notMem h, h]

/-- `d[key(a)] = step(d[key(a)], a)` for each item; `none` is a `KeyError`. -/
def updateAll (key : α → κ) (step : β → α → β) (l : List α) (d : Dict κ β) : Option (Dict κ β) :=
  l.foldlM (fun d a => (d.get? (key a)).map fun v => d.set (key a) (step v a)) d

/-- Where every key is there, each of them ends up with the fold of its group. -/
theorem exists_updateAll (key : α → κ) (step : β → α → β) {d : Dict κ β}
    (h : ∀ a ∈ l, (d.get? (key a)).isSome) : ∃ d', updateAll key step l d = some d' ∧
      ∀ k, d'.get? k = (d.get? k).map fun v => (group key k l).foldl step v := by
  induction l generalizing d with
  | nil => exact ⟨d, rfl, fun k => by simp [group]⟩
  | cons a l ih =>
    obtain ⟨hHead, hTail⟩ := List.forall_mem_cons.mp h
    obtain ⟨v, hv⟩ := Option.isSome_iff_exists.mp hHead
    obtain ⟨d', hd', hGet⟩ := ih (d := d.set (key a) (step v a)) fun b hb => by
      rw [Dict.get?_set]
      split
      · rfl
      · exact hTail b hb
    refine ⟨d', by rw [← hd', updateAll, List.foldlM_cons, hv]; rfl, fun k => ?_⟩
    rw [hGet, Dict.get?_set]
    by_cases hk : k = key a
    · subst hk
      rw [if_pos rfl, hv]
      simp [group]
    · rw [if_neg hk]
      simp [group, Ne.symm hk]

/-- A sum over the entries is a sum over the keys. -/
theorem sum_entries_foldAt {M : Type*} [AddCommMonoid M] (f : β → M) :
    ((foldAt key init step l).entries.map fun p => f p.2).sum =
      ∑ k ∈ keys key l, f ((group key k l).foldl step init) := by
  have hValue : ∀ p ∈ (foldAt key init step l).entries,
      f p.2 = f ((group key p.1 l).foldl step init) := by
    intro p hp
    have hGet := Dict.get?_of_mem hp
    have hMem : p.1 ∈ keys key l := by
      rw [← toFinset_keys_foldAt key init step l, List.mem_toFinset]
      exact List.mem_map_of_mem hp
    rw [foldAt_get?_of_mem hMem] at hGet
    rw [Option.some.inj hGet]
  have hKeys : (foldAt key init step l).keys.Nodup := (foldAt key init step l).keysNodup
  rw [List.map_congr_left hValue, ← toFinset_keys_foldAt key init step l,
    List.sum_toFinset _ hKeys, Dict.keys, List.map_map]
  rfl

end Folds

/-! ## Sums and means -/

section Sums

variable {𝕜 : Type w} [Field 𝕜]

def total (f : α → 𝕜) (l : List α) : 𝕜 := (l.map f).sum

def mean (f : α → 𝕜) (l : List α) : 𝕜 := total f l / l.length

variable {f : α → 𝕜}

@[simp] theorem total_nil : total f [] = 0 := rfl

@[simp] theorem total_cons (a : α) (l : List α) : total f (a :: l) = f a + total f l :=
  List.sum_cons

theorem foldl_add (f : α → 𝕜) (l : List α) (x : 𝕜) :
    l.foldl (fun s a => s + f a) x = x + total f l := by
  induction l generalizing x with
  | nil => simp
  | cons a l ih => rw [List.foldl_cons, ih, total_cons, add_assoc]

/-- The sum of the groups' sums is the sum of all items. -/
theorem sum_total (f : α → 𝕜) {s : Finset κ} (hs : keys key l ⊆ s) :
    ∑ k ∈ s, total f (group key k l) = total f l := by
  induction l with
  | nil => simp [group]
  | cons a l ih =>
    have hHead : key a ∈ s := hs (mem_keys.mpr ⟨a, List.mem_cons_self, rfl⟩)
    have hTail : keys key l ⊆ s := fun k hk => by
      obtain ⟨b, hb, hKey⟩ := mem_keys.mp hk
      exact hs (mem_keys.mpr ⟨b, List.mem_cons_of_mem _ hb, hKey⟩)
    have hStep : ∀ k, total f (group key k (a :: l)) =
        (if key a = k then f a else 0) + total f (group key k l) := fun k => by
      by_cases hKey : key a = k <;> simp [group, hKey]
    simp only [hStep, Finset.sum_add_distrib, Finset.sum_ite_eq, if_pos hHead, ih hTail,
      total_cons]

/-- `select key, avg(f) ... group by key`. -/
def groupMeans (key : α → κ) (f : α → 𝕜) (l : List α) : Dict κ 𝕜 :=
  Dict.ofList ((l.map key).dedup.map fun k => (k, mean f (group key k l)))

theorem get?_groupMeans (key : α → κ) (f : α → 𝕜) (l : List α) (k : κ) :
    (groupMeans key f l).get? k =
      if k ∈ keys key l then some (mean f (group key k l)) else none := by
  rw [groupMeans, Dict.get?_ofList_graph]
  simp only [List.mem_dedup, keys, List.mem_toFinset]

/-- Items that are told apart by a second key: their mean is the mean over the keys. -/
theorem mean_of_nodup {ι : Type*} [DecidableEq ι] {index : α → ι} {g : ι → 𝕜}
    (hIndex : (l.map index).Nodup) (hValue : ∀ a ∈ l, f a = g (index a)) :
    mean f l = (∑ i ∈ keys index l, g i) / (keys index l).card := by
  have hTotal : total f l = ∑ i ∈ keys index l, g i := by
    rw [keys, List.sum_toFinset g hIndex, List.map_map, total, List.map_congr_left hValue]
    rfl
  have hCard : (keys index l).card = l.length := by
    rw [keys, List.toFinset_card_of_nodup hIndex, List.length_map]
  rw [mean, hTotal, hCard]

variable [LinearOrder 𝕜] [IsStrictOrderedRing 𝕜]

theorem total_pos (h : ∀ a ∈ l, 0 < f a) (hl : l ≠ []) : 0 < total f l := by
  refine List.sum_pos _ (fun x hx => ?_) (by simpa using hl)
  obtain ⟨a, ha, rfl⟩ := List.mem_map.mp hx
  exact h a ha

theorem mean_pos (h : ∀ a ∈ l, 0 < f a) (hl : l ≠ []) : 0 < mean f l :=
  div_pos (total_pos h hl) (by exact_mod_cast List.length_pos_iff.mpr hl)

theorem total_nonneg (h : ∀ a ∈ l, 0 ≤ f a) : 0 ≤ total f l := by
  refine List.sum_nonneg fun x hx => ?_
  obtain ⟨a, ha, rfl⟩ := List.mem_map.mp hx
  exact h a ha

/-- A sum is the mean exactly for one item, or when it is zero. -/
theorem total_eq_mean_iff : total f l = mean f l ↔ l.length ≤ 1 ∨ total f l = 0 := by
  rcases Nat.lt_or_ge 1 l.length with hMany | hFew
  · have hLength : (l.length : 𝕜) ≠ 0 := by
      rw [Nat.cast_ne_zero]
      omega
    have hOne : (l.length : 𝕜) ≠ 1 := by
      rw [Nat.cast_ne_one]
      omega
    rw [mean, eq_div_iff hLength, or_iff_right (not_le.mpr hMany)]
    constructor
    · intro h
      have hZero : total f l * ((l.length : 𝕜) - 1) = 0 := by rw [mul_sub, h, mul_one, sub_self]
      exact (mul_eq_zero.mp hZero).resolve_right (sub_ne_zero.mpr hOne)
    · intro h
      rw [h, zero_mul]
  · refine iff_of_true ?_ (.inl hFew)
    match l, hFew with
    | [], _ => simp [mean]
    | [a], _ => simp [mean]

theorem mean_le_total (h : ∀ a ∈ l, 0 ≤ f a) : mean f l ≤ total f l := by
  rcases Nat.eq_zero_or_pos l.length with hNil | hPos
  · rw [List.eq_nil_of_length_eq_zero hNil]
    simp [mean]
  · exact div_le_self (total_nonneg h) (by exact_mod_cast hPos)

/-- Without negative items, a sum over all items is the sum of the groups' means only if no
group of several items adds anything. -/
theorem total_eq_sum_mean_iff (h : ∀ a ∈ l, 0 ≤ f a) :
    total f l = ∑ k ∈ keys key l, mean f (group key k l) ↔
      ∀ k, (group key k l).length ≤ 1 ∨ total f (group key k l) = 0 := by
  have hGroup : ∀ k, ∀ a ∈ group key k l, 0 ≤ f a := fun k a ha => h a (mem_group.mp ha).1
  rw [← sum_total f (Finset.Subset.refl (keys key l)), eq_comm,
    Finset.sum_eq_sum_iff_of_le fun k _ => mean_le_total (hGroup k)]
  constructor
  · intro hAll k
    by_cases hk : k ∈ keys key l
    · exact total_eq_mean_iff.mp (hAll k hk).symm
    · exact .inl (by simp [group_eq_nil_of_notMem hk])
  · intro hAll k _
    exact (total_eq_mean_iff.mpr (hAll k)).symm

end Sums

end Grouping

import Mathlib.Tactic

/-!
# The `LIKE` of SQL

`Like p t`: the pattern `p` matches the whole text `t`. In a pattern `%` stands for any text,
`_` for one character, and ASCII letters match regardless of case. There is no escape character.

* `Like.contains_iff`: `%needle%` matches a text exactly when `needle` matches a piece of it.
* `Like.plain_iff`: a pattern without wildcards matches itself, up to case.
-/

inductive Like : List Char → List Char → Prop
  | nil : Like [] []
  | percent (skipped : List Char) {p t : List Char} : Like p t → Like ('%' :: p) (skipped ++ t)
  | underscore (x : Char) {p t : List Char} : Like p t → Like ('_' :: p) (x :: t)
  | char {ch x : Char} {p t : List Char} : ch ≠ '%' → ch ≠ '_' → x.toLower = ch.toLower →
      Like p t → Like (ch :: p) (x :: t)

namespace Like

variable {p q t : List Char}

theorem nil_iff : Like [] t ↔ t = [] := by
  constructor
  · intro h
    cases h
    rfl
  · rintro rfl
    exact .nil

theorem percent_iff : Like ('%' :: p) t ↔ ∃ a b, t = a ++ b ∧ Like p b := by
  constructor
  · intro h
    cases h with
    | percent skipped h => exact ⟨skipped, _, rfl, h⟩
    | char hPercent => exact absurd rfl hPercent
  · rintro ⟨a, b, rfl, h⟩
    exact .percent a h

theorem underscore_iff : Like ('_' :: p) t ↔ ∃ x b, t = x :: b ∧ Like p b := by
  constructor
  · intro h
    cases h with
    | underscore x h => exact ⟨x, _, rfl, h⟩
    | char _ hUnderscore => exact absurd rfl hUnderscore
  · rintro ⟨x, b, rfl, h⟩
    exact .underscore x h

theorem char_iff {ch : Char} (hPercent : ch ≠ '%') (hUnderscore : ch ≠ '_') :
    Like (ch :: p) t ↔ ∃ x b, t = x :: b ∧ x.toLower = ch.toLower ∧ Like p b := by
  constructor
  · intro h
    cases h with
    | percent => exact absurd rfl hPercent
    | underscore => exact absurd rfl hUnderscore
    | char _ _ hx h => exact ⟨_, _, rfl, hx, h⟩
  · rintro ⟨x, b, rfl, hx, h⟩
    exact .char hPercent hUnderscore hx h

theorem append_iff : Like (p ++ q) t ↔ ∃ a b, t = a ++ b ∧ Like p a ∧ Like q b := by
  induction p generalizing t with
  | nil =>
    simp only [List.nil_append, nil_iff]
    constructor
    · intro h
      exact ⟨[], t, rfl, rfl, h⟩
    · rintro ⟨a, b, rfl, rfl, h⟩
      exact h
  | cons ch p ih =>
    rw [List.cons_append]
    by_cases hPercent : ch = '%'
    · subst hPercent
      simp only [percent_iff, ih]
      constructor
      · rintro ⟨s, t, rfl, a, b, rfl, ha, hb⟩
        exact ⟨s ++ a, b, (List.append_assoc _ _ _).symm, ⟨s, a, rfl, ha⟩, hb⟩
      · rintro ⟨-, b, rfl, ⟨s, a, rfl, ha⟩, hb⟩
        exact ⟨s, a ++ b, List.append_assoc _ _ _, a, b, rfl, ha, hb⟩
    by_cases hUnderscore : ch = '_'
    · subst hUnderscore
      simp only [underscore_iff, ih]
      constructor
      · rintro ⟨x, t, rfl, a, b, rfl, ha, hb⟩
        exact ⟨x :: a, b, rfl, ⟨x, a, rfl, ha⟩, hb⟩
      · rintro ⟨-, b, rfl, ⟨x, a, rfl, ha⟩, hb⟩
        exact ⟨x, a ++ b, rfl, a, b, rfl, ha, hb⟩
    · simp only [char_iff hPercent hUnderscore, ih]
      constructor
      · rintro ⟨x, t, rfl, hx, a, b, rfl, ha, hb⟩
        exact ⟨x :: a, b, rfl, ⟨x, a, rfl, hx, ha⟩, hb⟩
      · rintro ⟨-, b, rfl, ⟨x, a, rfl, hx, ha⟩, hb⟩
        exact ⟨x, a ++ b, rfl, hx, a, b, rfl, ha, hb⟩

theorem refl (p : List Char) : Like p p := by
  induction p with
  | nil => exact .nil
  | cons ch p ih =>
    by_cases hPercent : ch = '%'
    · subst hPercent
      exact .percent ['%'] ih
    by_cases hUnderscore : ch = '_'
    · subst hUnderscore
      exact .underscore '_' ih
    · exact .char hPercent hUnderscore rfl ih

/-- `%needle%` looks for a piece of the text. -/
theorem contains_iff {needle : List Char} :
    Like ('%' :: needle ++ ['%']) t ↔ ∃ a w b, t = a ++ w ++ b ∧ Like needle w := by
  rw [List.cons_append, percent_iff]
  simp only [append_iff, percent_iff, nil_iff]
  constructor
  · rintro ⟨a, -, rfl, w, -, rfl, hw, b, -, rfl, rfl⟩
    exact ⟨a, w, b, by simp, hw⟩
  · rintro ⟨a, w, b, rfl, hw⟩
    exact ⟨a, w ++ b, List.append_assoc _ _ _, w, b, rfl, hw, b, [], (List.append_nil b).symm, rfl⟩

/-! ## Patterns without wildcards -/

/-- No character of the text is a wildcard. -/
def Plain (p : List Char) : Prop := '%' ∉ p ∧ '_' ∉ p

theorem plain_iff (hPlain : Plain p) : Like p t ↔ t.map Char.toLower = p.map Char.toLower := by
  induction p generalizing t with
  | nil => rw [nil_iff, List.map_nil, List.map_eq_nil_iff]
  | cons ch p ih =>
    have hPercent : ch ≠ '%' := fun h => hPlain.1 (h ▸ List.mem_cons_self)
    have hUnderscore : ch ≠ '_' := fun h => hPlain.2 (h ▸ List.mem_cons_self)
    have hRest : Plain p :=
      ⟨fun h => hPlain.1 (List.mem_cons_of_mem ch h), fun h => hPlain.2 (List.mem_cons_of_mem ch h)⟩
    rw [char_iff hPercent hUnderscore]
    constructor
    · rintro ⟨x, b, rfl, hx, hb⟩
      rw [List.map_cons, List.map_cons, hx, (ih hRest).mp hb]
    · intro h
      cases t with
      | nil => cases h
      | cons x b =>
        rw [List.map_cons, List.map_cons] at h
        obtain ⟨hx, hb⟩ := List.cons.inj h
        exact ⟨x, b, rfl, hx, (ih hRest).mpr hb⟩

end Like

import GpuMon.Library.Url

/-!
# Where the login page goes on to (`navigation.js`)

The address asked for is checked as it is written, resolved against the origin of the page, and
put together again from the parts of the result.

* `resolve_value`: an address that passes the checks is resolved at the origin.
* `redirect_local_iff`: the result leads to the origin unless its dot segments hide two slashes.
-/

namespace GpuMon.Redirect

open PyText Url

def fallback : Text := "/cockpit"

/-- The checks before the address is resolved. -/
def refused (value : Text) : Bool :=
  !startsWith value "/" || startsWith value "//" || value.contains '\\' ||
    value.any fun c => c.toNat ≤ 0x1F || c.toNat = 0x7F

/-- `safeLocalRedirect`; nothing stands for a value that is no string, and for no origin. -/
def safeLocalRedirect (elsewhere : Origin → Text → Option Resolved) (value : Option Text)
    (origin : Option Origin) : Text :=
  match value, origin with
  | some value, some base =>
    if refused value then fallback
    else
      match resolve elsewhere base value with
      | none => fallback
      | some target =>
        if target.origin ≠ base ∨ startsWith target.pathname "/" = false then fallback
        else target.pathname ++ target.search ++ target.hash
  | _, _ => fallback

/-- An address leads back to the page's origin when the browser resolves it. -/
def LeadsTo (elsewhere : Origin → Text → Option Resolved) (base : Origin) (address : Text) : Prop :=
  startsWith address "//" = false ∧
    ∃ target, resolve elsewhere base address = some target ∧ target.origin = base

/-- The segments of the address, percent-encoded, its dot segments still there. -/
def segmentsOf (value : Text) : List Text := segments [] (clean value).tail

variable {elsewhere : Origin → Text → Option Resolved} {base : Origin}

/-- The text of a checked address after its slash. -/
theorem clean_value {value : Text} (h : refused value = false) :
    ∃ rest, clean value = '/' :: rest ∧ rest.head?.any isSlash = false := by
  simp only [refused, Bool.or_eq_false_iff, Bool.not_eq_false'] at h
  obtain ⟨⟨⟨hSlash, hDouble⟩, hBackslash⟩, hControl⟩ := h
  obtain ⟨v, rfl⟩ : ∃ v, value = '/' :: v := by
    obtain ⟨v, hv⟩ := List.isPrefixOf_iff_prefix.mp hSlash
    exact ⟨v, hv.symm⟩
  have hHead : ∀ c, v.head? = some c → isSlash c = false := by
    intro c hc
    obtain ⟨w, rfl⟩ : ∃ w, v = c :: w := List.head?_eq_some_iff.mp hc
    simp only [isSlash, Bool.or_eq_false_iff, decide_eq_false_iff_not]
    constructor
    · rintro rfl
      cases hDouble
    · rintro rfl
      simp at hBackslash
  have hPrintable : ∀ c ∈ '/' :: v, 0x1F < c.toNat := by
    intro c hc
    have := List.any_eq_false.mp hControl c hc
    simp only [Bool.or_eq_true, decide_eq_true_eq, not_or] at this
    omega
  have hFront : ('/' :: v).dropWhile isBlank = '/' :: v := rfl
  obtain ⟨p, hp, hPrefix⟩ : ∃ p, ('/' :: v).rdropWhile isBlank = '/' :: p ∧ p <+: v := by
    have hPrefix := List.rdropWhile_prefix isBlank ('/' :: v)
    cases hDrop : ('/' :: v).rdropWhile isBlank with
    | nil =>
      have hBlank := List.rdropWhile_eq_nil_iff.mp hDrop '/' List.mem_cons_self
      cases hBlank
    | cons c p =>
      rw [hDrop] at hPrefix
      obtain ⟨rfl, hRest⟩ := List.cons_prefix_cons.mp hPrefix
      exact ⟨p, rfl, hRest⟩
  have hClean : clean ('/' :: v) = '/' :: p := by
    rw [clean, hFront, hp, List.filter_eq_self]
    intro c hc
    have hAbove := hPrintable c ((List.cons_prefix_cons.mpr ⟨rfl, hPrefix⟩).subset hc)
    simp only [List.mem_cons, List.not_mem_nil, or_false, decide_eq_true_eq]
    rintro (rfl | rfl | rfl) <;> revert hAbove <;> decide
  refine ⟨p, hClean, ?_⟩
  cases p with
  | nil => rfl
  | cons c p =>
    obtain ⟨w, rfl⟩ := hPrefix
    exact hHead c rfl

theorem resolve_value {value : Text} (h : refused value = false) :
    resolve elsewhere base value = some (pathState base [] [] (clean value).tail) := by
  obtain ⟨rest, hClean, hSlash⟩ := clean_value h
  rw [resolve, hClean]
  exact if_pos ⟨rfl, hSlash⟩

/-- What an address that passes the checks becomes. -/
theorem safeLocalRedirect_of_checked {value : Text} (h : refused value = false) :
    safeLocalRedirect elsewhere (some value) (some base) =
      (pathState base [] [] (clean value).tail).reference := by
  obtain ⟨rest, hRest, -⟩ := reference_eq_cons base (clean value).tail
  have hPathname : startsWith (pathState base [] [] (clean value).tail).pathname "/" = true := by
    have hPath : (pathState base [] [] (clean value).tail).path ≠ [] := by
      rw [pathState_path]
      exact normalize_ne_nil (segments_ne_nil [] _) []
    obtain ⟨s, path, hCons⟩ := List.exists_cons_of_ne_nil hPath
    rw [Resolved.pathname, hCons]
    rfl
  simp only [safeLocalRedirect, h, Bool.false_eq_true, if_false, resolve_value h]
  rw [if_neg]
  · rfl
  · rintro (hOrigin | hPath)
    · exact hOrigin (pathState_origin base [] [] _)
    · rw [hPathname] at hPath
      cases hPath

/-- The result leads back to the page's origin unless, with the dot segments gone, an empty
segment has become the first one. -/
theorem redirect_local_iff (elsewhere : Origin → Text → Option Resolved) (base : Origin)
    (value : Text) :
    LeadsTo elsewhere base (safeLocalRedirect elsewhere (some value) (some base)) ↔
      (refused value = false → ¬BeginsEmpty (segmentsOf value)) := by
  cases hRefused : refused value with
  | true =>
    simp only [Bool.true_eq_false, false_implies, iff_true]
    refine ⟨by rw [safeLocalRedirect, if_pos hRefused]; rfl, ?_⟩
    rw [safeLocalRedirect, if_pos hRefused]
    exact ⟨pathState base [] [] "cockpit", rfl, pathState_origin base [] [] "cockpit"⟩
  | false =>
    rw [safeLocalRedirect_of_checked hRefused, segmentsOf, ← twoEmpty_path_iff base]
    simp only [true_implies]
    obtain ⟨rest, hRest, hTwo, hOne⟩ := reference_eq_cons base (clean value).tail
    constructor
    · rintro ⟨hStart, -⟩ hEmpty
      obtain ⟨w, rfl⟩ : ∃ w, rest = '/' :: w := List.head?_eq_some_iff.mp (hTwo hEmpty)
      rw [hRest] at hStart
      cases hStart
    · intro hEmpty
      refine ⟨?_, resolve_reference elsewhere base base _ hEmpty⟩
      have hHead := hOne hEmpty
      rw [hRest]
      cases rest with
      | nil => rfl
      | cons c rest =>
        have hc : c ≠ '/' := by
          rintro rfl
          cases hHead
        simp [startsWith, List.isPrefixOf, hc.symm]

def page : Origin := ⟨"https", "gpu-monitor.example.com", none⟩

/-- The parser of hosts, for a reference to one. -/
def hostsOnly (base : Origin) (t : Text) : Option Resolved :=
  some { origin := ⟨base.scheme, (t.dropWhile isSlash).takeWhile (!isSlash ·), none⟩, path := [[]] }

/-- A dot segment before two slashes leads to another host. -/
theorem dot_segment_leads_away :
    safeLocalRedirect hostsOnly (some "/.//evil.example") (some page) = "//evil.example" ∧
      resolve hostsOnly page "//evil.example" =
        some { origin := ⟨"https", "evil.example", none⟩, path := [[]] } ∧
      ¬LeadsTo hostsOnly page (safeLocalRedirect hostsOnly (some "/.//evil.example") (some page)) := by
  refine ⟨by decide, by decide, fun h => ?_⟩
  exact absurd h.1 (by decide)

end GpuMon.Redirect

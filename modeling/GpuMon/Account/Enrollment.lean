import GpuMon.Account.System

/-!
# The confirmed secret is the verified one

`mfa_confirm` verifies a code against the secret it read and then only switches
`mfa_confirmed` on; its compare-and-swap covers the counter and the version, not the secret.
`mfa_setup` replaces the secret without touching either. So the secret may change between the
verification and the confirmation.

* `confirmed_secret_verified`: the stored secret is the one that was verified, in every run
  in which no confirmation commits over another secret and no setup over a confirmation.
* `confirmedIsVerified_step_iff`: these two steps are the only ones that break the property.
* `unverified_secret_enrolled`: a run that enrolls a secret nobody proved to hold.
-/

namespace GpuMon.Account

variable {cfg : Config} {v₀ : Int}

/-- An enrolled secret is the one against which the confirming request verified its code. -/
def ConfirmedIsVerified (s : State) : Prop :=
  s.row.mfaConfirmed = true → ∀ secret ∈ s.row.mfaSecret, s.confirmed = some secret

instance (s : State) : Decidable (ConfirmedIsVerified s) := by
  unfold ConfirmedIsVerified
  infer_instance

/-- The request may write now. A setup that was read before a confirmation comes too late, and
a confirmation whose code was verified must still find the secret it was verified against (or
none at all). -/
def SecretUnmoved (cfg : Config) (s : State) : Action → Prop
  | .read _ => True
  | .write i amb => ∀ p ∈ s.pending[i]?, match p.request with
    | .mfaSetup _ => p.user.isAdmin = true →
        p.user.mfaConfirmed = true ∨ s.row.mfaConfirmed = false
    | .mfaConfirm _ code => p.user.isAdmin = true → p.user.mfaSecret ≠ none →
        (verifyTotp cfg p.user.secret code p.user.mfaLastCounter amb.time).isSome = true →
        mfaGuard p.user s.row = true →
        s.row.mfaSecret = p.user.mfaSecret ∨ s.row.mfaSecret = none
    | _ => True

instance (s : State) (a : Action) : Decidable (SecretUnmoved cfg s a) := by
  cases a with
  | read r => exact isTrue trivial
  | write i amb =>
    unfold SecretUnmoved
    refine @Option.decidableForallMem _ _ (fun p => ?_) _
    split <;> infer_instance

section Effects

variable {amb : Ambient} {user stored row : User}

/-- Clearing an enrollment leaves no secret confirmed that was not confirmed before. -/
theorem ClearedSince.still_enrolled (h : ClearedSince user stored row) {secret : Text}
    (hConfirmed : row.mfaConfirmed = true) (hSecret : row.mfaSecret = some secret) :
    stored.mfaConfirmed = true ∧ stored.mfaSecret = some secret := by
  have hC := h.confirmed
  have hS := h.secret
  rw [hConfirmed] at hC
  rw [hSecret] at hS
  split at hC
  · split at hS
    · exact ⟨hC.symm, hS.symm⟩
    · cases hS
  · cases hC

theorem ClearedSince.not_confirmed (h : ClearedSince user stored row)
    (hOff : user.mfaConfirmed = true ∨ stored.mfaConfirmed = false) :
    row.mfaConfirmed = false := by
  have hC := h.confirmed
  rcases hOff with hRead | hStored
  · simpa [hRead] using hC
  · simpa [hStored] using hC

theorem Accepts.secret_eq {time : Int} {code secret : Text} {counter : Int}
    (h : Accepts cfg time user stored code secret counter) : user.secret = secret := by
  rw [User.secret, h.enrolled, Option.getD_some]

theorem Accepts.isSome_verifyTotp {time : Int} {code secret : Text} {counter : Int}
    (h : Accepts cfg time user stored code secret counter) :
    (verifyTotp cfg user.secret code user.mfaLastCounter time).isSome = true := by
  rw [h.secret_eq, h.verified]
  rfl

end Effects

theorem confirmedIsVerified_start {s : State} (h : Start v₀ s) : ConfirmedIsVerified s :=
  fun hConfirmed _ hSecret => (h.confirmed hConfirmed).trans hSecret

theorem confirmedIsVerified_commit {s : State} {i : Nat} {amb : Ambient} {r : Request}
    {user : User} {o : Outcome} (hInv : ConfirmedIsVerified s)
    (hOk : SecretUnmoved cfg s (.write i amb)) (hp : s.pending[i]? = some ⟨r, user⟩)
    (hEffect : Effect cfg amb user s.row r o) : ConfirmedIsVerified (s.commit i o) := by
  have hUnmoved := hOk _ hp
  intro hConfirmed secret hSecret
  cases hEffect with
  | signIn => exact hInv hConfirmed secret hSecret
  | signInMfa _ _ => exact hInv hConfirmed secret hSecret
  | edit hSame _ =>
    exact hInv (hSame.2.1.symm.trans hConfirmed) secret (hSame.1.symm.trans hSecret)
  | rekey _ => exact hInv hConfirmed secret hSecret
  | @setup token row hAdmin _ hCleared _ =>
    have hOn : row.mfaConfirmed = true := hConfirmed
    rw [hCleared.not_confirmed (hUnmoved hAdmin)] at hOn
    cases hOn
  | confirm hAdmin hAccepts =>
    have hEnrolled := hAccepts.enrolled
    have hRow : s.row.mfaSecret = some secret := hSecret
    have hSame : s.row.mfaSecret = user.mfaSecret ∨ s.row.mfaSecret = none :=
      hUnmoved hAdmin (by simp [hEnrolled]) hAccepts.isSome_verifyTotp hAccepts.unmoved
    rcases hSame with hSame | hNone
    · exact (hEnrolled.symm.trans (hSame.symm.trans hRow))
    · rw [hRow] at hNone
      cases hNone
  | disable _ _ => cases hConfirmed
  | reset hCleared _ =>
    obtain ⟨hC, hS⟩ := hCleared.still_enrolled hConfirmed hSecret
    exact hInv hC secret hS
  | breakGlass hCleared _ =>
    obtain ⟨hC, hS⟩ := hCleared.still_enrolled hConfirmed hSecret
    exact hInv hC secret hS

theorem confirmedIsVerified_step {s s' : State} {a : Action} (hInv : ConfirmedIsVerified s)
    (hOk : SecretUnmoved cfg s a) (h : step cfg s a = some s') : ConfirmedIsVerified s' := by
  rcases step_cases h with ⟨r, rfl, rfl⟩ | ⟨i, amb, p, rfl, hp, rfl⟩ |
    ⟨i, amb, p, o, rfl, hp, hEffect, rfl⟩
  · exact hInv
  · exact hInv
  · exact confirmedIsVerified_commit hInv hOk hp hEffect

theorem not_confirmedIsVerified_setup {s s' : State} {i : Nat} {amb : Ambient} {token : Token}
    {user : User} (hp : s.pending[i]? = some ⟨.mfaSetup token, user⟩)
    (hFresh : s.confirmed ≠ some amb.newSecret) (hAdmin : user.isAdmin = true)
    (hRead : user.mfaConfirmed = false) (hRow : s.row.mfaConfirmed = true)
    (h : step cfg s (.write i amb) = some s') : ¬ ConfirmedIsVerified s' := by
  have hEnrolled : user.mfaEnrolled = false := by simp [User.mfaEnrolled, hRead]
  simp only [step, hp, Option.map_some, respond, mfaSetup, hAdmin, hEnrolled, Bool.not_true,
    Bool.false_eq_true, if_false, Option.some.injEq] at h
  subst h
  intro hVerified
  exact hFresh (hVerified (by simp [State.commit, flush, flushColumn, User.withoutMfa, hRead,
    hRow]) _ rfl)

theorem not_confirmedIsVerified_confirm {s s' : State} {i : Nat} {amb : Ambient} {token : Token}
    {code : Text} {user : User} (hp : s.pending[i]? = some ⟨.mfaConfirm token code, user⟩)
    (hAdmin : user.isAdmin = true) (hSome : user.mfaSecret ≠ none)
    (hCode : (verifyTotp cfg user.secret code user.mfaLastCounter amb.time).isSome = true)
    (hGuard : mfaGuard user s.row = true) (hMoved : s.row.mfaSecret ≠ user.mfaSecret)
    (hRow : s.row.mfaSecret ≠ none) (h : step cfg s (.write i amb) = some s') :
    ¬ ConfirmedIsVerified s' := by
  obtain ⟨secret, hSecret⟩ := Option.ne_none_iff_exists'.mp hSome
  obtain ⟨other, hOther⟩ := Option.ne_none_iff_exists'.mp hRow
  obtain ⟨counter, hCounter⟩ := Option.isSome_iff_exists.mp hCode
  simp only [step, hp, Option.map_some, respond, mfaConfirm, hAdmin, hCounter, hSecret,
    commitMfaTransition, hGuard, Bool.not_true, Bool.false_eq_true, if_false, if_true,
    Option.isNone_some, Option.some.injEq] at h
  subst h
  intro hVerified
  have hSame : some user.secret = some other := hVerified rfl other hOther
  rw [User.secret, hSecret, Option.getD_some] at hSame
  exact hMoved (hOther.trans (hSame.symm.trans hSecret.symm))

/-- A write keeps the property exactly when it finds the secret unmoved. -/
theorem confirmedIsVerified_step_iff {s s' : State} {i : Nat} {amb : Ambient}
    (hInv : ConfirmedIsVerified s) (hFresh : s.confirmed ≠ some amb.newSecret)
    (h : step cfg s (.write i amb) = some s') :
    ConfirmedIsVerified s' ↔ SecretUnmoved cfg s (.write i amb) := by
  refine ⟨fun hVerified => ?_, fun hOk => confirmedIsVerified_step hInv hOk h⟩
  rintro ⟨r, user⟩ hp
  cases r with
  | mfaSetup token =>
    intro hAdmin
    by_contra hLate
    rw [not_or, Bool.not_eq_true, Bool.not_eq_false] at hLate
    exact not_confirmedIsVerified_setup hp hFresh hAdmin hLate.1 hLate.2 h hVerified
  | mfaConfirm token code =>
    intro hAdmin hSome hCode hGuard
    by_contra hMoved
    rw [not_or] at hMoved
    exact not_confirmedIsVerified_confirm hp hAdmin hSome hCode hGuard hMoved.1 hMoved.2 h
      hVerified
  | _ => trivial

/-- In a run whose steps find the secret unmoved, an enrolled secret is the very secret against
which the confirming request verified its code. -/
theorem confirmed_secret_verified {s : State}
    (h : Runs.Reach (step cfg) (Start v₀) (SecretUnmoved cfg) s) : ConfirmedIsVerified s :=
  h.invariant (fun _ => confirmedIsVerified_start) fun _ _ _ => confirmedIsVerified_step

/-- The administrator enrolls and signs in with a later code. -/
def enrollmentRun : List Action :=
  [.read (.login "U*U" []), .write 0 { time := 1699999900 },
    .read (.mfaSetup ⟨1, false⟩),
    .write 0 { time := 1699999910, newSecret := "JBSWY3DPEHPK3PXPJBSWY3DPEHPK3PXP" },
    .read (.mfaConfirm ⟨1, false⟩ "406058"), .write 0 { time := 1699999980 },
    .read (.login "U*U" "996875"), .write 0 { time := 1700000040 }]

theorem confirmed_secret_verified_enrollment :
    ∃ s : State, (s.row.mfaEnrolled = true ∧ s.row.mfaLastCounter = 56666668) ∧
      ConfirmedIsVerified s := by
  obtain ⟨s, hReach, hEnrolled⟩ :
      ∃ s, Runs.Reach (step sampleConfig) (Start 1) (SecretUnmoved sampleConfig) s ∧
        s.row.mfaEnrolled = true ∧ s.row.mfaLastCounter = 56666668 :=
    Runs.Reach.exists_of_exec enrollmentRun (start_newAccount .admin sampleAdmin.passwordHash)
      (by decide +kernel)
  exact ⟨s, hEnrolled, confirmed_secret_verified hReach⟩

/-- A confirmation reads the first secret; a second setup replaces it before the confirmation
commits. -/
def replacedSecretRun : List Action :=
  [.read (.login "U*U" []), .write 0 { time := 1699999900 },
    .read (.mfaSetup ⟨1, false⟩),
    .write 0 { time := 1699999910, newSecret := "JBSWY3DPEHPK3PXPJBSWY3DPEHPK3PXP" },
    .read (.mfaConfirm ⟨1, false⟩ "406058"),
    .read (.mfaSetup ⟨1, false⟩),
    .write 1 { time := 1699999975, newSecret := "KRSXG5CTMVRXEZLUKRSXG5CTMVRXEZLU" },
    .write 0 { time := 1699999980 }]

theorem unverified_secret_enrolled :
    ∃ s, Runs.Reach (step sampleConfig) (Start 1) Runs.Always s ∧
      s.row.mfaEnrolled = true ∧ ¬ ConfirmedIsVerified s :=
  Runs.Reach.exists_of_exec replacedSecretRun
    (start_newAccount .admin sampleAdmin.passwordHash) (by decide +kernel)

end GpuMon.Account

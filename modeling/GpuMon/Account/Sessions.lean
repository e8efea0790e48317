import GpuMon.Account.System

/-!
# Revoking sessions

Every revoking request adds one to `token_version`, and a token is accepted only while its
version is the account's. Three ways of writing meet on that column. The SQL increments and
the compare-and-swaps add to the version stored; the break-glass script sends the version it
read plus one.

* `tokenVersion_counts_revocations`: as long as every break-glass write finds the version it
  read, the version counts the revocations and a revoked token stays refused.
* `staleRecovery_revives_token`: a run in which it does not.
-/

namespace GpuMon.Account

variable {cfg : Config} {v₀ : Int}

/-- The version has been counting revocations, and nobody holds a version from the future. -/
structure VersionInv (v₀ : Int) (s : State) : Prop where
  counts : s.row.tokenVersion = v₀ + s.revocations
  pending : ∀ p ∈ s.pending, p.user.tokenVersion ≤ s.row.tokenVersion
  issued : ∀ token ∈ s.issued, token.ver ≤ s.row.tokenVersion
  revoked : ∀ token ∈ s.revoked, token.ver < s.row.tokenVersion

/-- A break-glass reset writes only while the version is the one it read. -/
def BreakGlassCurrent (s : State) : Action → Prop
  | .read _ => True
  | .write i _ => ∀ p ∈ s.pending[i]?, p.request = .resetAdminMfa →
      s.row.tokenVersion = p.user.tokenVersion

instance (s : State) (a : Action) : Decidable (BreakGlassCurrent s a) :=
  match a with
  | .read _ => isTrue trivial
  | .write _ _ => by
    unfold BreakGlassCurrent
    infer_instance

section Effects

variable {amb : Ambient} {user stored : User} {r : Request} {o : Outcome}

theorem Effect.tokenVersion (h : Effect cfg amb user stored r o)
    (hCurrent : r = .resetAdminMfa → stored.tokenVersion = user.tokenVersion) :
    o.row.tokenVersion = stored.tokenVersion + o.revokes.toNat := by
  cases h with
  | signIn => simp
  | signInMfa _ _ => simp
  | edit _ hVersion => exact hVersion
  | rekey _ => rfl
  | setup _ _ _ hVersion => simpa using hVersion
  | confirm _ _ => rfl
  | disable _ _ => rfl
  | reset _ hVersion => exact hVersion
  | breakGlass _ hVersion =>
    rw [hCurrent rfl]
    exact hVersion

theorem tokenVersion_of_mfaGuard (h : mfaGuard user stored = true) :
    stored.tokenVersion = user.tokenVersion := by
  simp only [mfaGuard, Bool.and_eq_true, decide_eq_true_eq] at h
  exact h.2

/-- The token of an answer carries the version the request left, or the older one it read. -/
theorem Effect.token_le (h : Effect cfg amb user stored r o)
    (hRead : user.tokenVersion ≤ stored.tokenVersion) :
    ∀ token ∈ o.token, token.ver ≤ o.row.tokenVersion := by
  intro token hToken
  cases h with
  | signIn => cases hToken; exact hRead
  | signInMfa _ _ => cases hToken; exact hRead
  | edit _ _ => cases hToken
  | rekey hSame => cases hToken; simp [incrementTokenVersion, hSame]
  | setup _ _ _ _ => cases hToken
  | confirm _ hAccepts =>
    cases hToken
    simp [incrementTokenVersion, tokenVersion_of_mfaGuard hAccepts.unmoved]
  | disable _ hAccepts =>
    cases hToken
    simp [incrementTokenVersion, User.withoutMfa, tokenVersion_of_mfaGuard hAccepts.unmoved]
  | reset _ _ => cases hToken
  | breakGlass _ _ => cases hToken

end Effects

theorem versionInv_start {s : State} (h : Start v₀ s) : VersionInv v₀ s where
  counts := by simp [h.version, h.revocations]
  pending := by simp [h.idle]
  issued := by simpa [h.version] using h.issued
  revoked := by simp [h.revoked]

theorem versionInv_step {s s' : State} {a : Action} (hInv : VersionInv v₀ s)
    (hOk : BreakGlassCurrent s a) (h : step cfg s a = some s') : VersionInv v₀ s' := by
  rcases step_cases h with ⟨r, rfl, rfl⟩ | ⟨i, amb, p, rfl, hp, rfl⟩ |
    ⟨i, amb, p, o, rfl, hp, hEffect, rfl⟩
  · refine { hInv with pending := ?_ }
    intro q hq
    rcases mem_receive hq with hq | rfl
    · exact hInv.pending q hq
    · exact le_refl _
  · exact { hInv with pending := fun q hq => hInv.pending q (mem_of_mem_eraseIdx hq) }
  · have hRead := hInv.pending p (List.mem_of_getElem? hp)
    have hVersion := hEffect.tokenVersion (hOk p (Option.mem_def.mpr hp))
    have hMono : s.row.tokenVersion ≤ o.row.tokenVersion := by omega
    refine ⟨?_, ?_, ?_, ?_⟩
    · have hCounts := hInv.counts
      simp only [State.commit]
      push_cast
      omega
    · intro q hq
      exact (hInv.pending q (mem_of_mem_eraseIdx hq)).trans hMono
    · intro token hToken
      rcases List.mem_append.mp hToken with hToken | hToken
      · exact (hInv.issued token hToken).trans hMono
      · exact hEffect.token_le hRead token (Option.mem_toList.mp hToken)
    · intro token hToken
      simp only [State.commit] at hToken ⊢
      split at hToken
      · rename_i hRevokes
        have hIssued := hInv.issued token hToken
        rw [hVersion, hRevokes]
        simp only [Bool.toNat_true, Nat.cast_one]
        omega
      · exact (hInv.revoked token hToken).trans_le hMono

theorem versionInv_of_reach {s : State}
    (h : Runs.Reach (step cfg) (Start v₀) BreakGlassCurrent s) : VersionInv v₀ s :=
  h.invariant (fun _ => versionInv_start) fun _ _ _ => versionInv_step

/-- In a run whose break-glass writes find the version they read, the version counts the
revocations, and a token that was out when the sessions were revoked is refused for good. -/
theorem tokenVersion_counts_revocations {s : State}
    (h : Runs.Reach (step cfg) (Start v₀) BreakGlassCurrent s) :
    s.row.tokenVersion = v₀ + s.revocations ∧
      ∀ token ∈ s.revoked, getCurrentUser s.row token = false := by
  have hInv := versionInv_of_reach h
  refine ⟨hInv.counts, ?_⟩
  intro token hToken
  have hOld := hInv.revoked token hToken
  have hNe : s.row.tokenVersion ≠ token.ver := by omega
  simp [getCurrentUser, hNe]

def signInAt (time : Int) : List Action := [.read (.login "U*U" []), .write 0 { time }]

/-- The administrator signs in, signs out, signs in again and recovers the account from the
host. -/
def recoveryRun : List Action :=
  signInAt 1700000000 ++ [.read (.logout ⟨1, false⟩), .write 0 { time := 1700000010 }] ++
    signInAt 1700000020 ++ [.read .resetAdminMfa, .write 0 { time := 1700000030 }]

theorem tokenVersion_counts_revocations_recovery :
    ∃ s : State, (s.revocations = 2 ∧ s.revoked = [⟨1, false⟩, ⟨2, false⟩]) ∧
      s.row.tokenVersion = 1 + s.revocations ∧
      ∀ token ∈ s.revoked, getCurrentUser s.row token = false := by
  obtain ⟨s, hReach, hRevoked⟩ :
      ∃ s, Runs.Reach (step sampleConfig) (Start 1) BreakGlassCurrent s ∧
        s.revocations = 2 ∧ s.revoked = [⟨1, false⟩, ⟨2, false⟩] :=
    Runs.Reach.exists_of_exec recoveryRun (start_newAccount .admin sampleAdmin.passwordHash)
      (by decide +kernel)
  exact ⟨s, hRevoked, tokenVersion_counts_revocations hReach⟩

/-- The break-glass script reads version 1. A sign-out makes it 2 and a sign-in hands out a
token with version 2; then the script writes 2. -/
def staleRecoveryRun : List Action :=
  signInAt 1700000000 ++
    [.read .resetAdminMfa,
      .read (.logout ⟨1, false⟩), .write 1 { time := 1700000010 },
      .read (.login "U*U" []), .write 1 { time := 1700000020 },
      .write 0 { time := 1700000030 }]

/-- One revocation is not counted, and a token that was out when the script committed is still
accepted. -/
theorem staleRecovery_revives_token :
    ∃ s, Runs.Reach (step sampleConfig) (Start 1) Runs.Always s ∧
      s.row.tokenVersion ≠ 1 + s.revocations ∧
      ∃ token ∈ s.revoked, getCurrentUser s.row token = true :=
  Runs.Reach.exists_of_exec staleRecoveryRun
    (start_newAccount .admin sampleAdmin.passwordHash) (by decide +kernel)

end GpuMon.Account

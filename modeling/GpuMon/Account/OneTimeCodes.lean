import GpuMon.Account.Sessions

/-!
# A one-time code is accepted once

`verify_totp` accepts only counters above the last one used, and the compare-and-swap lets one
of several requests with the same snapshot commit. A setup, a disabling or a reset moves the
counter back to `-1`, but takes the secret with it, or the version forward.

The one exception is a reset that finds no secret to clear but still sees a counter: it sends
the counter alone, and may put back the counter of a secret enrolled since.

* `oneTimeCodes_nodup`: in every run without such a reset, no pair of a secret and a counter is
  accepted twice.
* `code_accepted_twice`: a run with one.
-/

namespace GpuMon.Account

variable {cfg : Config} {v₀ : Int}

/-- What the property presupposes: new secrets are new, and nobody uses the break-glass script
(a dry run reads and never writes). -/
def OnlineRequests (s : State) : Action → Prop
  | .read _ => True
  | .write i amb => ∀ p ∈ s.pending[i]?, p.request ≠ .resetAdminMfa ∧
      ∀ token ∈ p.request.token?, p.request = .mfaSetup token → amb.newSecret ∉ s.generated

/-- A reset that read no secret but a counter writes only while there is no secret, or no
counter, either. -/
def ResetKeepsCounter (s : State) : Action → Prop
  | .read _ => True
  | .write i _ => ∀ p ∈ s.pending[i]?, p.request = .resetUserMfa →
      p.user.mfaSecret = none → p.user.mfaLastCounter ≠ -1 →
        s.row.mfaSecret = none ∨ s.row.mfaLastCounter = -1

instance (s : State) (a : Action) : Decidable (OnlineRequests s a) :=
  match a with
  | .read _ => isTrue trivial
  | .write _ _ => by
    unfold OnlineRequests
    infer_instance

instance (s : State) (a : Action) : Decidable (ResetKeepsCounter s a) :=
  match a with
  | .read _ => isTrue trivial
  | .write _ _ => by
    unfold ResetKeepsCounter
    infer_instance

/-- The runs of the property. -/
def CounterKept (s : State) (a : Action) : Prop := OnlineRequests s a ∧ ResetKeepsCounter s a

instance (s : State) (a : Action) : Decidable (CounterKept s a) := by
  unfold CounterKept
  infer_instance

/-- An account has a counter exactly while it is confirmed: both columns are written together. -/
def CounterPaired (user : User) : Prop :=
  (user.mfaConfirmed = true ↔ user.mfaLastCounter ≠ -1) ∧ -1 ≤ user.mfaLastCounter

/-- A waiting request whose compare-and-swap would pass. -/
def Live (s : State) (p : Pending) : Prop := mfaGuard p.user s.row = true

structure CounterInv (s : State) : Prop where
  rowPaired : CounterPaired s.row
  pendingPaired : ∀ p ∈ s.pending, CounterPaired p.user
  rowSecret : ∀ secret ∈ s.row.mfaSecret, secret ∈ s.generated
  pendingSecret : ∀ p ∈ s.pending, ∀ secret ∈ p.user.mfaSecret, secret ∈ s.generated
  acceptedSecret : ∀ code ∈ s.accepted, code.1 ∈ s.generated
  /-- Within one version the counter grows, until it is dropped for good. -/
  pendingCounter : ∀ p ∈ s.pending, p.user.tokenVersion = s.row.tokenVersion →
    s.row.mfaLastCounter = -1 ∨
      (p.user.mfaLastCounter ≠ -1 ∧ p.user.mfaLastCounter ≤ s.row.mfaLastCounter)
  /-- The stored counter covers the codes accepted for the stored secret. -/
  rowCovers : ∀ code ∈ s.accepted, s.row.mfaSecret = some code.1 → code.2 ≤ s.row.mfaLastCounter
  /-- So does the counter that a live request has read, for the secret it has read. -/
  liveCovers : ∀ p ∈ s.pending, Live s p → ∀ code ∈ s.accepted,
    p.user.mfaSecret = some code.1 → code.2 ≤ p.user.mfaLastCounter
  acceptedNodup : s.accepted.Nodup

theorem mfaGuard_iff {user stored : User} : mfaGuard user stored = true ↔
    stored.mfaLastCounter = user.mfaLastCounter ∧ stored.tokenVersion = user.tokenVersion := by
  simp [mfaGuard]

theorem counterInv_start {s : State} (h : Start v₀ s) : CounterInv s where
  rowPaired := ⟨h.counter, h.counterLow⟩
  pendingPaired := by simp [h.idle]
  rowSecret := h.generated
  pendingSecret := by simp [h.idle]
  acceptedSecret := by simp [h.accepted]
  pendingCounter := by simp [h.idle]
  rowCovers := by simp [h.accepted]
  liveCovers := by simp [h.idle]
  acceptedNodup := by simp [h.accepted]

theorem counterInv_receive {s : State} (hInv : CounterInv s) (r : Request) :
    CounterInv (s.receive r) := by
  refine { hInv with
    pendingPaired := ?_
    pendingSecret := ?_
    pendingCounter := ?_
    liveCovers := ?_ }
  · intro p hp
    rcases mem_receive hp with hp | rfl
    · exact hInv.pendingPaired p hp
    · exact hInv.rowPaired
  · intro p hp
    rcases mem_receive hp with hp | rfl
    · exact hInv.pendingSecret p hp
    · exact hInv.rowSecret
  · intro p hp
    rcases mem_receive hp with hp | rfl
    · exact hInv.pendingCounter p hp
    · intro _
      change s.row.mfaLastCounter = -1 ∨ (s.row.mfaLastCounter ≠ -1 ∧ _)
      by_cases hCounter : s.row.mfaLastCounter = -1
      · exact .inl hCounter
      · exact .inr ⟨hCounter, le_refl _⟩
  · intro p hp
    rcases mem_receive hp with hp | rfl
    · exact hInv.liveCovers p hp
    · intro _
      exact hInv.rowCovers

theorem counterInv_reject {s : State} (hInv : CounterInv s) (i : Nat) :
    CounterInv (s.reject i) where
  rowPaired := hInv.rowPaired
  pendingPaired := fun p hp => hInv.pendingPaired p (mem_of_mem_eraseIdx hp)
  rowSecret := hInv.rowSecret
  pendingSecret := fun p hp => hInv.pendingSecret p (mem_of_mem_eraseIdx hp)
  acceptedSecret := hInv.acceptedSecret
  pendingCounter := fun p hp => hInv.pendingCounter p (mem_of_mem_eraseIdx hp)
  rowCovers := hInv.rowCovers
  liveCovers := fun p hp => hInv.liveCovers p (mem_of_mem_eraseIdx hp)
  acceptedNodup := hInv.acceptedNodup

/-- What a write has to show: the columns it leaves, the code it accepts, and that the requests
still waiting are covered by the new row. -/
theorem counterInv_commit {s : State} (hInv : CounterInv s) (i : Nat) {o : Outcome}
    (hPaired : CounterPaired o.row)
    (hSecret : ∀ secret ∈ o.row.mfaSecret, secret ∈ s.generated ∨ secret ∈ o.enrolls)
    (hAccepted : ∀ code ∈ o.accepted, code.1 ∈ s.generated ∧ code ∉ s.accepted)
    (hRow : ∀ code, code ∈ s.accepted ∨ code ∈ o.accepted → o.row.mfaSecret = some code.1 →
      code.2 ≤ o.row.mfaLastCounter)
    (hPending : ∀ p ∈ s.pending, p.user.tokenVersion = o.row.tokenVersion →
      o.row.mfaLastCounter = -1 ∨
        (p.user.mfaLastCounter ≠ -1 ∧ p.user.mfaLastCounter ≤ o.row.mfaLastCounter))
    (hLive : ∀ p ∈ s.pending, mfaGuard p.user o.row = true →
      ∀ code, code ∈ s.accepted ∨ code ∈ o.accepted → p.user.mfaSecret = some code.1 →
        code.2 ≤ p.user.mfaLastCounter) :
    CounterInv (s.commit i o) where
  rowPaired := hPaired
  pendingPaired := fun p hp => hInv.pendingPaired p (mem_of_mem_eraseIdx hp)
  rowSecret := by simpa [State.commit] using hSecret
  pendingSecret := by
    intro p hp secret hRead
    exact List.mem_append_left _ (hInv.pendingSecret p (mem_of_mem_eraseIdx hp) secret hRead)
  acceptedSecret := by
    intro code hCode
    rcases List.mem_append.mp hCode with hOld | hNew
    · exact List.mem_append_left _ (hInv.acceptedSecret code hOld)
    · exact List.mem_append_left _ (hAccepted code (Option.mem_toList.mp hNew)).1
  pendingCounter := fun p hp => hPending p (mem_of_mem_eraseIdx hp)
  rowCovers := by simpa [State.commit] using hRow
  liveCovers := by
    intro p hp hGuard code hCode
    exact hLive p (mem_of_mem_eraseIdx hp) hGuard code (by simpa [State.commit] using hCode)
  acceptedNodup := by
    refine List.Nodup.append hInv.acceptedNodup (Option.toList_nodup _) ?_
    intro code hOld hNew
    exact (hAccepted code (Option.mem_toList.mp hNew)).2 hOld

/-- A write that leaves the MFA columns alone. -/
theorem counterInv_sameMfa {s : State} (hInv : CounterInv s) (hVersion : VersionInv v₀ s)
    (i : Nat) {o : Outcome} (hSame : SameMfa s.row o.row)
    (hMono : s.row.tokenVersion ≤ o.row.tokenVersion) (hNone : o.accepted = none) :
    CounterInv (s.commit i o) := by
  obtain ⟨hSecret, hConfirmed, hCounter⟩ := hSame
  have hStay : ∀ p ∈ s.pending, p.user.tokenVersion = o.row.tokenVersion →
      p.user.tokenVersion = s.row.tokenVersion := by
    intro p hp hEq
    have hOld := hVersion.pending p hp
    omega
  apply counterInv_commit hInv i
  · unfold CounterPaired
    rw [hConfirmed, hCounter]
    exact hInv.rowPaired
  · intro secret hRow
    exact .inl (hInv.rowSecret secret (hSecret ▸ hRow))
  · simp [hNone]
  · intro code hCode hRow
    rw [hCounter]
    exact hInv.rowCovers code (by simpa [hNone] using hCode) (hSecret ▸ hRow)
  · intro p hp hEq
    rw [hCounter]
    exact hInv.pendingCounter p hp (hStay p hp hEq)
  · intro p hp hGuard code hCode
    obtain ⟨hC, hV⟩ := mfaGuard_iff.mp hGuard
    exact hInv.liveCovers p hp
      (mfaGuard_iff.mpr ⟨hCounter ▸ hC, (hStay p hp hV.symm).symm⟩) code
      (by simpa [hNone] using hCode)

/-- A write that moves the version forward leaves no waiting request live. -/
theorem counterInv_bump {s : State} (hInv : CounterInv s) (hVersion : VersionInv v₀ s)
    (i : Nat) {o : Outcome} (hBump : o.row.tokenVersion = s.row.tokenVersion + 1)
    (hPaired : CounterPaired o.row)
    (hSecret : ∀ secret ∈ o.row.mfaSecret, s.row.mfaSecret = some secret)
    (hAccepted : ∀ code ∈ o.accepted, code.1 ∈ s.generated ∧ code ∉ s.accepted)
    (hRow : ∀ code, code ∈ s.accepted ∨ code ∈ o.accepted → o.row.mfaSecret = some code.1 →
      code.2 ≤ o.row.mfaLastCounter) :
    CounterInv (s.commit i o) := by
  have hOld : ∀ p ∈ s.pending, p.user.tokenVersion ≠ o.row.tokenVersion := by
    intro p hp
    have hLe := hVersion.pending p hp
    omega
  apply counterInv_commit hInv i hPaired _ hAccepted hRow
  · intro p hp hEq
    exact absurd hEq (hOld p hp)
  · intro p hp hGuard
    exact absurd (mfaGuard_iff.mp hGuard).2.symm (hOld p hp)
  · intro secret hNew
    exact .inl (hInv.rowSecret secret (hSecret secret hNew))

section Accepting

variable {s : State} {r : Request} {user : User} {code secret : Text} {counter time : Int}

/-- A code that is accepted now was not accepted before. -/
theorem Accepts.fresh (hInv : CounterInv s) (hp : ⟨r, user⟩ ∈ s.pending)
    (h : Accepts cfg time user s.row code secret counter) :
    secret ∈ s.generated ∧ (secret, counter) ∉ s.accepted := by
  refine ⟨hInv.pendingSecret _ hp secret h.enrolled, ?_⟩
  intro hUsed
  have hCovered := hInv.liveCovers _ hp h.unmoved (secret, counter) hUsed h.enrolled
  have hAbove := lt_of_verifyTotp h.verified
  dsimp only at hCovered
  omega

theorem Accepts.lt_counter (h : Accepts cfg time user s.row code secret counter) :
    s.row.mfaLastCounter < counter := by
  rw [(mfaGuard_iff.mp h.unmoved).1]
  exact lt_of_verifyTotp h.verified

theorem Accepts.covers (hInv : CounterInv s)
    (h : Accepts cfg time user s.row code secret counter) {used : Text × Int}
    (hUsed : used ∈ s.accepted ∨ used ∈ some (secret, counter))
    (hRow : s.row.mfaSecret = some used.1) : used.2 ≤ counter := by
  rcases hUsed with hOld | hNew
  · exact (hInv.rowCovers used hOld hRow).trans h.lt_counter.le
  · cases hNew
    exact le_refl _

theorem Accepts.paired (hInv : CounterInv s)
    (h : Accepts cfg time user s.row code secret counter) : counter ≠ -1 ∧ -1 ≤ counter := by
  have hLow := hInv.rowPaired.2
  have hAbove := h.lt_counter
  omega

/-- A sign-in of an enrolled account moves its counter up within the version. -/
theorem counterInv_signIn (hInv : CounterInv s) (hp : ⟨r, user⟩ ∈ s.pending) (i : Nat) {token : Token}
    (hConfirmed : user.mfaConfirmed = true)
    (h : Accepts cfg time user s.row code secret counter) :
    CounterInv (s.commit i
      { row := { s.row with mfaLastCounter := counter }
        token := some token, accepted := some (secret, counter) }) := by
  have hUnmoved := mfaGuard_iff.mp h.unmoved
  have hUsed : s.row.mfaLastCounter ≠ -1 := by
    rw [hUnmoved.1]
    exact (hInv.pendingPaired _ hp).1.mp hConfirmed
  have hBelow : ∀ q ∈ s.pending, q.user.tokenVersion = s.row.tokenVersion →
      q.user.mfaLastCounter ≠ -1 ∧ q.user.mfaLastCounter ≤ s.row.mfaLastCounter :=
    fun q hq hEq => (hInv.pendingCounter q hq hEq).resolve_left hUsed
  have hAbove := h.lt_counter
  apply counterInv_commit hInv i
  · exact ⟨⟨fun _ => (h.paired hInv).1, fun _ => hInv.rowPaired.1.mpr hUsed⟩, (h.paired hInv).2⟩
  · intro other hRow
    exact .inl (hInv.rowSecret other hRow)
  · intro used hNew
    cases hNew
    exact h.fresh hInv hp
  · intro used hCode hRow
    exact h.covers hInv hCode hRow
  · intro q hq hEq
    have hLe := (hBelow q hq hEq).2
    exact .inr ⟨(hBelow q hq hEq).1, hLe.trans hAbove.le⟩
  · intro q hq hGuard
    -- no other snapshot can carry the counter just consumed
    have hLe := (hBelow q hq (mfaGuard_iff.mp hGuard).2.symm).2
    have hEq : counter = q.user.mfaLastCounter := (mfaGuard_iff.mp hGuard).1
    omega

end Accepting

section Clearing

variable {user stored row : User}

theorem ClearedSince.paired (h : ClearedSince user stored row) (hUser : CounterPaired user)
    (hStored : CounterPaired stored) : CounterPaired row := by
  unfold CounterPaired
  rw [h.confirmed, h.counter]
  by_cases hRead : user.mfaConfirmed = false
  · have hCounter : user.mfaLastCounter = -1 := by
      by_contra hNe
      rw [hUser.1.mpr hNe] at hRead
      cases hRead
    rw [if_pos hRead, if_pos hCounter]
    exact hStored
  · have hCounter : user.mfaLastCounter ≠ -1 := hUser.1.mp (by simpa using hRead)
    rw [if_neg hRead, if_neg hCounter]
    decide

/-- Clearing keeps the stored counter or drops it. -/
theorem ClearedSince.counter_cases (h : ClearedSince user stored row) :
    row.mfaLastCounter = stored.mfaLastCounter ∨ row.mfaLastCounter = -1 := by
  rw [h.counter]
  split
  · exact .inl rfl
  · exact .inr rfl

theorem ClearedSince.secret_cases (h : ClearedSince user stored row) {secret : Text}
    (hRow : row.mfaSecret = some secret) :
    user.mfaSecret = none ∧ stored.mfaSecret = some secret := by
  have hSecret := h.secret
  rw [hRow] at hSecret
  split at hSecret
  · rename_i hRead
    exact ⟨hRead, hSecret.symm⟩
  · cases hSecret

end Clearing

/-- A setup puts a fresh secret in place, for which nothing was accepted yet. -/
theorem counterInv_setup {s : State} (hInv : CounterInv s) {p : Pending} (hp : p ∈ s.pending)
    (i : Nat) {row : User} {secret : Text} (hFresh : secret ∉ s.generated)
    (hCleared : ClearedSince p.user s.row row) (hStay : row.tokenVersion = s.row.tokenVersion) :
    CounterInv (s.commit i
      { row := { row with mfaSecret := some secret }, enrolls := some secret }) := by
  have hKeep := hCleared.counter_cases
  apply counterInv_commit hInv i
  · exact hCleared.paired (hInv.pendingPaired p hp) hInv.rowPaired
  · intro other hOther
    exact .inr hOther
  · simp
  · intro code hCode hRow
    have hUsed := hInv.acceptedSecret code (by simpa using hCode)
    cases hRow
    exact absurd hUsed hFresh
  · intro q hq hEq
    rcases hKeep with hSame | hDropped
    · dsimp only
      rw [hSame]
      exact hInv.pendingCounter q hq (hEq.trans hStay)
    · exact .inl hDropped
  · intro q hq hGuard code hCode
    obtain ⟨hC, hV⟩ := mfaGuard_iff.mp hGuard
    dsimp only at hC hV
    have hEq : q.user.tokenVersion = s.row.tokenVersion := hV.symm.trans hStay
    have hLive : mfaGuard q.user s.row = true := by
      -- a counter of -1 within this version means that the stored one was dropped before
      rcases hInv.pendingCounter q hq hEq with hRow | hRow <;> rcases hKeep with hSame | hDropped <;>
        exact mfaGuard_iff.mpr ⟨by omega, hEq.symm⟩
    exact hInv.liveCovers q hq hLive code (by simpa using hCode)

theorem counterInv_effect {s : State} {i : Nat} {amb : Ambient} {r : Request} {user : User}
    {o : Outcome} (hInv : CounterInv s) (hVersion : VersionInv v₀ s)
    (hOk : CounterKept s (.write i amb)) (hp : s.pending[i]? = some ⟨r, user⟩)
    (hEffect : Effect cfg amb user s.row r o) : CounterInv (s.commit i o) := by
  have hMem : (⟨r, user⟩ : Pending) ∈ s.pending := List.mem_of_getElem? hp
  obtain ⟨hOnline, hFresh⟩ := hOk.1 _ hp
  have hReset := hOk.2 _ hp
  dsimp only at hOnline hFresh hReset
  cases hEffect with
  | signIn => exact counterInv_sameMfa hInv hVersion i ⟨rfl, rfl, rfl⟩ (le_refl _) rfl
  | signInMfa hConfirmed hAccepts => exact counterInv_signIn hInv hMem i hConfirmed hAccepts
  | edit hSame hRow =>
    refine counterInv_sameMfa hInv hVersion i hSame ?_ rfl
    dsimp only
    omega
  | rekey _ =>
    refine counterInv_sameMfa hInv hVersion i ⟨rfl, rfl, rfl⟩ ?_ rfl
    simp [incrementTokenVersion]
  | @setup token row _ _ hCleared hStay =>
    exact counterInv_setup hInv hMem i (hFresh token rfl rfl) hCleared hStay
  | confirm _ hAccepts =>
    refine counterInv_bump hInv hVersion i rfl ?_ (fun _ hRow => hRow) ?_ ?_
    · exact ⟨⟨fun _ => (hAccepts.paired hInv).1, fun _ => rfl⟩, (hAccepts.paired hInv).2⟩
    · intro used hNew
      cases hNew
      exact hAccepts.fresh hInv hMem
    · intro used hCode hRow
      exact hAccepts.covers hInv hCode hRow
  | disable _ hAccepts =>
    refine counterInv_bump hInv hVersion i rfl (by simp [CounterPaired, User.withoutMfa])
      (fun _ hRow => by cases hRow) ?_ (fun _ _ hRow => by cases hRow)
    intro used hNew
    cases hNew
    exact hAccepts.fresh hInv hMem
  | @reset row hCleared hBump =>
    refine counterInv_bump hInv hVersion i hBump
      (hCleared.paired (hInv.pendingPaired _ hMem) hInv.rowPaired)
      (fun _ hRow => (hCleared.secret_cases hRow).2) (by simp) ?_
    intro code hCode hRow
    obtain ⟨hRead, hStored⟩ := hCleared.secret_cases hRow
    have hCovered := hInv.rowCovers code (by simpa using hCode) hStored
    have hCounter := hCleared.counter
    dsimp only
    split at hCounter
    · omega
    · rename_i hNe
      rcases hReset rfl hRead hNe with hNone | hDropped
      · rw [hStored] at hNone
        cases hNone
      · omega
  | breakGlass _ _ => exact absurd rfl hOnline

theorem counterInv_step {s s' : State} {a : Action} (hVersion : VersionInv v₀ s)
    (hInv : CounterInv s) (hOk : CounterKept s a) (h : step cfg s a = some s') :
    CounterInv s' := by
  rcases step_cases h with ⟨r, rfl, rfl⟩ | ⟨i, amb, p, rfl, hp, rfl⟩ |
    ⟨i, amb, p, o, rfl, hp, hEffect, rfl⟩
  · exact counterInv_receive hInv r
  · exact counterInv_reject hInv i
  · exact counterInv_effect hInv hVersion hOk hp hEffect

theorem breakGlassCurrent_of_counterKept {s : State} {a : Action} (h : CounterKept s a) :
    BreakGlassCurrent s a := by
  cases a with
  | read r => trivial
  | write i amb =>
    intro p hp hBreakGlass
    exact absurd hBreakGlass (h.1 p hp).1

/-- In a run whose resets do not put back the counter of a later enrollment, a one-time code
is accepted at most once. -/
theorem oneTimeCodes_nodup {s : State}
    (h : Runs.Reach (step cfg) (Start v₀) CounterKept s) : s.accepted.Nodup := by
  have hVersion : ∀ t, Runs.Reach (step cfg) (Start v₀) CounterKept t → VersionInv v₀ t :=
    fun t ht => versionInv_of_reach (ht.mono fun _ _ => breakGlassCurrent_of_counterKept)
  have hInv : CounterInv s := h.invariant_of hVersion (fun _ => counterInv_start)
    fun _ _ _ hJ _ hI hOk hStep => counterInv_step hJ hI hOk hStep
  exact hInv.acceptedNodup

def signInNow (i : Nat) : List Action :=
  [.read (.login "U*U" []), .write i { time := 1699999900 }]

/-- Two enrollments with a reset in between, which finds the first one complete. -/
def enrollTwiceRun : List Action :=
  signInNow 0 ++
    [.read (.mfaSetup ⟨1, false⟩),
      .write 0 { time := 1699999910, newSecret := "JBSWY3DPEHPK3PXPJBSWY3DPEHPK3PXP" },
      .read (.mfaConfirm ⟨1, false⟩ "406058"), .write 0 { time := 1699999980 },
      .read .resetUserMfa, .write 0 { time := 1699999990 }] ++
  signInNow 0 ++
    [.read (.mfaSetup ⟨3, false⟩),
      .write 0 { time := 1700000000, newSecret := "KRSXG5CTMVRXEZLUKRSXG5CTMVRXEZLU" },
      .read (.mfaConfirm ⟨3, false⟩ "763219"), .write 0 { time := 1700000040 }]

theorem oneTimeCodes_nodup_enrollTwice :
    ∃ s : State, s.accepted.map Prod.snd = [56666666, 56666668] ∧ s.accepted.Nodup := by
  obtain ⟨s, hReach, hAccepted⟩ :
      ∃ s, Runs.Reach (step sampleConfig) (Start 1) CounterKept s ∧
        s.accepted.map Prod.snd = [56666666, 56666668] :=
    Runs.Reach.exists_of_exec enrollTwiceRun (start_newAccount .admin sampleAdmin.passwordHash)
      (by decide +kernel)
  exact ⟨s, hAccepted, oneTimeCodes_nodup hReach⟩

/-- Two resets. The first reads an unconfirmed secret and clears it after the confirmation,
leaving a counter without a secret. The second reads that row and writes after the next
enrollment is confirmed: it sends the counter and the confirmation, not the secret. -/
def lateResetRun : List Action :=
  signInNow 0 ++
    [.read (.mfaSetup ⟨1, false⟩),
      .write 0 { time := 1699999910, newSecret := "JBSWY3DPEHPK3PXPJBSWY3DPEHPK3PXP" },
      .read .resetUserMfa,
      .read (.mfaConfirm ⟨1, false⟩ "406058"), .write 1 { time := 1699999980 },
      .write 0 { time := 1699999985 },
      .read .resetUserMfa] ++
  signInNow 1 ++
    [.read (.mfaSetup ⟨3, false⟩),
      .write 1 { time := 1700000000, newSecret := "KRSXG5CTMVRXEZLUKRSXG5CTMVRXEZLU" },
      .read (.mfaConfirm ⟨3, false⟩ "763219"), .write 1 { time := 1700000040 },
      .write 0 { time := 1700000042 }] ++
  signInNow 0 ++
    [.read (.mfaConfirm ⟨5, false⟩ "763219"), .write 0 { time := 1700000050 }]

theorem code_accepted_twice :
    ∃ s, Runs.Reach (step sampleConfig) (Start 1) OnlineRequests s ∧
      s.accepted.count (("KRSXG5CTMVRXEZLUKRSXG5CTMVRXEZLU" : Text), 56666668) = 2 ∧
        ¬ s.accepted.Nodup :=
  Runs.Reach.exists_of_exec lateResetRun
    (start_newAccount .admin sampleAdmin.passwordHash) (by decide +kernel)

end GpuMon.Account

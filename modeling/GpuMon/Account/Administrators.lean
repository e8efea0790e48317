import GpuMon.Account.Users
import GpuMon.Library.Runs

/-!
# Administrators (`api/users.py`, `security.py`)

An administrator creates, updates and deletes accounts, but neither demotes, disables nor deletes
the own one. A request reads the row of its sender when it is authenticated and authorised, and
commits later; other requests commit in between, and the sender is not read again.

* `admin_remains`: an active administrator remains in every run in which the sender of a request
  that takes one away is still an active administrator at the commit.
* `commitOk_after_begin`: that is so where a request commits before another one does.
* `admins_remove_each_other`: two administrators that delete each other leave none.
-/

namespace GpuMon.Administrators

open PyText Runs Account

/-! ## Requests -/

/-- `UserCreate`. -/
structure UserCreate where
  username : Text
  password : Text
  displayName : Text := []
  email : Text := []
  role : Role := .viewer

/-- `UserUpdate`; a field that is `none` was not sent or is null. -/
structure UserUpdate where
  displayName : Option Text := none
  email : Option Text := none
  role : Option Role := none
  isActive : Option Bool := none
  password : Option Text := none

inductive AdminRequest
  | createUser (body : UserCreate)
  | updateUser (userId : Nat) (body : UserUpdate)
  | deleteUser (userId : Nat)

/-- A request after `require_admin`, with the row it has read of its sender. -/
structure Pending where
  admin : UserRow
  request : AdminRequest

structure State where
  users : Table UserRow
  pending : List Pending := []

/-- What a commit draws: the salted hash of the new password and a new `auth_id`. -/
structure Drawn where
  newHash : Text := []
  authId : Text := []

/-- The row that `create_user` adds. -/
def newUser (drawn : Drawn) (body : UserCreate) (id : Nat) : UserRow where
  id := id
  username := body.username
  authId := drawn.authId
  displayName := if body.displayName = [] then body.username else body.displayName
  email := body.email
  role := body.role
  isActive := true
  passwordHash := drawn.newHash

theorem key_newUser (drawn : Drawn) (body : UserCreate) (id : Nat) :
    Keyed.key (newUser drawn body id) = id := rfl

/-- `create_user` after `require_admin`. -/
def createUser (drawn : Drawn) (users : Table UserRow) (body : UserCreate) :
    Except HttpError (Table UserRow) :=
  if users.rows.any fun user => user.username = body.username then
    .error ⟨409, "Username already exists"⟩
  else .ok (users.insert (newUser drawn body) (key_newUser drawn body))

/-- A row with new columns; its key is not among them. -/
def rewrite (row : User) (displayName email : Text) (stored : UserRow) : UserRow :=
  { stored with toUser := row, displayName, email }

theorem key_rewrite (row : User) (displayName email : Text) (stored : UserRow) :
    Keyed.key (rewrite row displayName email stored) = Keyed.key stored := rfl

/-- `update_user` after `require_admin`. The session has the row of its sender from the
authentication and reads any other row now; a row that is gone cannot be flushed. -/
def updateUser (drawn : Drawn) (users : Table UserRow) (admin : UserRow) (userId : Nat)
    (body : UserUpdate) : Except HttpError (Table UserRow) :=
  match if userId = admin.id then some admin else users.get? userId with
  | none => .error ⟨404, "User not found"⟩
  | some user =>
    let stored := (users.get? userId).getD user
    match Account.updateUser (userId = admin.id) body.role body.isActive body.password
        { time := 0, newHash := drawn.newHash } user.toUser stored.toUser with
    | .error e => .error e
    | .ok outcome =>
      if (users.get? userId).isNone then .error ⟨500, "Internal Server Error"⟩
      else .ok (users.modify userId
        (rewrite outcome.row
          (flushColumn user.displayName (body.displayName.getD user.displayName)
            stored.displayName)
          (flushColumn user.email (body.email.getD user.email) stored.email))
        (key_rewrite _ _ _))

/-- `delete_user` after `require_admin`. -/
def deleteUser (users : Table UserRow) (admin : UserRow) (userId : Nat) :
    Except HttpError (Table UserRow) :=
  if userId = admin.id then .error ⟨400, "Cannot delete yourself"⟩
  else if (users.get? userId).isNone then .error ⟨404, "User not found"⟩
  else .ok (users.filter fun user => user.id ≠ userId)

/-- The check and the committed write of a request. -/
def finish (drawn : Drawn) (users : Table UserRow) (p : Pending) :
    Except HttpError (Table UserRow) :=
  match p.request with
  | .createUser body => createUser drawn users body
  | .updateUser userId body => updateUser drawn users p.admin userId body
  | .deleteUser userId => deleteUser users p.admin userId

/-! ## Interleavings -/

inductive Action
  /-- A request is authenticated and authorised. -/
  | begin (payload : Payload) (request : AdminRequest)
  /-- The check and the commit of a waiting request. -/
  | commit (i : Nat) (drawn : Drawn)

/-- One step; a request that is refused changes no row. -/
def step (cfg : Config) (s : State) : Action → Option State
  | .begin payload request =>
    match authenticate s.users payload with
    | none => some s
    | some admin =>
      match requireAdminRow cfg admin payload with
      | .error _ => some s
      | .ok _ => some { s with pending := s.pending ++ [⟨admin, request⟩] }
  | .commit i drawn =>
    s.pending[i]?.map fun p =>
      { users := match finish drawn s.users p with
          | .ok users => users
          | .error _ => s.users
        pending := s.pending.eraseIdx i }

def isActiveAdmin (user : UserRow) : Bool := user.isAdmin && user.isActive

def HasActiveAdmin (users : Table UserRow) : Prop := ∃ user ∈ users.rows, isActiveAdmin user = true

instance (users : Table UserRow) : Decidable (HasActiveAdmin users) :=
  inferInstanceAs (Decidable (∃ user ∈ users.rows, isActiveAdmin user = true))

/-- No request is under way, and there is an active administrator. -/
def Initial (s : State) : Prop := s.pending = [] ∧ HasActiveAdmin s.users

/-- The account that a request demotes, disables or deletes. -/
def AdminRequest.takes : AdminRequest → Option Nat
  | .createUser _ => none
  | .updateUser userId body =>
    if body.role = some .viewer ∨ body.isActive = some false then some userId else none
  | .deleteUser userId => some userId

/-- The sender of a request that takes an active administrator away is one itself. -/
def SenderActive (users : Table UserRow) (p : Pending) : Prop :=
  (∃ user ∈ users.rows, some user.id = p.request.takes ∧ isActiveAdmin user = true) →
    ∃ user ∈ users.rows, user.id = p.admin.id ∧ isActiveAdmin user = true

instance (users : Table UserRow) (p : Pending) : Decidable (SenderActive users p) :=
  inferInstanceAs (Decidable (_ → _))

/-- Every commit has a sender that is still what it was authorised as. -/
def CommitOk (s : State) : Action → Prop
  | .begin _ _ => True
  | .commit i _ => ∀ p ∈ s.pending[i]?, SenderActive s.users p

instance (s : State) : (a : Action) → Decidable (CommitOk s a)
  | .begin _ _ => isTrue trivial
  | .commit i _ => inferInstanceAs (Decidable (∀ p ∈ s.pending[i]?, SenderActive s.users p))

/-! ## What a commit does -/

section Commit

variable {drawn : Drawn} {users users' : Table UserRow} {p : Pending}

theorem flushColumn_eq {α : Type} [DecidableEq α] (read stored : α) (given : Option α) :
    flushColumn read (given.getD read) stored = stored ∨
      given = some (flushColumn read (given.getD read) stored) := by
  cases given with
  | none => exact .inl (if_pos rfl)
  | some written =>
    unfold flushColumn
    rw [Option.getD_some]
    split
    · exact .inl rfl
    · exact .inr rfl

/-- A column is as stored or as requested, and nobody takes the own rights away. -/
theorem updateUser_effect {bySelf : Bool} {role : Option Role} {isActive : Option Bool}
    {password : Option Text} {amb : Ambient} {user stored : User} {outcome : Outcome}
    (h : Account.updateUser bySelf role isActive password amb user stored = .ok outcome) :
    (outcome.row.role = stored.role ∨ role = some outcome.row.role) ∧
      (outcome.row.isActive = stored.isActive ∨ isActive = some outcome.row.isActive) ∧
      (bySelf = true → role ≠ some .viewer ∧ isActive ≠ some false) := by
  unfold Account.updateUser at h
  dsimp only at h
  split at h
  · cases h
  rename_i hRole
  split at h
  · cases h
  rename_i hActive
  refine ⟨?_, ?_, fun hSelf => ⟨?_, ?_⟩⟩
  · have hColumn := flushColumn_eq user.role stored.role role
    split at h <;> cases h <;> exact hColumn
  · have hColumn := flushColumn_eq user.isActive stored.isActive isActive
    split at h <;> cases h <;> exact hColumn
  · rintro rfl
    exact hRole (by rw [hSelf]; rfl)
  · rintro rfl
    exact hActive (by rw [hSelf]; rfl)

theorem updateUser_ok {admin : UserRow} {userId : Nat} {body : UserUpdate}
    (h : updateUser drawn users admin userId body = .ok users') :
    ∃ user stored outcome displayName email, users.get? userId = some stored ∧
      Account.updateUser (userId = admin.id) body.role body.isActive body.password
        { time := 0, newHash := drawn.newHash } user stored.toUser = .ok outcome ∧
      users' = users.modify userId (rewrite outcome.row displayName email)
        (key_rewrite outcome.row displayName email) := by
  unfold updateUser at h
  split at h
  · cases h
  rename_i user hUser
  dsimp only at h
  split at h
  · cases h
  rename_i outcome hOutcome
  split at h
  · cases h
  rename_i hSome
  cases h
  cases hStored : users.get? userId with
  | none =>
    rw [hStored] at hSome
    exact absurd rfl hSome
  | some stored =>
    rw [hStored, Option.getD_some] at hOutcome
    exact ⟨user.toUser, stored, outcome, _, _, rfl, hOutcome, rfl⟩

theorem deleteUser_ok {admin : UserRow} {userId : Nat}
    (h : deleteUser users admin userId = .ok users') :
    userId ≠ admin.id ∧ users' = users.filter fun user => user.id ≠ userId := by
  unfold deleteUser at h
  split at h
  · cases h
  rename_i hOther
  split at h
  · cases h
  · cases h
    exact ⟨hOther, rfl⟩

/-- A role that is not taken away and was that of an administrator still is. -/
theorem isActiveAdmin_of_effect {role : Option Role} {isActive : Option Bool} {stored row : User}
    (hRole : row.role = stored.role ∨ role = some row.role)
    (hActive : row.isActive = stored.isActive ∨ isActive = some row.isActive)
    (hKept : ¬(role = some .viewer ∨ isActive = some false))
    (hStored : stored.isAdmin = true ∧ stored.isActive = true) :
    row.isAdmin = true ∧ row.isActive = true := by
  rw [not_or] at hKept
  constructor
  · rcases hRole with hSame | hGiven
    · unfold User.isAdmin
      rw [hSame]
      exact hStored.1
    · cases hValue : row.role with
      | admin =>
        unfold User.isAdmin
        rw [hValue]
        rfl
      | viewer => exact absurd (hValue ▸ hGiven) hKept.1
  · rcases hActive with hSame | hGiven
    · rw [hSame]
      exact hStored.2
    · cases hValue : row.isActive with
      | true => rfl
      | false => exact absurd (hValue ▸ hGiven) hKept.2

/-- A commit leaves an active administrator whom its request does not take away. -/
theorem finish_keeps (h : finish drawn users p = .ok users') {user : UserRow}
    (hMem : user ∈ users.rows) (hAdmin : isActiveAdmin user = true)
    (hKept : some user.id ≠ p.request.takes) : HasActiveAdmin users' := by
  unfold finish at h
  split at h
  · unfold createUser at h
    split at h
    · cases h
    · cases h
      exact ⟨user, Table.mem_insert.mpr (.inl hMem), hAdmin⟩
  · rename_i userId body hRequest
    obtain ⟨read, stored, outcome, displayName, email, hGet, hOutcome, rfl⟩ := updateUser_ok h
    by_cases hTarget : user.id = userId
    · obtain ⟨hStored, hKey⟩ := Table.get?_eq_some hGet
      obtain rfl := Table.eq_of_key_eq hMem hStored (hTarget.trans hKey.symm)
      obtain ⟨hRole, hActive, -⟩ := updateUser_effect hOutcome
      have hNotTaken : ¬(body.role = some .viewer ∨ body.isActive = some false) := by
        intro hTaken
        rw [hRequest, AdminRequest.takes, if_pos hTaken, hTarget] at hKept
        exact hKept rfl
      refine ⟨_, Table.mem_modify.mpr (.inr ⟨user, hMem, hTarget, rfl⟩), ?_⟩
      exact (Bool.and_eq_true _ _).mpr
        (isActiveAdmin_of_effect hRole hActive hNotTaken ((Bool.and_eq_true _ _).mp hAdmin))
    · exact ⟨user, Table.mem_modify.mpr (.inl ⟨hMem, hTarget⟩), hAdmin⟩
  · rename_i userId hRequest
    obtain ⟨-, rfl⟩ := deleteUser_ok h
    refine ⟨user, Table.mem_filter.mpr ⟨hMem, decide_eq_true fun hTarget => ?_⟩, hAdmin⟩
    rw [hRequest, hTarget] at hKept
    exact hKept rfl

/-- Nobody takes the own rights away. -/
theorem takes_ne_sender (h : finish drawn users p = .ok users') :
    p.request.takes ≠ some p.admin.id := by
  unfold finish at h
  split at h
  · rename_i body hRequest
    rw [hRequest]
    exact nofun
  · rename_i userId body hRequest
    obtain ⟨read, stored, outcome, displayName, email, -, hOutcome, -⟩ := updateUser_ok h
    rw [hRequest, AdminRequest.takes]
    split
    · rename_i hTaken
      intro hSelf
      obtain ⟨hRole, hActive⟩ :=
        (updateUser_effect hOutcome).2.2 (decide_eq_true (Option.some.inj hSelf))
      exact hTaken.elim hRole hActive
    · exact nofun
  · rename_i userId hRequest
    rw [hRequest]
    exact fun hSelf => (deleteUser_ok h).1 (Option.some.inj hSelf)

/-- A commit whose sender is still an active administrator leaves one. -/
theorem hasActiveAdmin_finish (h : finish drawn users p = .ok users')
    (hUsers : HasActiveAdmin users) (hSender : SenderActive users p) : HasActiveAdmin users' := by
  obtain ⟨user, hMem, hAdmin⟩ := hUsers
  by_cases hTaken : some user.id = p.request.takes
  · obtain ⟨sender, hSenderMem, hId, hSenderAdmin⟩ := hSender ⟨user, hMem, hTaken, hAdmin⟩
    refine finish_keeps h hSenderMem hSenderAdmin fun hSelf => ?_
    rw [hId] at hSelf
    exact takes_ne_sender h hSelf.symm
  · exact finish_keeps h hMem hAdmin hTaken

end Commit

/-! ## Runs -/

section Run

variable {cfg : Config} {s s' : State}

theorem hasActiveAdmin_step {a : Action} (hUsers : HasActiveAdmin s.users) (hOk : CommitOk s a)
    (h : step cfg s a = some s') : HasActiveAdmin s'.users := by
  cases a with
  | begin payload request =>
    unfold step at h
    dsimp only at h
    split at h
    · cases h
      exact hUsers
    · split at h
      · cases h
        exact hUsers
      · cases h
        exact hUsers
  | commit i drawn =>
    obtain ⟨p, hPending, rfl⟩ := Option.map_eq_some_iff.mp h
    dsimp only
    split
    · rename_i users' hFinish
      exact hasActiveAdmin_finish hFinish hUsers (hOk p hPending)
    · exact hUsers

theorem admin_remains (h : Reach (step cfg) Initial CommitOk s) : HasActiveAdmin s.users :=
  Reach.invariant (fun _ hInit => hInit.2) (fun _ _ _ hUsers hOk hStep =>
    hasActiveAdmin_step hUsers hOk hStep) h

/-- A request that commits before another one does has a sender that is still active. -/
theorem commitOk_after_begin {payload : Payload} {request : AdminRequest} (drawn : Drawn)
    (hNone : s.pending = []) (h : step cfg s (.begin payload request) = some s') :
    CommitOk s' (.commit 0 drawn) := by
  intro p hPending _
  unfold step at h
  dsimp only at h
  split at h
  · cases h
    rw [hNone] at hPending
    cases hPending
  · rename_i admin hAdmin
    split at h
    · cases h
      rw [hNone] at hPending
      cases hPending
    · rename_i hAllowed
      cases h
      rw [hNone] at hPending
      cases hPending
      obtain ⟨hMem, hActive⟩ := mem_of_authenticate hAdmin
      exact ⟨admin, hMem, rfl, (Bool.and_eq_true _ _).mpr ⟨isAdmin_of_requireAdmin hAllowed, hActive⟩⟩

end Run

section Example

def someConfig : Config where
  verifyPassword password hash := password = hash
  totpAt _ _ := []

def someAdmin (id : Nat) (username authId : Text) : UserRow where
  id := id
  username := username
  authId := authId
  role := .admin
  passwordHash := "hash"
  mfaSecret := some "seed"
  mfaConfirmed := true

def twoAdmins : State where
  users := ⟨[someAdmin 1 "alice" "a1", someAdmin 2 "bob" "b2"], by decide⟩

def tokenOf (id : Nat) (username authId : Text) : Payload :=
  ⟨some username, some id, some authId, some 1, true⟩

theorem admin_remains_demoted :
    ∃ s, Reach (step someConfig) Initial CommitOk s ∧
      (s.users.rows.filter isActiveAdmin).length = 1 ∧ HasActiveAdmin s.users := by
  have hRun : ∃ s, Reach (step someConfig) Initial CommitOk s ∧
      (s.users.rows.filter isActiveAdmin).length = 1 :=
    Reach.exists_of_exec
      [.begin (tokenOf 1 "alice" "a1") (.updateUser 2 { role := some .viewer }), .commit 0 {},
        .begin (tokenOf 2 "bob" "b2") (.deleteUser 1)]
      (show Initial twoAdmins from ⟨rfl, by decide⟩) (by decide +kernel)
  obtain ⟨s, hReach, hOne⟩ := hRun
  exact ⟨s, hReach, hOne, admin_remains hReach⟩

theorem admins_remove_each_other :
    ∃ s, Reach (step someConfig) Initial Always s ∧ ¬HasActiveAdmin s.users :=
  Reach.exists_of_exec
    [.begin (tokenOf 1 "alice" "a1") (.updateUser 2 { role := some .viewer }),
      .begin (tokenOf 2 "bob" "b2") (.deleteUser 1), .commit 0 {}, .commit 0 {}]
    (show Initial twoAdmins from ⟨rfl, by decide⟩) (by decide +kernel)

end Example

end GpuMon.Administrators

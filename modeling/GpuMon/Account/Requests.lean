import GpuMon.Library.Runs
import GpuMon.Models

/-!
# Requests on one account (`auth.py`, `users.py`, `security.py`, `reset_admin_mfa.py`)

Every request that signs an account in, changes it or revokes its sessions reads the user row
first and writes it later; other requests may commit in between. A handler is therefore a
function of two rows: `user`, the row it read, and `stored`, the row at the time of its write.
Rows are written in three ways:

* a compare-and-swap (`commitMfaTransition`, the update of `changePassword`);
* an SQL increment of the version (`incrementTokenVersion`);
* an ORM flush (`flush`), which sends a column only when its value changed since the read.

`respond_effect` says once what each request can do to the account.

The audit log and the two rate limiters are left out: the limiters only turn a request away,
which is a request that never writes. A token stands for a decoded, unexpired token of the
account, of which only the version and the MFA flag vary.
-/

namespace GpuMon.Account

/-- `User.role`. -/
inductive Role
  | admin
  | viewer
  deriving DecidableEq

/-- `User`: the columns that authentication reads. An empty `mfa_secret` is `none`. -/
structure User where
  role : Role := .viewer
  isActive : Bool := true
  passwordHash : Text
  tokenVersion : Int := 1
  mfaSecret : Option Text := none
  mfaConfirmed : Bool := false
  mfaLastCounter : Int := -1
  deriving DecidableEq

def User.mfaEnrolled (user : User) : Bool := user.mfaSecret.isSome && user.mfaConfirmed

def User.isAdmin (user : User) : Bool := user.role = .admin

/-- The claims `ver` and `mfa` of an access token. -/
structure Token where
  ver : Int
  mfa : Bool
  deriving DecidableEq

/-- The deployment: its one setting, and the hash functions. `totpAt` is `_totp_at`, the six
digits that RFC 6238 derives from a secret and a counter. -/
structure Config where
  requireAdminMfa : Bool := true
  verifyPassword : Text → Text → Bool
  totpAt : Text → Int → Text

/-- What a request draws from its surroundings while it runs: the clock in seconds, the secret
of `new_totp_secret` and the salted hash of `hash_password`. -/
structure Ambient where
  time : Int
  newSecret : Text := []
  newHash : Text := []

/-! ## Reading -/

/-- `verify_totp`. A code with digits outside ASCII is refused by `compare_digest`. -/
def verifyTotp (cfg : Config) (secret code : Text) (lastCounter time : Int) : Option Int :=
  if code.length ≠ 6 || !code.all Char.isDigit then none
  else
    let current := time / 30
    [current, current - 1, current + 1].find? fun counter =>
      lastCounter < counter && cfg.totpAt secret counter = code

/-- `get_current_user`: whether the account is returned for the token. -/
def getCurrentUser (user : User) (token : Token) : Bool :=
  user.isActive && user.tokenVersion = token.ver

def requireAdmin (cfg : Config) (user : User) (token : Token) : Except HttpError Unit :=
  if !user.isAdmin then .error ⟨403, "Admin role required"⟩
  else if cfg.requireAdminMfa && !user.mfaEnrolled then
    .error ⟨403, "Administrator MFA enrollment required"⟩
  else if cfg.requireAdminMfa && !token.mfa then
    .error ⟨403, "Administrator MFA verification required"⟩
  else .ok ()

/-- `decrypt_text(user.mfa_secret)`. -/
def User.secret (user : User) : Text := user.mfaSecret.getD []

/-! ## Writing -/

/-- One column of an ORM write. -/
def flushColumn {α : Type} [DecidableEq α] (read written stored : α) : α :=
  if written = read then stored else written

/-- `db.flush()` on an object read as `read` and changed to `written`. -/
def flush (read written stored : User) : User where
  role := flushColumn read.role written.role stored.role
  isActive := flushColumn read.isActive written.isActive stored.isActive
  passwordHash := flushColumn read.passwordHash written.passwordHash stored.passwordHash
  tokenVersion := flushColumn read.tokenVersion written.tokenVersion stored.tokenVersion
  mfaSecret := flushColumn read.mfaSecret written.mfaSecret stored.mfaSecret
  mfaConfirmed := flushColumn read.mfaConfirmed written.mfaConfirmed stored.mfaConfirmed
  mfaLastCounter := flushColumn read.mfaLastCounter written.mfaLastCounter stored.mfaLastCounter

def incrementTokenVersion (stored : User) : User :=
  { stored with tokenVersion := stored.tokenVersion + 1 }

/-- The rows on which the conditional update of `_commit_mfa_transition` acts. -/
def mfaGuard (user stored : User) : Bool :=
  stored.mfaLastCounter = user.mfaLastCounter && stored.tokenVersion = user.tokenVersion

def commitMfaTransition (user stored : User) (values : User → User) : Option User :=
  if mfaGuard user stored then some (values stored) else none

/-- The object after the three assignments that clear an enrollment. -/
def User.withoutMfa (user : User) : User :=
  { user with mfaSecret := none, mfaConfirmed := false, mfaLastCounter := -1 }

/-! ## Handlers -/

/-- What a successful request leaves behind: the row, the token it answers with, and for the
record whether it revokes the sessions, which one-time code it accepted, which secret it
enrolled without proof and which secret it confirmed. -/
structure Outcome where
  row : User
  token : Option Token := none
  revokes : Bool := false
  accepted : Option (Text × Int) := none
  enrolls : Option Text := none
  confirms : Option Text := none

def invalidCredentialsDetail : Text := "Incorrect username, password, or MFA code"

/-- `_authenticate`, for a user name that exists. -/
def login (cfg : Config) (password otp : Text) (amb : Ambient) (user stored : User) :
    Except HttpError Outcome :=
  if !cfg.verifyPassword password user.passwordHash then
    .error ⟨401, invalidCredentialsDetail⟩
  else if !user.isActive then .error ⟨401, invalidCredentialsDetail⟩
  else if user.isAdmin && cfg.requireAdminMfa && user.mfaEnrolled then
    match verifyTotp cfg user.secret otp user.mfaLastCounter amb.time with
    | none => .error ⟨401, invalidCredentialsDetail⟩
    | some counter =>
      match commitMfaTransition user stored fun row => { row with mfaLastCounter := counter } with
      | none => .error ⟨401, invalidCredentialsDetail⟩
      | some row => .ok
        { row
          token := some ⟨user.tokenVersion, true⟩
          accepted := some (user.secret, counter) }
  else .ok { row := stored, token := some ⟨user.tokenVersion, false⟩ }

def logout (stored : User) : Except HttpError Outcome :=
  .ok { row := incrementTokenVersion stored, revokes := true }

def changePassword (cfg : Config) (token : Token) (oldPassword : Text) (amb : Ambient)
    (user stored : User) : Except HttpError Outcome :=
  if !cfg.verifyPassword oldPassword user.passwordHash then
    .error ⟨400, "Old password is incorrect"⟩
  else if stored.passwordHash = user.passwordHash && stored.tokenVersion = user.tokenVersion then
    .ok
      { row := { incrementTokenVersion stored with passwordHash := amb.newHash }
        token := some ⟨user.tokenVersion + 1, token.mfa⟩
        revokes := true }
  else .error ⟨409, "Account changed concurrently; sign in again and retry"⟩

/-- `update_user`; `bySelf` when the administrator edits the own account. Display name and
mail address are left out. -/
def updateUser (bySelf : Bool) (role : Option Role) (isActive : Option Bool)
    (password : Option Text) (amb : Ambient) (user stored : User) : Except HttpError Outcome :=
  let roleChanged := role.any fun r => r ≠ user.role
  let activeChanged := isActive.any fun b => b ≠ user.isActive
  let passwordGiven := password.any fun p => p ≠ []
  if bySelf && role.any fun r => r ≠ .admin then .error ⟨400, "Cannot demote yourself"⟩
  else if bySelf && isActive.any fun b => !b then .error ⟨400, "Cannot disable yourself"⟩
  else
    let written := { user with
      role := role.getD user.role
      isActive := isActive.getD user.isActive
      passwordHash := if passwordGiven then amb.newHash else user.passwordHash }
    let flushed := flush user written stored
    if passwordGiven || activeChanged || roleChanged then
      .ok { row := incrementTokenVersion flushed, revokes := true }
    else .ok { row := flushed }

/-- `mfa_setup`. The secret column is always sent: the new ciphertext differs from any other. -/
def mfaSetup (amb : Ambient) (user stored : User) : Except HttpError Outcome :=
  if !user.isAdmin then .error ⟨403, "Admin role required"⟩
  else if user.mfaEnrolled then .error ⟨409, "MFA is already enrolled"⟩
  else .ok
    { row := { flush user user.withoutMfa stored with mfaSecret := some amb.newSecret }
      enrolls := some amb.newSecret }

def mfaConfirm (cfg : Config) (code : Text) (amb : Ambient) (user stored : User) :
    Except HttpError Outcome :=
  if !user.isAdmin then .error ⟨403, "Admin role required"⟩
  else if user.mfaSecret.isNone then .error ⟨400, "Start MFA setup first"⟩
  else match verifyTotp cfg user.secret code user.mfaLastCounter amb.time with
    | none => .error ⟨400, "Invalid or already-used MFA code"⟩
    | some counter =>
      match commitMfaTransition user stored fun row =>
        { incrementTokenVersion row with mfaConfirmed := true, mfaLastCounter := counter } with
      | none => .error ⟨400, "Invalid or already-used MFA code"⟩
      | some row => .ok
        { row
          token := some ⟨user.tokenVersion + 1, true⟩
          revokes := true
          accepted := some (user.secret, counter)
          confirms := some user.secret }

def mfaDisable (cfg : Config) (password code : Text) (amb : Ambient) (user stored : User) :
    Except HttpError Outcome :=
  if !user.isAdmin then .error ⟨403, "Admin role required"⟩
  else if !user.mfaEnrolled || !cfg.verifyPassword password user.passwordHash then
    .error ⟨403, "MFA disable verification failed"⟩
  else match verifyTotp cfg user.secret code user.mfaLastCounter amb.time with
    | none => .error ⟨403, "MFA disable verification failed"⟩
    | some counter =>
      match commitMfaTransition user stored fun row => (incrementTokenVersion row).withoutMfa with
      | none => .error ⟨403, "MFA disable verification failed"⟩
      | some row => .ok
        { row
          token := some ⟨user.tokenVersion + 1, false⟩
          revokes := true
          accepted := some (user.secret, counter) }

/-- `reset_user_mfa`, which an administrator can only send for another account. -/
def resetUserMfa (user stored : User) : Except HttpError Outcome :=
  .ok { row := incrementTokenVersion (flush user user.withoutMfa stored), revokes := true }

/-- `main` of `reset_admin_mfa.py` with `--apply`; the message is the text of its
`RuntimeError`. -/
def resetAdminMfa (user stored : User) : Except HttpError Outcome :=
  if !user.isAdmin then .error ⟨500, "administrator not found"⟩
  else .ok
    { row := flush user { user.withoutMfa with tokenVersion := user.tokenVersion + 1 } stored
      revokes := true }

/-! ## Requests -/

/-- A request on the account. A token is the account's own; `updateUser` carries one when the
account edits itself, and none when another administrator sends it. -/
inductive Request
  | login (password otp : Text)
  | logout (token : Token)
  | changePassword (token : Token) (oldPassword : Text)
  | updateUser (token : Option Token) (role : Option Role) (isActive : Option Bool)
      (password : Option Text)
  | mfaSetup (token : Token)
  | mfaConfirm (token : Token) (code : Text)
  | mfaDisable (token : Token) (password code : Text)
  | resetUserMfa
  | resetAdminMfa
  deriving DecidableEq

/-- The token with which the request authenticates as the account. -/
def Request.token? : Request → Option Token
  | .login _ _ => none
  | .logout token => some token
  | .changePassword token _ => some token
  | .updateUser token _ _ _ => token
  | .mfaSetup token => some token
  | .mfaConfirm token _ => some token
  | .mfaDisable token _ _ => some token
  | .resetUserMfa => none
  | .resetAdminMfa => none

/-- The dependencies of the request's route, on the row it reads. -/
def authorize (cfg : Config) (user : User) (r : Request) : Except HttpError Unit :=
  match r.token? with
  | none => .ok ()
  | some token =>
    if !getCurrentUser user token then .error ⟨401, "Invalid or expired token"⟩
    else match r with
      | .updateUser _ _ _ _ => requireAdmin cfg user token
      | _ => .ok ()

def respond (cfg : Config) (amb : Ambient) (user stored : User) : Request → Except HttpError Outcome
  | .login password otp => login cfg password otp amb user stored
  | .logout _ => logout stored
  | .changePassword token oldPassword => changePassword cfg token oldPassword amb user stored
  | .updateUser token role isActive password =>
    updateUser token.isSome role isActive password amb user stored
  | .mfaSetup _ => mfaSetup amb user stored
  | .mfaConfirm _ code => mfaConfirm cfg code amb user stored
  | .mfaDisable _ password code => mfaDisable cfg password code amb user stored
  | .resetUserMfa => resetUserMfa user stored
  | .resetAdminMfa => resetAdminMfa user stored

/-! ## What a request can do -/

/-- The MFA columns of two rows agree. -/
def SameMfa (row row' : User) : Prop :=
  row'.mfaSecret = row.mfaSecret ∧ row'.mfaConfirmed = row.mfaConfirmed ∧
    row'.mfaLastCounter = row.mfaLastCounter

/-- `row` is `stored` with its enrollment cleared by an object that was read as `user`: only
the columns that were not clear at the read are sent. -/
structure ClearedSince (user stored row : User) : Prop where
  secret : row.mfaSecret = if user.mfaSecret = none then stored.mfaSecret else none
  confirmed : row.mfaConfirmed = if user.mfaConfirmed = false then stored.mfaConfirmed else false
  counter : row.mfaLastCounter =
    if user.mfaLastCounter = -1 then stored.mfaLastCounter else -1

/-- The one-time code `code` of `user` is accepted with `counter`, and no other transition
committed since `user` was read. -/
structure Accepts (cfg : Config) (time : Int) (user stored : User) (code secret : Text)
    (counter : Int) : Prop where
  enrolled : user.mfaSecret = some secret
  verified : verifyTotp cfg secret code user.mfaLastCounter time = some counter
  unmoved : mfaGuard user stored

/-- The effect of a successful request that read `user` and wrote over `stored`. -/
inductive Effect (cfg : Config) (amb : Ambient) (user stored : User) : Request → Outcome → Prop
  | signIn {password otp : Text} :
      Effect cfg amb user stored (.login password otp)
        { row := stored, token := some ⟨user.tokenVersion, false⟩ }
  | signInMfa {password otp secret : Text} {counter : Int} :
      user.mfaConfirmed = true → Accepts cfg amb.time user stored otp secret counter →
      Effect cfg amb user stored (.login password otp)
        { row := { stored with mfaLastCounter := counter }
          token := some ⟨user.tokenVersion, true⟩
          accepted := some (secret, counter) }
  | edit {r : Request} {row : User} {revokes : Bool} :
      SameMfa stored row → row.tokenVersion = stored.tokenVersion + revokes.toNat →
      Effect cfg amb user stored r { row, revokes }
  | rekey {token : Token} {oldPassword : Text} :
      stored.tokenVersion = user.tokenVersion →
      Effect cfg amb user stored (.changePassword token oldPassword)
        { row := { incrementTokenVersion stored with passwordHash := amb.newHash }
          token := some ⟨user.tokenVersion + 1, token.mfa⟩
          revokes := true }
  | setup {token : Token} {row : User} :
      user.isAdmin = true → user.mfaEnrolled = false → ClearedSince user stored row →
      row.tokenVersion = stored.tokenVersion →
      Effect cfg amb user stored (.mfaSetup token)
        { row := { row with mfaSecret := some amb.newSecret }, enrolls := some amb.newSecret }
  | confirm {token : Token} {code secret : Text} {counter : Int} :
      user.isAdmin = true → Accepts cfg amb.time user stored code secret counter →
      Effect cfg amb user stored (.mfaConfirm token code)
        { row := { incrementTokenVersion stored with
            mfaConfirmed := true, mfaLastCounter := counter }
          token := some ⟨user.tokenVersion + 1, true⟩
          revokes := true
          accepted := some (secret, counter)
          confirms := some secret }
  | disable {token : Token} {password code secret : Text} {counter : Int} :
      user.mfaConfirmed = true → Accepts cfg amb.time user stored code secret counter →
      Effect cfg amb user stored (.mfaDisable token password code)
        { row := (incrementTokenVersion stored).withoutMfa
          token := some ⟨user.tokenVersion + 1, false⟩
          revokes := true
          accepted := some (secret, counter) }
  | reset {row : User} :
      ClearedSince user stored row → row.tokenVersion = stored.tokenVersion + 1 →
      Effect cfg amb user stored .resetUserMfa { row, revokes := true }
  | breakGlass {row : User} :
      ClearedSince user stored row → row.tokenVersion = user.tokenVersion + 1 →
      Effect cfg amb user stored .resetAdminMfa { row, revokes := true }

section Effects

variable {cfg : Config} {amb : Ambient} {user stored : User} {o : Outcome}

@[simp] theorem flushColumn_unchanged {α : Type} [DecidableEq α] (read stored : α) :
    flushColumn read read stored = stored := if_pos rfl

theorem clearedSince_flush {written : User} (hSecret : written.mfaSecret = none)
    (hConfirmed : written.mfaConfirmed = false) (hCounter : written.mfaLastCounter = -1) :
    ClearedSince user stored (flush user written stored) where
  secret := by simp only [flush, flushColumn, hSecret, eq_comm]
  confirmed := by simp only [flush, flushColumn, hConfirmed, eq_comm]
  counter := by simp only [flush, flushColumn, hCounter, eq_comm]

/-- The counter found by `verifyTotp` is above the last one used. -/
theorem lt_of_verifyTotp {secret code : Text} {last time counter : Int}
    (h : verifyTotp cfg secret code last time = some counter) : last < counter := by
  unfold verifyTotp at h
  split at h
  · cases h
  · have hFound := List.find?_some h
    simp only [Bool.and_eq_true, decide_eq_true_eq] at hFound
    exact hFound.1

theorem commitMfaTransition_eq_some {values : User → User} {row : User}
    (h : commitMfaTransition user stored values = some row) :
    mfaGuard user stored = true ∧ row = values stored := by
  unfold commitMfaTransition at h
  split at h
  · rename_i hGuard
    exact ⟨hGuard, (Option.some.inj h).symm⟩
  · cases h

theorem secret_of_enrolled (h : user.mfaEnrolled = true) :
    user.mfaSecret = some user.secret ∧ user.mfaConfirmed = true := by
  rw [User.mfaEnrolled, Bool.and_eq_true] at h
  obtain ⟨secret, hSecret⟩ := Option.isSome_iff_exists.mp h.1
  exact ⟨by rw [User.secret, hSecret, Option.getD_some], h.2⟩

theorem login_effect {password otp : Text} (h : login cfg password otp amb user stored = .ok o) :
    Effect cfg amb user stored (.login password otp) o := by
  unfold login at h
  split at h
  · cases h
  split at h
  · cases h
  split at h
  · rename_i hMfa
    simp only [Bool.and_eq_true] at hMfa
    obtain ⟨hSecret, hConfirmed⟩ := secret_of_enrolled hMfa.2
    split at h
    · cases h
    · rename_i counter hVerified
      split at h
      · cases h
      · rename_i row hCommit
        obtain ⟨hGuard, rfl⟩ := commitMfaTransition_eq_some hCommit
        cases h
        exact .signInMfa hConfirmed ⟨hSecret, hVerified, hGuard⟩
  · cases h
    exact .signIn

theorem changePassword_effect {token : Token} {oldPassword : Text}
    (h : changePassword cfg token oldPassword amb user stored = .ok o) :
    Effect cfg amb user stored (.changePassword token oldPassword) o := by
  unfold changePassword at h
  split at h
  · cases h
  split at h
  · rename_i hSame
    simp only [Bool.and_eq_true, decide_eq_true_eq] at hSame
    cases h
    exact .rekey hSame.2
  · cases h

theorem updateUser_effect {r : Request} {bySelf : Bool} {role : Option Role}
    {isActive : Option Bool} {password : Option Text}
    (h : updateUser bySelf role isActive password amb user stored = .ok o) :
    Effect cfg amb user stored r o := by
  unfold updateUser at h
  dsimp only at h
  split at h
  · cases h
  split at h
  · cases h
  split at h <;> cases h
  · exact .edit (by simp [SameMfa, incrementTokenVersion, flush])
      (by simp [incrementTokenVersion, flush])
  · exact .edit (by simp [SameMfa, flush]) (by simp [flush])

theorem mfaSetup_effect {token : Token} (h : mfaSetup amb user stored = .ok o) :
    Effect cfg amb user stored (.mfaSetup token) o := by
  unfold mfaSetup at h
  split at h
  · cases h
  rename_i hAdmin
  split at h
  · cases h
  rename_i hEnrolled
  cases h
  exact .setup (by simpa using hAdmin) (by simpa using hEnrolled)
    (clearedSince_flush rfl rfl rfl) (by simp [flush, User.withoutMfa])

theorem mfaConfirm_effect {token : Token} {code : Text}
    (h : mfaConfirm cfg code amb user stored = .ok o) :
    Effect cfg amb user stored (.mfaConfirm token code) o := by
  unfold mfaConfirm at h
  split at h
  · cases h
  rename_i hAdmin
  split at h
  · cases h
  rename_i hSome
  have hSecret : user.mfaSecret = some user.secret := by
    obtain ⟨secret, hSecret⟩ := Option.ne_none_iff_exists'.mp (by simpa using hSome)
    rw [User.secret, hSecret, Option.getD_some]
  split at h
  · cases h
  rename_i counter hVerified
  split at h
  · cases h
  rename_i row hCommit
  obtain ⟨hGuard, rfl⟩ := commitMfaTransition_eq_some hCommit
  cases h
  exact .confirm (by simpa using hAdmin) ⟨hSecret, hVerified, hGuard⟩

theorem mfaDisable_effect {token : Token} {password code : Text}
    (h : mfaDisable cfg password code amb user stored = .ok o) :
    Effect cfg amb user stored (.mfaDisable token password code) o := by
  unfold mfaDisable at h
  split at h
  · cases h
  split at h
  · cases h
  rename_i hStepUp
  simp only [Bool.or_eq_true, Bool.not_eq_true', not_or, Bool.not_eq_false] at hStepUp
  obtain ⟨hSecret, hConfirmed⟩ := secret_of_enrolled hStepUp.1
  split at h
  · cases h
  rename_i counter hVerified
  split at h
  · cases h
  rename_i row hCommit
  obtain ⟨hGuard, rfl⟩ := commitMfaTransition_eq_some hCommit
  cases h
  exact .disable hConfirmed ⟨hSecret, hVerified, hGuard⟩

theorem resetAdminMfa_effect (h : resetAdminMfa user stored = .ok o) :
    Effect cfg amb user stored .resetAdminMfa o := by
  unfold resetAdminMfa at h
  split at h
  · cases h
  cases h
  exact .breakGlass (clearedSince_flush rfl rfl rfl) (by simp [flush, flushColumn])

/-- Every successful request has one of the listed effects. -/
theorem respond_effect {r : Request} (h : respond cfg amb user stored r = .ok o) :
    Effect cfg amb user stored r o := by
  cases r with
  | login password otp => exact login_effect h
  | logout token =>
    cases h
    exact .edit ⟨rfl, rfl, rfl⟩ rfl
  | changePassword token oldPassword => exact changePassword_effect h
  | updateUser token role isActive password => exact updateUser_effect h
  | mfaSetup token => exact mfaSetup_effect h
  | mfaConfirm token code => exact mfaConfirm_effect h
  | mfaDisable token password code => exact mfaDisable_effect h
  | resetUserMfa =>
    cases h
    have hCleared : ClearedSince user stored (flush user user.withoutMfa stored) :=
      clearedSince_flush rfl rfl rfl
    exact .reset ⟨hCleared.secret, hCleared.confirmed, hCleared.counter⟩
      (by simp [incrementTokenVersion, flush, User.withoutMfa])
  | resetAdminMfa => exact resetAdminMfa_effect h

end Effects

end GpuMon.Account

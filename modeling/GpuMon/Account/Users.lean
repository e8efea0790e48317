import GpuMon.Account.Requests
import GpuMon.Library.Table

/-!
# The users table (`models.py`, `security.py`)

A row is an account with its key, its name and an `auth_id` that is not used again. A token names
all three; a request is authenticated when they still belong to one active row whose version is
that of the token.

* `mem_of_authenticate`, `isAdmin_of_requireAdmin`: what is known of the row that a request was
  authenticated with, at the time of the read.
-/

namespace GpuMon.Account

/-- `User`, with the columns that tell rows apart. -/
structure UserRow extends User where
  id : Nat
  username : Text
  authId : Text
  displayName : Text := []
  email : Text := []
  deriving DecidableEq

instance : Keyed UserRow := ⟨UserRow.id⟩

/-- The claims of an access token; `sub` and `uid` are `none` when they are of another type. -/
structure Payload where
  sub : Option Text
  uid : Option Nat
  aid : Option Text
  ver : Option Int
  mfa : Bool := false

/-- The part of `get_current_user` after the token was decoded. -/
def authenticate (users : Table UserRow) (payload : Payload) : Option UserRow :=
  match payload.sub, payload.uid with
  | some username, some uid =>
    (users.get? uid).filter fun user =>
      user.isActive && user.username = username && some user.authId = payload.aid &&
        some user.tokenVersion = payload.ver
  | _, _ => none

/-- `require_admin` on the row that `get_current_user` has returned. -/
def requireAdminRow (cfg : Config) (user : UserRow) (payload : Payload) : Except HttpError Unit :=
  requireAdmin cfg user.toUser ⟨payload.ver.getD 0, payload.mfa⟩

theorem mem_of_authenticate {users : Table UserRow} {payload : Payload} {user : UserRow}
    (h : authenticate users payload = some user) : user ∈ users.rows ∧ user.isActive = true := by
  unfold authenticate at h
  split at h
  · obtain ⟨hGet, hFound⟩ := Option.filter_eq_some_iff.mp h
    simp only [Bool.and_eq_true] at hFound
    exact ⟨List.mem_of_find?_eq_some hGet, hFound.1.1.1⟩
  · cases h

theorem isAdmin_of_requireAdmin {cfg : Config} {user : UserRow} {payload : Payload}
    (h : requireAdminRow cfg user payload = .ok ()) : user.isAdmin = true := by
  unfold requireAdminRow requireAdmin at h
  cases hAdmin : user.isAdmin with
  | true => rfl
  | false =>
    rw [hAdmin] at h
    cases h

end GpuMon.Account

import GpuMon.Account.Requests

/-!
# Interleaved requests on one account

The account's row, the tokens handed out and the requests that have read the row but not
written yet. An action is the read of a new request or the write of a waiting one, so a run is
any interleaving. The state also keeps the record the properties speak of: how often the
sessions were revoked, the tokens that were out at the last revocation, the one-time codes
accepted, the secrets generated and the secret confirmed last.

* `step_cases` says what one action does.
* `Start` describes the accounts a run begins with; a new account is one of them.
-/

namespace GpuMon.Account

/-- A request between its read and its write. -/
structure Pending where
  request : Request
  user : User

structure State where
  row : User
  pending : List Pending := []
  issued : List Token := []
  revocations : Nat := 0
  revoked : List Token := []
  accepted : List (Text × Int) := []
  generated : List Text := []
  confirmed : Option Text := none

inductive Action
  | read (r : Request)
  | write (i : Nat) (amb : Ambient)

def State.receive (s : State) (r : Request) : State :=
  { s with pending := s.pending ++ [⟨r, s.row⟩] }

def State.reject (s : State) (i : Nat) : State := { s with pending := s.pending.eraseIdx i }

def State.commit (s : State) (i : Nat) (o : Outcome) : State where
  row := o.row
  pending := s.pending.eraseIdx i
  issued := s.issued ++ o.token.toList
  revocations := s.revocations + o.revokes.toNat
  revoked := if o.revokes then s.issued else s.revoked
  accepted := s.accepted ++ o.accepted.toList
  generated := s.generated ++ o.enrolls.toList
  confirmed := o.confirms.or s.confirmed

/-- A request starts only with a token that was handed out and that its route accepts. -/
def step (cfg : Config) (s : State) : Action → Option State
  | .read r =>
    if (∀ token ∈ r.token?, token ∈ s.issued) ∧ authorize cfg s.row r = .ok () then
      some (s.receive r)
    else none
  | .write i amb => s.pending[i]?.map fun p =>
    match respond cfg amb p.user s.row p.request with
    | .error _ => s.reject i
    | .ok o => s.commit i o

/-- An account with version `v₀` before the first request of a run. -/
structure Start (v₀ : Int) (s : State) : Prop where
  version : s.row.tokenVersion = v₀
  idle : s.pending = []
  issued : ∀ token ∈ s.issued, token.ver ≤ v₀
  revocations : s.revocations = 0
  revoked : s.revoked = []
  accepted : s.accepted = []
  generated : ∀ secret ∈ s.row.mfaSecret, secret ∈ s.generated
  confirmed : s.row.mfaConfirmed = true → s.confirmed = s.row.mfaSecret
  counter : s.row.mfaConfirmed = true ↔ s.row.mfaLastCounter ≠ -1
  counterLow : -1 ≤ s.row.mfaLastCounter

/-- A new account, with the defaults of its columns, starts a run. -/
theorem start_newAccount (role : Role) (passwordHash : Text) :
    Start 1 { row := { role, passwordHash } } := by
  constructor <;> simp

/-- A deployment with one known password and the codes of two secrets. -/
def sampleConfig : Config where
  verifyPassword password hashed := password = ("U*U" : Text) &&
    hashed = ("$2a$05$CCCCCCCCCCCCCCCCCCCCC.E5YPO9kmyuRGyh0XouQYb4YMJKvyOeW" : Text)
  totpAt secret counter :=
    if secret = ("JBSWY3DPEHPK3PXPJBSWY3DPEHPK3PXP" : Text) then
      match counter with
      | 56666666 => "406058"
      | 56666668 => "996875"
      | _ => []
    else if secret = ("KRSXG5CTMVRXEZLUKRSXG5CTMVRXEZLU" : Text) then
      match counter with
      | 56666668 => "763219"
      | _ => []
    else []

/-- An administrator of the sample deployment who has not enrolled yet. -/
def sampleAdmin : User where
  role := .admin
  passwordHash := "$2a$05$CCCCCCCCCCCCCCCCCCCCC.E5YPO9kmyuRGyh0XouQYb4YMJKvyOeW"

variable {cfg : Config} {s s' : State} {a : Action}

theorem step_cases (h : step cfg s a = some s') :
    (∃ r, a = .read r ∧ s' = s.receive r) ∨
    (∃ i amb p, a = .write i amb ∧ s.pending[i]? = some p ∧ s' = s.reject i) ∨
    ∃ i amb p o, a = .write i amb ∧ s.pending[i]? = some p ∧
      Effect cfg amb p.user s.row p.request o ∧ s' = s.commit i o := by
  cases a with
  | read r =>
    simp only [step] at h
    split at h
    · exact .inl ⟨r, rfl, (Option.some.inj h).symm⟩
    · cases h
  | write i amb =>
    obtain ⟨p, hp, hs'⟩ := Option.map_eq_some_iff.mp h
    split at hs'
    · exact .inr (.inl ⟨i, amb, p, rfl, hp, hs'.symm⟩)
    · rename_i o hRespond
      exact .inr (.inr ⟨i, amb, p, o, rfl, hp, respond_effect hRespond, hs'.symm⟩)

theorem mem_of_mem_eraseIdx {i : Nat} {p : Pending} (h : p ∈ s.pending.eraseIdx i) :
    p ∈ s.pending := (List.eraseIdx_sublist s.pending i).subset h

theorem mem_receive {r : Request} {p : Pending} (h : p ∈ (s.receive r).pending) :
    p ∈ s.pending ∨ p = ⟨r, s.row⟩ := by
  simpa [State.receive] using h

end GpuMon.Account

import GpuMon.Library.PyText
import GpuMon.Library.Runs

/-!
# The token of the client (`mcp_server/server.GpuMonitorClient`)

Calls of `get` run in any number of threads and share one token. A call takes the token under
`_token_lock`; if there is none it logs in, and holds the lock until the monitor has answered. A
call whose token is refused (status 401) for the first time drops the token under the lock, if
it still is the shared one, and tries once more. A call of `health` sends one request without a
token.

* `step_effect`: what a step can do, said once.
* `issued_refused`: in every run the client logs in again only after its last token was refused.
* `requests_of_caller`: the second request of a call does not repeat the refused token.
* `credentials_of_run`: a token is sent to `/api/` only, and a viewer's login issued it; without
  one the client logs in or asks for the health.
* `calls_settle`: no run has more than eight steps of one call, and one that cannot go on has
  finished them all.

What the monitor answers is part of the step. A login answers with a token that was not issued
before: its `jti` is drawn anew for every token.
-/

namespace GpuMon.McpClient

open PyText Runs

/-- The error of a call; an exception that `_send` does not catch has no status either. -/
structure GpuMonitorApiError where
  message : Text
  status : Option Nat := none
  deriving DecidableEq

/-- How an exchange over HTTP ends. -/
inductive Exchange (α : Type)
  | httpError (code : Nat) (detail : Text)
  | urlError (reason : Text)
  | timedOut
  | uncaught (exc : Text)
  | tooLarge
  | empty
  | notJson
  | json (payload : α)
  deriving DecidableEq

/-- The configuration the messages show; `timeout` is printed with `:g`. -/
structure Config where
  baseUrl : Text
  timeout : Text
  strictPrivacy : Bool

variable {α : Type}

/-- `_send`, after the request has left; an empty answer is `none`. -/
def sendResult (config : Config) : Exchange α → Except GpuMonitorApiError (Option α)
  | .httpError code detail =>
    if config.strictPrivacy then
      .error ⟨"GPU Monitor API request failed (HTTP " ++ natText code ++ ")", some code⟩
    else .error ⟨"GPU Monitor API returned HTTP " ++ natText code ++ ": " ++ detail, some code⟩
  | .urlError reason =>
    if config.strictPrivacy then .error ⟨"Cannot reach the configured GPU Monitor API", none⟩
    else .error ⟨"Cannot reach GPU Monitor at " ++ config.baseUrl ++ ": " ++ reason.take 300, none⟩
  | .timedOut => .error ⟨"GPU Monitor request timed out after " ++ config.timeout ++ "s", none⟩
  | .uncaught exc => .error ⟨exc, none⟩
  | .tooLarge => .error ⟨"GPU Monitor response exceeded the 16 MiB safety limit", none⟩
  | .empty => .ok none
  | .notJson => .error ⟨"GPU Monitor returned a non-JSON response", none⟩
  | .json payload => .ok (some payload)

/-- The user of a login's answer: `none` is not an object. -/
abbrev UserPayload := Option (Option Text)

/-- The answer to a login: no object, or its token (`""` by default) and its user. -/
inductive LoginPayload
  | other
  | object (accessToken : Text) (user : UserPayload)
  deriving DecidableEq

def LoginPayload.token : LoginPayload → Text
  | .other => []
  | .object accessToken _ => accessToken

/-- `payload.get("user", {})`; the answer without an object has an empty one. -/
def LoginPayload.user : LoginPayload → UserPayload
  | .other => some none
  | .object _ user => user

def viewer : Text := "viewer"

/-- `_login`: the token that is kept. -/
def loginResult (config : Config) (e : Exchange LoginPayload) : Except GpuMonitorApiError Text :=
  match sendResult config e with
  | .error err => .error err
  | .ok payload =>
    let payload := payload.getD .other
    if payload.token = [] then .error ⟨"GPU Monitor login succeeded without an access token", none⟩
    else if payload.user ≠ some (some viewer) then
      .error ⟨"GPU Monitor MCP requires a dedicated viewer account", none⟩
    else .ok payload.token

def loginPath : Text := "/api/auth/login"

def healthPath : Text := "/api/health"

/-- Where a call of `get` stands, or one of `health` in `checking`. In `loggingIn` it holds the
lock. -/
inductive Phase (α : Type)
  | idle
  | waiting (path : Text) (attempt : Nat)
  | loggingIn (path : Text) (attempt : Nat)
  | sending (path : Text) (attempt : Nat) (token : Text)
  | refused (path : Text) (token : Text)
  | checking
  | returned (payload : Option α)
  | raised (error : GpuMonitorApiError)
  deriving DecidableEq

/-- A request on the wire; without a token there is no `Authorization` header. -/
structure Request where
  caller : Nat
  path : Text
  token : Text
  deriving DecidableEq

/-- The client, and what has happened so far: the requests, the answers to the logins, the tokens
that were kept, and the tokens that were refused. -/
structure State (α : Type) where
  token : Text := []
  lock : Option Nat := none
  phase : Nat → Phase α := fun _ => .idle
  requests : List Request := []
  loginAnswers : List (Exchange LoginPayload) := []
  issued : List Text := []
  refusals : List Text := []

inductive Action (α : Type)
  | call (i : Nat) (path : Text)
  | access (i : Nat)
  | loginAnswer (i : Nat) (e : Exchange LoginPayload)
  | answer (i : Nat) (e : Exchange α)
  | forget (i : Nat)
  | health (i : Nat)
  | healthAnswer (i : Nat) (e : Exchange α)

def Action.caller : Action α → Nat
  | .call i _ => i
  | .access i => i
  | .loginAnswer i _ => i
  | .answer i _ => i
  | .forget i => i
  | .health i => i
  | .healthAnswer i _ => i

namespace State

def move (s : State α) (i : Nat) (p : Phase α) : State α :=
  { s with phase := Function.update s.phase i p }

/-- A request of caller `i` leaves with the token. -/
def sendWith (s : State α) (i : Nat) (path : Text) (attempt : Nat) (token : Text) : State α :=
  { s.move i (.sending path attempt token) with
    requests := s.requests ++ [⟨i, path, token⟩] }

end State

/-- The refusals an answer adds. -/
def refusalOf (token : Text) : Except GpuMonitorApiError (Option α) → List Text
  | .error err => if err.status = some 401 then [token] else []
  | .ok _ => []

/-- Where an answer leads. -/
def answered (path : Text) (attempt : Nat) (token : Text) :
    Except GpuMonitorApiError (Option α) → Phase α
  | .ok payload => .returned payload
  | .error err =>
    if err.status ≠ some 401 ∨ attempt ≠ 0 then .raised err else .refused path token

/-- How a call of `health` ends. -/
def checked : Except GpuMonitorApiError (Option α) → Phase α
  | .ok payload => .returned payload
  | .error err => .raised err

section Step

variable (config : Config)

/-- One step of a call. Between two steps of a call others may make theirs. -/
def step (s : State α) : Action α → Option (State α)
  | .call i path =>
    match s.phase i with
    | .idle =>
      if startsWith path "/api/" then some (s.move i (.waiting path 0))
      else some (s.move i (.raised ⟨"Only GPU Monitor /api/ endpoints are allowed", none⟩))
    | _ => none
  | .access i =>
    match s.phase i, s.lock with
    | .waiting path attempt, none =>
      if s.token ≠ [] then some (s.sendWith i path attempt s.token)
      else some { s.move i (.loggingIn path attempt) with
        lock := some i
        requests := s.requests ++ [⟨i, loginPath, []⟩] }
    | _, _ => none
  | .loginAnswer i e =>
    match s.phase i with
    | .loggingIn path attempt =>
      match loginResult config e with
      | .error err => some { s.move i (.raised err) with
          lock := none
          loginAnswers := s.loginAnswers ++ [e] }
      | .ok token => some { s.sendWith i path attempt token with
          token, lock := none
          loginAnswers := s.loginAnswers ++ [e]
          issued := s.issued ++ [token] }
    | _ => none
  | .answer i e =>
    match s.phase i with
    | .sending path attempt token =>
      some { s.move i (answered path attempt token (sendResult config e)) with
        refusals := s.refusals ++ refusalOf token (sendResult config e) }
    | _ => none
  | .forget i =>
    match s.phase i, s.lock with
    | .refused path token, none =>
      some { s.move i (.waiting path 1) with token := if s.token = token then [] else s.token }
    | _, _ => none
  | .health i =>
    match s.phase i with
    | .idle => some { s.move i .checking with requests := s.requests ++ [⟨i, healthPath, []⟩] }
    | _ => none
  | .healthAnswer i e =>
    match s.phase i with
    | .checking => some (s.move i (checked (sendResult config e)))
    | _ => none

/-- A login answers with a token that was not issued before. -/
def Fresh (s : State α) : Action α → Prop
  | .loginAnswer _ e => ∀ token ∈ (loginResult config e).toOption, token ∉ s.issued
  | _ => True

instance (s : State α) (a : Action α) : Decidable (Fresh config s a) :=
  match a with
  | .loginAnswer _ e =>
    inferInstanceAs (Decidable (∀ token ∈ (loginResult config e).toOption, token ∉ s.issued))
  | .call _ _ => isTrue trivial
  | .access _ => isTrue trivial
  | .answer _ _ => isTrue trivial
  | .forget _ => isTrue trivial
  | .health _ => isTrue trivial
  | .healthAnswer _ _ => isTrue trivial

/-! ## What one step can do -/

inductive Effect (s : State α) : Action α → State α → Prop
  | called {i : Nat} {path : Text} : s.phase i = .idle → startsWith path "/api/" = true →
      Effect s (.call i path) (s.move i (.waiting path 0))
  | rejected {i : Nat} {path : Text} : s.phase i = .idle → Effect s (.call i path)
      (s.move i (.raised ⟨"Only GPU Monitor /api/ endpoints are allowed", none⟩))
  | accessed {i : Nat} {path : Text} {attempt : Nat} : s.phase i = .waiting path attempt →
      s.lock = none → s.token ≠ [] →
      Effect s (.access i) (s.sendWith i path attempt s.token)
  | locked {i : Nat} {path : Text} {attempt : Nat} : s.phase i = .waiting path attempt →
      s.lock = none → s.token = [] →
      Effect s (.access i) { s.move i (.loggingIn path attempt) with
        lock := some i
        requests := s.requests ++ [⟨i, loginPath, []⟩] }
  | loginFailed {i : Nat} {e : Exchange LoginPayload} {path : Text} {attempt : Nat}
      {err : GpuMonitorApiError} : s.phase i = .loggingIn path attempt →
      loginResult config e = .error err →
      Effect s (.loginAnswer i e) { s.move i (.raised err) with
        lock := none
        loginAnswers := s.loginAnswers ++ [e] }
  | loggedIn {i : Nat} {e : Exchange LoginPayload} {path : Text} {attempt : Nat} {token : Text} :
      s.phase i = .loggingIn path attempt → loginResult config e = .ok token →
      Effect s (.loginAnswer i e) { s.sendWith i path attempt token with
        token, lock := none
        loginAnswers := s.loginAnswers ++ [e]
        issued := s.issued ++ [token] }
  | answered {i : Nat} {e : Exchange α} {path : Text} {attempt : Nat} {token : Text} :
      s.phase i = .sending path attempt token →
      Effect s (.answer i e) { s.move i (answered path attempt token (sendResult config e)) with
        refusals := s.refusals ++ refusalOf token (sendResult config e) }
  | forgot {i : Nat} {path token : Text} : s.phase i = .refused path token → s.lock = none →
      Effect s (.forget i)
        { s.move i (.waiting path 1) with token := if s.token = token then [] else s.token }
  | asked {i : Nat} : s.phase i = .idle → Effect s (.health i)
      { s.move i .checking with requests := s.requests ++ [⟨i, healthPath, []⟩] }
  | told {i : Nat} {e : Exchange α} : s.phase i = .checking →
      Effect s (.healthAnswer i e) (s.move i (checked (sendResult config e)))

end Step

variable {config : Config} {s s' : State α} {a : Action α}

theorem step_effect (h : step config s a = some s') : Effect config s a s' := by
  cases a with
  | call i path =>
    dsimp only [step] at h
    split at h
    · rename_i hPhase
      split at h <;> cases h
      · exact .called hPhase ‹_›
      · exact .rejected hPhase
    · cases h
  | access i =>
    dsimp only [step] at h
    split at h
    · rename_i hPhase hLock
      split at h <;> cases h
      · exact .accessed hPhase hLock ‹_›
      · exact .locked hPhase hLock (not_not.mp ‹_›)
    · cases h
  | loginAnswer i e =>
    dsimp only [step] at h
    split at h
    · rename_i hPhase
      split at h <;> cases h
      · exact .loginFailed hPhase ‹_›
      · exact .loggedIn hPhase ‹_›
    · cases h
  | answer i e =>
    dsimp only [step] at h
    split at h
    · rename_i hPhase
      cases h
      exact .answered hPhase
    · cases h
  | forget i =>
    dsimp only [step] at h
    split at h
    · rename_i hPhase hLock
      cases h
      exact .forgot hPhase hLock
    · cases h
  | health i =>
    dsimp only [step] at h
    split at h
    · rename_i hPhase
      cases h
      exact .asked hPhase
    · cases h
  | healthAnswer i e =>
    dsimp only [step] at h
    split at h
    · rename_i hPhase
      cases h
      exact .told hPhase
    · cases h

theorem sendResult_eq_ok {e : Exchange α} {payload : α}
    (h : sendResult config e = .ok (some payload)) : e = .json payload := by
  cases e with
  | httpError code detail =>
    dsimp only [sendResult] at h
    split at h <;> cases h
  | urlError reason =>
    dsimp only [sendResult] at h
    split at h <;> cases h
  | timedOut => cases h
  | uncaught => cases h
  | tooLarge => cases h
  | empty => cases h
  | notJson => cases h
  | json payload' =>
    cases h
    rfl

theorem loginResult_eq_ok {e : Exchange LoginPayload} {token : Text}
    (h : loginResult config e = .ok token) :
    token ≠ [] ∧ e = .json (.object token (some (some viewer))) := by
  unfold loginResult at h
  split at h
  · cases h
  rename_i payload hSent
  dsimp only at h
  split at h
  · cases h
  rename_i hToken
  split at h
  · cases h
  rename_i hUser
  obtain rfl := Except.ok.inj h
  refine ⟨hToken, ?_⟩
  cases payload with
  | none => exact absurd rfl hToken
  | some payload =>
    cases payload with
    | other => exact absurd rfl hToken
    | object accessToken user =>
      have hRole : user = some (some viewer) := not_not.mp hUser
      rw [sendResult_eq_ok hSent, hRole]
      rfl

theorem notMem_of_fresh {i : Nat} {e : Exchange LoginPayload} {token : Text}
    (h : Fresh config s (.loginAnswer i e)) (hResult : loginResult config e = .ok token) :
    token ∉ s.issued := h token (by rw [hResult]; rfl)

theorem mem_refusalOf {token t : Text} {r : Except GpuMonitorApiError (Option α)}
    (h : t ∈ refusalOf token r) : t = token := by
  unfold refusalOf at h
  split at h
  · split at h
    · exact List.mem_singleton.mp h
    · cases h
  · cases h

/-! ## One login after another -/

/-- The call holds the lock while its login is answered. -/
def Phase.logsIn : Phase α → Bool
  | .loggingIn _ _ => true
  | _ => false

theorem phase_move (s : State α) (i j : Nat) (p : Phase α) :
    (s.move i p).phase j = if j = i then p else s.phase j := Function.update_apply _ _ _ _

structure Locked (s : State α) : Prop where
  holder : ∀ i, s.lock = some i ↔ (s.phase i).logsIn = true
  empty : s.lock.isSome = true → s.token = []

/-- A step that neither takes nor leaves the lock. -/
theorem Locked.keep (h : Locked s) {i : Nat} {p : Phase α}
    (hPhase : s'.phase = Function.update s.phase i p) (hLock : s'.lock = s.lock)
    (hSame : p.logsIn = (s.phase i).logsIn)
    (hEmpty : s.lock.isSome = true → s.token = [] → s'.token = []) : Locked s' := by
  refine ⟨fun j => ?_, fun hHeld => ?_⟩
  · rw [hLock, hPhase, Function.update_apply, h.holder j]
    split
    · rename_i hHere
      rw [hHere, hSame]
    · rfl
  · rw [hLock] at hHeld
    exact hEmpty hHeld (h.empty hHeld)

theorem Locked.free (h : Locked s) (hLock : s.lock = none) (i : Nat) :
    (s.phase i).logsIn = false := by
  cases hLogs : (s.phase i).logsIn with
  | false => rfl
  | true =>
    have hHeld := (h.holder i).mpr hLogs
    rw [hLock] at hHeld
    cases hHeld

/-- The holder leaves the lock. -/
theorem Locked.release (h : Locked s) {i : Nat} {p : Phase α} (hHolds : (s.phase i).logsIn = true)
    (hPhase : s'.phase = Function.update s.phase i p) (hLock : s'.lock = none)
    (hDone : p.logsIn = false) : Locked s' := by
  refine ⟨fun j => ?_, fun hHeld => ?_⟩
  · rw [hLock, hPhase, Function.update_apply]
    refine iff_of_false (nomatch ·) ?_
    split
    · rw [hDone]
      decide
    · rename_i hOther
      intro hLogs
      have hBoth := ((h.holder i).mpr hHolds).symm.trans ((h.holder j).mpr hLogs)
      exact hOther (Option.some.inj hBoth).symm
  · rw [hLock] at hHeld
    cases hHeld

theorem locked_step (h : Locked s) (hStep : step config s a = some s') : Locked s' := by
  cases step_effect hStep with
  | called hPhase hPath => exact h.keep rfl rfl (by rw [hPhase]; rfl) fun _ hToken => hToken
  | rejected hPhase => exact h.keep rfl rfl (by rw [hPhase]; rfl) fun _ hToken => hToken
  | accessed hPhase hLock hToken =>
    exact h.keep rfl rfl (by rw [hPhase]; rfl) fun _ hNil => hNil
  | @locked i path attempt hPhase hLock hToken =>
    refine ⟨fun j => ?_, fun _ => hToken⟩
    change some i = some j ↔ ((s.move i (.loggingIn path attempt)).phase j).logsIn = true
    rw [phase_move]
    split
    · rename_i hHere
      exact iff_of_true (congrArg some hHere.symm) rfl
    · rename_i hOther
      refine iff_of_false (fun hSame => hOther (Option.some.inj hSame).symm) ?_
      rw [h.free hLock]
      decide
  | loginFailed hPhase hResult => exact h.release (by rw [hPhase]; rfl) rfl rfl rfl
  | loggedIn hPhase hResult => exact h.release (by rw [hPhase]; rfl) rfl rfl rfl
  | answered hPhase =>
    refine h.keep rfl rfl ?_ fun _ hToken => hToken
    rw [hPhase]
    unfold McpClient.answered
    split
    · rfl
    · split <;> rfl
  | forgot hPhase hLock =>
    refine h.keep rfl rfl (by rw [hPhase]; rfl) fun hHeld => ?_
    rw [hLock] at hHeld
    cases hHeld
  | asked hPhase => exact h.keep rfl rfl (by rw [hPhase]; rfl) fun _ hToken => hToken
  | @told i e hPhase =>
    refine h.keep rfl rfl ?_ fun _ hToken => hToken
    rw [hPhase]
    cases sendResult config e <;> rfl

/-! ## A new login only after a refusal -/

/-- A token that was issued is the shared one, or it was refused. -/
structure Issued (s : State α) : Prop where
  nodup : s.issued.Nodup
  nonempty : [] ∉ s.issued
  shared : s.token ≠ [] → s.token ∈ s.issued
  refused : ∀ t ∈ s.issued, t = s.token ∨ t ∈ s.refusals
  inHand : ∀ i path attempt t, s.phase i = .sending path attempt t → t ∈ s.issued
  known : ∀ i path t, s.phase i = .refused path t → t ∈ s.refusals ∧ t ∈ s.issued

/-- The client is made without a token and without a call. -/
def Init (s : State α) : Prop := s = {}

theorem locked_of_reach {ok : State α → Action α → Prop} (h : Reach (step config) Init ok s) :
    Locked s := by
  refine h.invariant ?_ fun _ _ _ hLocked _ hStep => locked_step hLocked hStep
  rintro _ rfl
  exact ⟨fun _ => iff_of_false (nomatch ·) Bool.false_ne_true, (nomatch ·)⟩

/-- What the other calls have in hand and know stays as it was. -/
theorem Issued.keep (h : Issued s) {i : Nat} {p : Phase α}
    (hPhase : s'.phase = Function.update s.phase i p) (hIssued : s'.issued = s.issued)
    (hRefusals : s.refusals ⊆ s'.refusals)
    (hShared : s'.token ≠ [] → s'.token ∈ s.issued)
    (hRefused : ∀ t ∈ s.issued, t = s.token → t = s'.token ∨ t ∈ s'.refusals)
    (hInHand : ∀ path attempt t, p = .sending path attempt t → t ∈ s.issued)
    (hKnown : ∀ path t, p = .refused path t → t ∈ s'.refusals ∧ t ∈ s.issued) : Issued s' := by
  refine ⟨hIssued ▸ h.nodup, hIssued ▸ h.nonempty, fun hToken => hIssued ▸ hShared hToken,
    fun t ht => ?_, fun j path attempt t hj => ?_, fun j path t hj => ?_⟩
  · rw [hIssued] at ht
    rcases h.refused t ht with hHere | hGone
    · exact hRefused t ht hHere
    · exact .inr (hRefusals hGone)
  · rw [hPhase, Function.update_apply] at hj
    rw [hIssued]
    split at hj
    · exact hInHand path attempt t hj
    · exact h.inHand j path attempt t hj
  · rw [hPhase, Function.update_apply] at hj
    rw [hIssued]
    split at hj
    · exact hKnown path t hj
    · exact (h.known j path t hj).imp_left fun hGone => hRefusals hGone

theorem refused_of_answered {path path' token t : Text} {attempt : Nat}
    {r : Except GpuMonitorApiError (Option α)}
    (h : answered path attempt token r = .refused path' t) : t ∈ refusalOf token r := by
  unfold answered at h
  split at h
  · cases h
  · split at h
    · cases h
    · rename_i hFirst
      cases h
      have hStatus := not_not.mp (not_or.mp hFirst).1
      simp [refusalOf, hStatus]

theorem not_sending_answered {path path' token t : Text} {attempt attempt' : Nat}
    {r : Except GpuMonitorApiError (Option α)} :
    answered path attempt token r ≠ .sending path' attempt' t := by
  unfold answered
  split
  · exact nofun
  · split <;> exact nofun

theorem issued_step (hLocked : Locked s) (h : Issued s) (hFresh : Fresh config s a)
    (hStep : step config s a = some s') : Issued s' := by
  cases step_effect hStep with
  | called hPhase hPath =>
    exact h.keep rfl rfl (List.Subset.refl _) h.shared (fun _ _ => .inl) nofun nofun
  | rejected hPhase =>
    exact h.keep rfl rfl (List.Subset.refl _) h.shared (fun _ _ => .inl) nofun nofun
  | accessed hPhase hLock hToken =>
    refine h.keep rfl rfl (List.Subset.refl _) h.shared (fun _ _ => .inl) ?_ nofun
    rintro path attempt t hSending
    cases hSending
    exact h.shared hToken
  | locked hPhase hLock hToken =>
    exact h.keep rfl rfl (List.Subset.refl _) h.shared (fun _ _ => .inl) nofun nofun
  | loginFailed hPhase hResult =>
    exact h.keep rfl rfl (List.Subset.refl _) h.shared (fun _ _ => .inl) nofun nofun
  | @loggedIn i e path attempt token hPhase hResult =>
    -- the lock was held, so there was no shared token: what was issued before is refused
    have hHeld : s.lock = some i := (hLocked.holder i).mpr (by rw [hPhase]; rfl)
    have hNoToken : s.token = [] := hLocked.empty (by rw [hHeld]; rfl)
    have hNew := notMem_of_fresh hFresh hResult
    obtain ⟨hToken, -⟩ := loginResult_eq_ok hResult
    refine ⟨?_, fun hNil => ?_, fun _ => List.mem_concat_self, fun t ht => ?_,
      fun j path' attempt' t hj => ?_, fun j path' t hj => ?_⟩
    · refine List.nodup_append.mpr ⟨h.nodup, List.nodup_singleton token, ?_⟩
      rintro t ht u hu rfl
      exact hNew (List.mem_singleton.mp hu ▸ ht)
    · rcases List.mem_append.mp hNil with hOld | hLast
      · exact h.nonempty hOld
      · exact hToken (List.mem_singleton.mp hLast).symm
    · rcases List.mem_append.mp ht with hOld | hLast
      · refine .inr ((h.refused t hOld).resolve_left fun hHere => ?_)
        rw [hHere, hNoToken] at hOld
        exact h.nonempty hOld
      · exact .inl (List.mem_singleton.mp hLast)
    · change Function.update s.phase i (.sending path attempt token) j = _ at hj
      rw [Function.update_apply] at hj
      split at hj
      · cases hj
        exact List.mem_concat_self
      · exact List.mem_append_left _ (h.inHand j path' attempt' t hj)
    · change Function.update s.phase i (.sending path attempt token) j = _ at hj
      rw [Function.update_apply] at hj
      split at hj
      · cases hj
      · exact (h.known j path' t hj).imp_right (List.mem_append_left _)
  | answered hPhase =>
    refine h.keep rfl rfl (List.subset_append_left _ _) h.shared (fun _ _ => .inl) ?_ ?_
    · intro path' attempt' t hSending
      exact absurd hSending not_sending_answered
    · intro path' t hRefused
      have hHere := refused_of_answered hRefused
      exact ⟨List.mem_append_right _ hHere, mem_refusalOf hHere ▸ h.inHand _ _ _ _ hPhase⟩
  | @forgot i path token hPhase hLock =>
    refine h.keep rfl rfl (List.Subset.refl _) ?_ ?_ nofun nofun
    · intro hToken
      dsimp only at hToken ⊢
      split at hToken
      · exact absurd rfl hToken
      · rename_i hOther
        rw [if_neg hOther]
        exact h.shared hToken
    · -- the shared token goes only if it is the one that was refused
      rintro t ht rfl
      dsimp only
      split
      · rename_i hSame
        exact .inr (hSame ▸ (h.known i path token hPhase).1)
      · exact .inl rfl
  | asked hPhase =>
    exact h.keep rfl rfl (List.Subset.refl _) h.shared (fun _ _ => .inl) nofun nofun
  | @told i e hPhase =>
    refine h.keep rfl rfl (List.Subset.refl _) h.shared (fun _ _ => .inl) ?_ ?_
    · intro path attempt t hSending
      cases hResult : sendResult config e <;> rw [hResult] at hSending <;> cases hSending
    · intro path t hRefused
      cases hResult : sendResult config e <;> rw [hResult] at hRefused <;> cases hRefused

theorem issued_of_reach (h : Reach (step config) Init (Fresh config) s) : Issued s := by
  refine h.invariant_of (fun _ hr => locked_of_reach hr) ?_
    fun _ _ _ hLocked _ hIssued hFresh hStep => issued_step hLocked hIssued hFresh hStep
  rintro _ rfl
  exact ⟨List.nodup_nil, List.not_mem_nil, absurd rfl, nofun, nofun, nofun⟩

/-- In every run, of all tokens that logins have brought only the shared one was not refused: the
client has logged in at most once more than different tokens were refused. -/
theorem issued_refused (h : Reach (step config) Init (Fresh config) s) :
    (∀ t ∈ s.issued, t ≠ s.token → t ∈ s.refusals) ∧
      s.issued.length ≤ s.refusals.toFinset.card + 1 := by
  have hIssued := issued_of_reach h
  have hRefused : ∀ t ∈ s.issued, t ≠ s.token → t ∈ s.refusals := fun t ht hOther =>
    (hIssued.refused t ht).resolve_left hOther
  refine ⟨hRefused, ?_⟩
  have hSub : s.issued.toFinset ⊆ insert s.token s.refusals.toFinset := by
    intro t ht
    by_cases hSame : t = s.token
    · exact hSame ▸ Finset.mem_insert_self _ _
    · exact Finset.mem_insert_of_mem
        (List.mem_toFinset.mpr (hRefused t (List.mem_toFinset.mp ht) hSame))
  calc s.issued.length = s.issued.toFinset.card :=
        (List.toFinset_card_of_nodup hIssued.nodup).symm
    _ ≤ (insert s.token s.refusals.toFinset).card := Finset.card_le_card hSub
    _ ≤ s.refusals.toFinset.card + 1 := Finset.card_insert_le _ _

/-- The login of a viewer. -/
def viewerLogin (token : Text) : Exchange LoginPayload :=
  .json (.object token (some (some viewer)))

def demoConfig : Config where
  baseUrl := "http://127.0.0.1:8300"
  timeout := "15"
  strictPrivacy := true

/-- Two calls send the same token, and both are refused: the second one finds the token that the
first has renewed, and both succeed with it. -/
def renewed : List (Action Nat) :=
  [.call 0 "/api/servers", .access 0, .loginAnswer 0 (viewerLogin "a"), .call 1 "/api/servers",
    .access 1, .answer 0 (.httpError 401 []), .forget 0, .access 0,
    .loginAnswer 0 (viewerLogin "b"), .answer 1 (.httpError 401 []), .forget 1, .access 1,
    .answer 1 (.json 7), .answer 0 (.json 8)]

theorem issued_refused_renewed : ∃ s : State Nat,
    Reach (step demoConfig) Init (Fresh demoConfig) s ∧ s.issued = ["a".toList, "b".toList] ∧
      s.issued.length ≤ s.refusals.toFinset.card + 1 := by
  have hRun : ∃ s : State Nat, Reach (step demoConfig) Init (Fresh demoConfig) s ∧
      s.issued = ["a".toList, "b".toList] :=
    Reach.exists_of_exec renewed (show Init {} from rfl) (by decide +kernel)
  obtain ⟨s, hReach, hTwo⟩ := hRun
  exact ⟨s, hReach, hTwo, (issued_refused hReach).2⟩

/-! ## The requests of one call -/

/-- The tokens with which a call has sent its requests. -/
def State.sent (s : State α) (i : Nat) : List Text :=
  (s.requests.filter fun r => r.caller = i ∧ r.token ≠ []).map Request.token

/-- A token that is not the shared one, and will not be it again. -/
def State.Spent (s : State α) (t : Text) : Prop := t ∈ s.issued ∧ t ≠ s.token

theorem spent_step {t : Text} (hIssued : Issued s) (h : s.Spent t) (hFresh : Fresh config s a)
    (hStep : step config s a = some s') : s'.Spent t := by
  obtain ⟨hMem, hOther⟩ := h
  cases step_effect hStep with
  | called hPhase hPath => exact ⟨hMem, hOther⟩
  | rejected hPhase => exact ⟨hMem, hOther⟩
  | accessed hPhase hLock hToken => exact ⟨hMem, hOther⟩
  | locked hPhase hLock hToken => exact ⟨hMem, hOther⟩
  | loginFailed hPhase hResult => exact ⟨hMem, hOther⟩
  | @loggedIn i e path attempt token hPhase hResult =>
    refine ⟨List.mem_append_left _ hMem, ?_⟩
    rintro rfl
    exact notMem_of_fresh hFresh hResult hMem
  | answered hPhase => exact ⟨hMem, hOther⟩
  | forgot hPhase hLock =>
    refine ⟨hMem, ?_⟩
    dsimp only
    split
    · rintro rfl
      exact hIssued.nonempty hMem
    · exact hOther
  | asked hPhase => exact ⟨hMem, hOther⟩
  | told hPhase => exact ⟨hMem, hOther⟩

/-- What a call has sent, by where it stands. -/
def Sent (s : State α) : Phase α → List Text → Prop
  | .idle, sent => sent = []
  | .checking, sent => sent = []
  | .waiting _ 0, sent => sent = []
  | .loggingIn _ 0, sent => sent = []
  | .sending _ 0 token, sent => sent = [token]
  | .refused _ token, sent => sent = [token]
  | .waiting _ (_ + 1), sent => ∃ t, sent = [t] ∧ s.Spent t
  | .loggingIn _ (_ + 1), sent => ∃ t, sent = [t] ∧ s.Spent t
  | .sending _ (_ + 1) token, sent => ∃ t, sent = [t, token] ∧ t ≠ token
  | .returned _, sent => sent.length ≤ 2 ∧ sent.Nodup
  | .raised _, sent => sent.length ≤ 2 ∧ sent.Nodup

theorem Sent.mono {p : Phase α} {sent : List Text} (hSpent : ∀ t, s.Spent t → s'.Spent t)
    (h : Sent s p sent) : Sent s' p sent := by
  cases p with
  | waiting path attempt =>
    cases attempt with
    | zero => exact h
    | succ n =>
      obtain ⟨t, hSent, ht⟩ := h
      exact ⟨t, hSent, hSpent t ht⟩
  | loggingIn path attempt =>
    cases attempt with
    | zero => exact h
    | succ n =>
      obtain ⟨t, hSent, ht⟩ := h
      exact ⟨t, hSent, hSpent t ht⟩
  | sending path attempt token => cases attempt <;> exact h
  | _ => exact h

/-- However a call ends, it has sent at most two requests with different tokens. -/
theorem Sent.bound {p : Phase α} {sent : List Text} (h : Sent s p sent) :
    sent.length ≤ 2 ∧ sent.Nodup := by
  have hNil : ([] : List Text).length ≤ 2 ∧ ([] : List Text).Nodup := ⟨by simp, List.nodup_nil⟩
  have hOne : ∀ t : Text, [t].length ≤ 2 ∧ [t].Nodup := fun t => ⟨by simp, List.nodup_singleton t⟩
  cases p with
  | idle => exact h ▸ hNil
  | waiting path attempt =>
    cases attempt with
    | zero => exact h ▸ hNil
    | succ n =>
      obtain ⟨t, rfl, -⟩ := h
      exact hOne t
  | loggingIn path attempt =>
    cases attempt with
    | zero => exact h ▸ hNil
    | succ n =>
      obtain ⟨t, rfl, -⟩ := h
      exact hOne t
  | sending path attempt token =>
    cases attempt with
    | zero => exact h ▸ hOne token
    | succ n =>
      obtain ⟨t, rfl, hOther⟩ := h
      exact ⟨by simp, by simpa using hOther⟩
  | refused path token => exact h ▸ hOne token
  | checking => exact h ▸ hNil
  | returned payload => exact h
  | raised error => exact h

theorem sent_append {r : Request} (h : s'.requests = s.requests ++ [r]) (i : Nat) :
    s'.sent i = s.sent i ++ if r.caller = i ∧ r.token ≠ [] then [r.token] else [] := by
  rw [State.sent, State.sent, h, List.filter_append, List.map_append]
  congr 1
  by_cases hMine : r.caller = i ∧ r.token ≠ []
  · rw [if_pos hMine, List.filter_cons_of_pos (by simpa using hMine)]
    rfl
  · rw [if_neg hMine, List.filter_cons_of_neg (by simpa using hMine)]
    rfl

def AllSent (s : State α) : Prop := ∀ i, Sent s (s.phase i) (s.sent i)

/-- One call goes on; the others have sent what they had sent. -/
theorem AllSent.keep (h : AllSent s) {i : Nat} {p : Phase α}
    (hPhase : s'.phase = Function.update s.phase i p)
    (hSpent : ∀ t, s.Spent t → s'.Spent t) (hOthers : ∀ j, j ≠ i → s'.sent j = s.sent j)
    (hSent : Sent s' p (s'.sent i)) : AllSent s' := by
  intro j
  rw [hPhase, Function.update_apply]
  split
  · rename_i hHere
    rw [hHere]
    exact hSent
  · rename_i hOther
    rw [hOthers j hOther]
    exact (h j).mono hSpent

/-- A call that has its token sends a request: the first, or the second with another token. -/
theorem Sent.next {path token : Text} {attempt : Nat} {sent : List Text}
    (h : Sent s (.waiting path attempt) sent ∨ Sent s (.loggingIn path attempt) sent)
    (hOther : ∀ t, s.Spent t → t ≠ token) :
    Sent s' (.sending path attempt token) (sent ++ [token]) := by
  cases attempt with
  | zero =>
    have hNone : sent = [] := h.elim id id
    rw [hNone]
    rfl
  | succ n =>
    obtain ⟨t, hOne, hSpent⟩ : ∃ t, sent = [t] ∧ s.Spent t := h.elim id id
    exact ⟨t, by rw [hOne, List.singleton_append], hOther t hSpent⟩

theorem allSent_step (hIssued : Issued s) (h : AllSent s) (hFresh : Fresh config s a)
    (hStep : step config s a = some s') : AllSent s' := by
  have hSpent : ∀ t, s.Spent t → s'.Spent t := fun t ht => spent_step hIssued ht hFresh hStep
  have hHere : ∀ {i : Nat} {p : Phase α}, s.phase i = p → Sent s p (s.sent i) := by
    rintro i p rfl
    exact h i
  cases step_effect hStep with
  | called hPhase hPath => exact h.keep rfl hSpent (fun _ _ => rfl) (hHere hPhase)
  | rejected hPhase => exact h.keep rfl hSpent (fun _ _ => rfl) (hHere hPhase).bound
  | @accessed i path attempt hPhase hLock hToken =>
    refine h.keep rfl hSpent (fun j hj => ?_) ?_
    · rw [sent_append rfl, if_neg fun hMine => hj hMine.1.symm, List.append_nil]
    · rw [sent_append rfl, if_pos ⟨rfl, hToken⟩]
      exact Sent.next (.inl (hHere hPhase)) fun t ht => ht.2
  | @locked i path attempt hPhase hLock hToken =>
    refine h.keep rfl hSpent (fun j _ => ?_) ?_
    · rw [sent_append rfl, if_neg fun hMine => hMine.2 rfl, List.append_nil]
    · rw [sent_append rfl, if_neg fun hMine => hMine.2 rfl, List.append_nil]
      have hWaits := hHere hPhase
      cases attempt <;> exact hWaits
  | loginFailed hPhase hResult =>
    exact h.keep rfl hSpent (fun _ _ => rfl) (hHere hPhase).bound
  | @loggedIn i e path attempt token hPhase hResult =>
    obtain ⟨hToken, -⟩ := loginResult_eq_ok hResult
    refine h.keep rfl hSpent (fun j hj => ?_) ?_
    · rw [sent_append rfl, if_neg fun hMine => hj hMine.1.symm, List.append_nil]
    · rw [sent_append rfl, if_pos ⟨rfl, hToken⟩]
      refine Sent.next (.inr (hHere hPhase)) ?_
      rintro t ⟨hMem, -⟩ rfl
      exact notMem_of_fresh hFresh hResult hMem
  | @answered i e path attempt token hPhase =>
    refine h.keep rfl hSpent (fun _ _ => rfl) ?_
    unfold McpClient.answered
    split
    · exact (hHere hPhase).bound
    · split
      · exact (hHere hPhase).bound
      · rename_i hFirst
        obtain rfl := not_not.mp (not_or.mp hFirst).2
        exact hHere hPhase
  | @forgot i path token hPhase hLock =>
    refine h.keep rfl hSpent (fun _ _ => rfl) ⟨token, hHere hPhase, ?_⟩
    have hMem := (hIssued.known i path token hPhase).2
    refine ⟨hMem, ?_⟩
    dsimp only
    split
    · rintro rfl
      exact hIssued.nonempty hMem
    · rename_i hOther
      exact fun hSame => hOther hSame.symm
  | @asked i hPhase =>
    refine h.keep rfl hSpent (fun j _ => ?_) ?_
    · rw [sent_append rfl, if_neg fun hMine => hMine.2 rfl, List.append_nil]
    · rw [sent_append rfl, if_neg fun hMine => hMine.2 rfl, List.append_nil]
      exact hHere hPhase
  | @told i e hPhase =>
    refine h.keep rfl hSpent (fun _ _ => rfl) ?_
    have hBound := (hHere hPhase).bound
    cases sendResult config e <;> exact hBound

/-- In every run a call sends at most two requests that carry a token, and not twice the same
one: what was refused is not presented again. -/
theorem requests_of_caller (h : Reach (step config) Init (Fresh config) s) (i : Nat) :
    (s.sent i).length ≤ 2 ∧ (s.sent i).Nodup := by
  have hAll : AllSent s := by
    refine h.invariant_of (fun _ hr => issued_of_reach hr) ?_
      fun _ _ _ hIssued _ hAll hFresh hStep => allSent_step hIssued hAll hFresh hStep
    rintro _ rfl j
    exact (rfl : State.sent ({} : State α) j = [])
  exact (hAll i).bound

theorem requests_of_caller_renewed : ∃ s : State Nat,
    Reach (step demoConfig) Init (Fresh demoConfig) s ∧
      s.sent 1 = ["a".toList, "b".toList] ∧ (s.sent 1).Nodup := by
  have hRun : ∃ s : State Nat, Reach (step demoConfig) Init (Fresh demoConfig) s ∧
      s.sent 1 = ["a".toList, "b".toList] :=
    Reach.exists_of_exec renewed (show Init {} from rfl) (by decide +kernel)
  obtain ⟨s, hReach, hSent⟩ := hRun
  exact ⟨s, hReach, hSent, (requests_of_caller hReach 1).2⟩

/-! ## Where tokens come from and go to -/

/-- The path of a call under way. -/
def Phase.path? : Phase α → Option Text
  | .waiting path _ => some path
  | .loggingIn path _ => some path
  | .sending path _ _ => some path
  | .refused path _ => some path
  | _ => none

structure Credentials (s : State α) : Prop where
  paths : ∀ i path, (s.phase i).path? = some path → startsWith path "/api/" = true
  viewers : ∀ t ∈ s.issued, .json (.object t (some (some viewer))) ∈ s.loginAnswers
  shared : s.token ≠ [] → s.token ∈ s.issued
  requests : ∀ r ∈ s.requests, if r.token = [] then r.path = loginPath ∨ r.path = healthPath
    else startsWith r.path "/api/" = true ∧ r.token ∈ s.issued

/-- A call goes on, no token is issued, and at most one request is sent. -/
theorem Credentials.keep (h : Credentials s) {i : Nat} {p : Phase α} {new : List Request}
    (hPhase : s'.phase = Function.update s.phase i p)
    (hPath : ∀ path, p.path? = some path → startsWith path "/api/" = true)
    (hIssued : s'.issued = s.issued) (hAnswers : s.loginAnswers ⊆ s'.loginAnswers)
    (hShared : s'.token ≠ [] → s'.token ∈ s.issued)
    (hRequests : s'.requests = s.requests ++ new)
    (hNew : ∀ r ∈ new, if r.token = [] then r.path = loginPath ∨ r.path = healthPath
      else startsWith r.path "/api/" = true ∧ r.token ∈ s.issued) : Credentials s' := by
  refine ⟨fun j path hj => ?_, fun t ht => ?_, fun hToken => hIssued ▸ hShared hToken,
    fun r hr => ?_⟩
  · rw [hPhase, Function.update_apply] at hj
    split at hj
    · exact hPath path hj
    · exact h.paths j path hj
  · rw [hIssued] at ht
    exact hAnswers (h.viewers t ht)
  · rw [hRequests] at hr
    rw [hIssued]
    exact (List.mem_append.mp hr).elim (h.requests r) (hNew r)

theorem path_answered {path path' token : Text} {attempt : Nat}
    {r : Except GpuMonitorApiError (Option α)}
    (h : (answered path attempt token r).path? = some path') : path' = path := by
  unfold answered at h
  split at h
  · cases h
  · split at h
    · cases h
    · exact (Option.some.inj h).symm

theorem credentials_step (h : Credentials s) (hStep : step config s a = some s') :
    Credentials s' := by
  have hHere : ∀ {i : Nat} {p : Phase α} {path path' : Text}, s.phase i = p →
      p.path? = some path → some path = some path' → startsWith path' "/api/" = true := by
    rintro i p path path' rfl hPath hSame
    exact h.paths i path' (hPath.trans hSame)
  cases step_effect hStep with
  | called hPhase hPath =>
    refine h.keep rfl ?_ rfl (List.Subset.refl _) h.shared (List.append_nil _).symm nofun
    rintro path' hSame
    exact Option.some.inj hSame ▸ hPath
  | rejected hPhase =>
    exact h.keep rfl nofun rfl (List.Subset.refl _) h.shared (List.append_nil _).symm nofun
  | @accessed i path attempt hPhase hLock hToken =>
    refine h.keep rfl (fun _ => hHere hPhase rfl) rfl (List.Subset.refl _) h.shared rfl ?_
    rintro r hr
    obtain rfl := List.mem_singleton.mp hr
    rw [if_neg hToken]
    exact ⟨hHere hPhase rfl rfl, h.shared hToken⟩
  | locked hPhase hLock hToken =>
    refine h.keep rfl (fun _ => hHere hPhase rfl) rfl (List.Subset.refl _) h.shared rfl ?_
    rintro r hr
    obtain rfl := List.mem_singleton.mp hr
    exact if_pos rfl ▸ .inl rfl
  | loginFailed hPhase hResult =>
    exact h.keep rfl nofun rfl (List.subset_append_left _ _) h.shared
      (List.append_nil _).symm nofun
  | @loggedIn i e path attempt token hPhase hResult =>
    obtain ⟨hToken, hAnswer⟩ := loginResult_eq_ok hResult
    have hPath : startsWith path "/api/" = true := hHere hPhase rfl rfl
    refine ⟨fun j path' hj => ?_, fun t ht => ?_, fun _ => List.mem_concat_self, fun r hr => ?_⟩
    · change (Function.update s.phase i (.sending path attempt token) j).path? = _ at hj
      rw [Function.update_apply] at hj
      split at hj
      · exact Option.some.inj hj ▸ hPath
      · exact h.paths j path' hj
    · rcases List.mem_append.mp ht with hOld | hLast
      · exact List.mem_append_left _ (h.viewers t hOld)
      · rw [List.mem_singleton.mp hLast, ← hAnswer]
        exact List.mem_concat_self
    · rcases List.mem_append.mp hr with hOld | hLast
      · have hReq := h.requests r hOld
        split at hReq
        · rename_i hNil
          rw [if_pos hNil]
          exact hReq
        · rename_i hSome
          rw [if_neg hSome]
          exact hReq.imp_right (List.mem_append_left _)
      · obtain rfl := List.mem_singleton.mp hLast
        rw [if_neg hToken]
        exact ⟨hPath, List.mem_concat_self⟩
  | answered hPhase =>
    refine h.keep rfl (fun path' hSame => ?_) rfl (List.Subset.refl _) h.shared
      (List.append_nil _).symm nofun
    rw [path_answered hSame]
    exact hHere hPhase rfl rfl
  | forgot hPhase hLock =>
    refine h.keep rfl (fun _ => hHere hPhase rfl) rfl (List.Subset.refl _) ?_
      (List.append_nil _).symm nofun
    intro hToken
    dsimp only at hToken ⊢
    split at hToken
    · exact absurd rfl hToken
    · rename_i hOther
      rw [if_neg hOther]
      exact h.shared hToken
  | asked hPhase =>
    refine h.keep rfl nofun rfl (List.Subset.refl _) h.shared rfl ?_
    rintro r hr
    obtain rfl := List.mem_singleton.mp hr
    exact if_pos rfl ▸ .inr rfl
  | @told i e hPhase =>
    refine h.keep rfl (fun path hSome => ?_) rfl (List.Subset.refl _) h.shared
      (List.append_nil _).symm nofun
    cases hResult : sendResult config e <;> rw [hResult] at hSome <;> cases hSome

/-- In every run a request is a login or asks for the health, both without a token, or it goes to a
path under `/api/` with a token that a login has brought whose user was a viewer. -/
theorem credentials_of_run (h : Reach (step config) Init Always s) :
    ∀ r ∈ s.requests, (r.path = loginPath ∨ r.path = healthPath) ∧ r.token = [] ∨
      startsWith r.path "/api/" = true ∧
        .json (.object r.token (some (some viewer))) ∈ s.loginAnswers := by
  have hCredentials : Credentials s := by
    refine h.invariant ?_ fun _ _ _ hHere _ hStep => credentials_step hHere hStep
    rintro _ rfl
    exact ⟨nofun, nofun, absurd rfl, nofun⟩
  intro r hr
  have hReq := hCredentials.requests r hr
  split at hReq
  · exact .inl ⟨hReq, ‹_›⟩
  · exact .inr ⟨hReq.1, hCredentials.viewers r.token hReq.2⟩

theorem credentials_of_run_renewed : ∃ s : State Nat, Reach (step demoConfig) Init Always s ∧
    ⟨1, "/api/servers", "b"⟩ ∈ s.requests ∧
    ((("/api/servers".toList = loginPath ∨ "/api/servers".toList = healthPath) ∧ "b".toList = []) ∨
      startsWith "/api/servers" "/api/" = true ∧ viewerLogin "b" ∈ s.loginAnswers) := by
  have hRun : ∃ s : State Nat, Reach (step demoConfig) Init Always s ∧
      (⟨1, "/api/servers", "b"⟩ : Request) ∈ s.requests :=
    Reach.exists_of_exec renewed (show Init {} from rfl) (by decide +kernel)
  obtain ⟨s, hReach, hMem⟩ := hRun
  exact ⟨s, hReach, hMem, credentials_of_run hReach _ hMem⟩

/-! ## Every call ends -/

/-- How many steps a call may still make. -/
def Phase.rank : Phase α → Nat
  | .idle => 8
  | .waiting _ 0 => 7
  | .loggingIn _ 0 => 6
  | .sending _ 0 _ => 5
  | .refused _ _ => 4
  | .waiting _ (_ + 1) => 3
  | .loggingIn _ (_ + 1) => 2
  | .sending _ (_ + 1) _ => 1
  | .checking => 1
  | .returned _ => 0
  | .raised _ => 0

/-- A step takes its call further and leaves the others where they are. -/
theorem rank_step (h : step config s a = some s') (i : Nat) :
    (s'.phase i).rank + (if a.caller = i then 1 else 0) ≤ (s.phase i).rank := by
  have hMove : ∀ {j : Nat} {p q : Phase α}, s.phase j = q → p.rank + 1 ≤ q.rank →
      s'.phase = Function.update s.phase j p → a.caller = j →
      (s'.phase i).rank + (if a.caller = i then 1 else 0) ≤ (s.phase i).rank := by
    rintro j p q rfl hLess hPhase rfl
    rw [hPhase, Function.update_apply]
    by_cases hHere : i = a.caller
    · rw [if_pos hHere, if_pos hHere.symm, hHere]
      exact hLess
    · rw [if_neg hHere, if_neg fun hSame => hHere hSame.symm]
      omega
  cases step_effect h with
  | called hPhase hPath => exact hMove hPhase (by simp [Phase.rank]) rfl rfl
  | rejected hPhase => exact hMove hPhase (by simp [Phase.rank]) rfl rfl
  | accessed hPhase hLock hToken =>
    rename_i attempt
    exact hMove hPhase (by cases attempt <;> simp [Phase.rank]) rfl rfl
  | locked hPhase hLock hToken =>
    rename_i attempt
    exact hMove hPhase (by cases attempt <;> simp [Phase.rank]) rfl rfl
  | loginFailed hPhase hResult =>
    rename_i attempt err
    exact hMove hPhase (by cases attempt <;> simp [Phase.rank]) rfl rfl
  | loggedIn hPhase hResult =>
    rename_i attempt token
    exact hMove hPhase (by cases attempt <;> simp [Phase.rank]) rfl rfl
  | @answered j e path attempt token hPhase =>
    refine hMove hPhase ?_ rfl rfl
    unfold McpClient.answered
    split
    · cases attempt <;> simp [Phase.rank]
    · split
      · cases attempt <;> simp [Phase.rank]
      · rename_i hFirst
        obtain rfl := not_not.mp (not_or.mp hFirst).2
        simp [Phase.rank]
  | forgot hPhase hLock => exact hMove hPhase (by simp [Phase.rank]) rfl rfl
  | asked hPhase => exact hMove hPhase (by simp [Phase.rank]) rfl rfl
  | @told j e hPhase =>
    exact hMove hPhase (by cases sendResult config e <;> simp [checked, Phase.rank]) rfl rfl

theorem steps_le_rank {as : List (Action α)} (h : exec (step config) Always s as = some s')
    (i : Nat) : (as.filter fun b => b.caller = i).length + (s'.phase i).rank ≤ (s.phase i).rank := by
  induction as generalizing s with
  | nil =>
    cases h
    simp
  | cons b as ih =>
    rw [exec, if_pos (show Always s b from trivial)] at h
    obtain ⟨t, hFirst, hRest⟩ := Option.bind_eq_some_iff.mp h
    have hLater := ih hRest
    have hHere := rank_step hFirst i
    by_cases hMine : b.caller = i
    · rw [List.filter_cons_of_pos (by simpa using hMine), List.length_cons]
      rw [if_pos hMine] at hHere
      omega
    · rw [List.filter_cons_of_neg (by simpa using hMine)]
      omega

/-- The call has not begun, or it has returned or raised. -/
def Phase.settled : Phase α → Bool
  | .idle => true
  | .returned _ => true
  | .raised _ => true
  | _ => false

/-- While a call is under way, some call can go on: the one that holds the lock, or any other. -/
theorem exists_step (hLocked : Locked s) {i : Nat} (h : (s.phase i).settled = false) :
    ∃ b : Action α, (step config s b).isSome = true ∧ (s.phase b.caller).settled = false := by
  cases hLock : s.lock with
  | some j =>
    have hHolds := (hLocked.holder j).mp hLock
    cases hPhase : s.phase j with
    | loggingIn path attempt =>
      exact ⟨.loginAnswer j .timedOut, by simp [step, hPhase, loginResult, sendResult],
        by simp [Action.caller, hPhase, Phase.settled]⟩
    | _ =>
      rw [hPhase] at hHolds
      cases hHolds
  | none =>
    have hFree := hLocked.free hLock i
    cases hPhase : s.phase i with
    | waiting path attempt =>
      refine ⟨.access i, ?_, by simp [Action.caller, hPhase, Phase.settled]⟩
      by_cases hToken : s.token = [] <;> simp [step, hPhase, hLock, hToken]
    | sending path attempt token =>
      exact ⟨.answer i .timedOut, by simp [step, hPhase],
        by simp [Action.caller, hPhase, Phase.settled]⟩
    | refused path token =>
      exact ⟨.forget i, by simp [step, hPhase, hLock],
        by simp [Action.caller, hPhase, Phase.settled]⟩
    | checking =>
      exact ⟨.healthAnswer i .timedOut, by simp [step, hPhase],
        by simp [Action.caller, hPhase, Phase.settled]⟩
    | loggingIn path attempt =>
      rw [hPhase] at hFree
      cases hFree
    | _ =>
      rw [hPhase] at h
      cases h

/-- In every run a call makes at most eight steps, and if no call under way can go on then none
is: each has returned or raised. -/
theorem calls_settle {as : List (Action α)}
    (h : exec (step config) Always ({} : State α) as = some s) :
    (∀ i, (as.filter fun b => b.caller = i).length ≤ 8) ∧
      ((∀ b : Action α, (step config s b).isSome = true → (s.phase b.caller).settled = true) →
        ∀ i, (s.phase i).settled = true) := by
  have hInit : Init ({} : State α) := rfl
  have hReach : Reach (step config) Init Always s := (Reach.start hInit).of_exec h
  refine ⟨fun i => ?_, fun hStuck i => ?_⟩
  · have hBound := steps_le_rank h i
    change _ ≤ 8 at hBound
    omega
  · by_contra hOpen
    obtain ⟨b, hStep, hCaller⟩ : ∃ b : Action α,
        (step config s b).isSome = true ∧ (s.phase b.caller).settled = false :=
      exists_step (locked_of_reach hReach) (Bool.not_eq_true _ ▸ hOpen)
    rw [hStuck b hStep] at hCaller
    cases hCaller

theorem calls_settle_renewed : ∃ s : State Nat,
    exec (step demoConfig) Always {} renewed = some s ∧
      (renewed.filter fun b => b.caller = 1).length ≤ 8 := by
  have hRun : (exec (step demoConfig) Always {} renewed).isSome = true := by decide +kernel
  obtain ⟨s, hs⟩ := Option.isSome_iff_exists.mp hRun
  exact ⟨s, hs, (calls_settle hs).1 1⟩

end GpuMon.McpClient

import GpuMon.Account.Users
import GpuMon.Library.Dict
import GpuMon.Library.PyText

/-!
# Cookie authentication and the CSRF check (`main.py`, `security.py`)

The middleware asks a request with the access cookie for a CSRF token unless it bears an
`Authorization` header of the scheme `Bearer`; the dependency takes the token of the framework's
extractor, and the cookie only when no header was supplied. The header is thus read three times.

* `cookie_authentication_checked`: a mutating request that is authenticated from the cookie has
  passed the check, and one that was exempted for its header is never authenticated from it.
* `exempted_uses_bearer`: an exempted request is authenticated with what its header bears.

The first holds for every extractor. `casefold`, `lower`, `oauth2` and `decodeToken` stand for the
string methods, the extractor and the JWT library.
-/

namespace GpuMon.Csrf

open PyText Account

/-- A request as the framework presents it: the headers in order with their names in lower case,
and the cookies. `path` is `request.url.path`, which is built with the header `Host`; the path that
is routed may be another one. -/
structure HttpRequest where
  method : Text
  path : Text
  headers : List (Text × Text) := []
  cookies : Dict Text Text := .empty

/-- `request.headers.get(name)`. -/
def HttpRequest.header (r : HttpRequest) (name : Text) : Option Text :=
  (r.headers.find? fun h => h.1 = name).map Prod.snd

def accessCookie : Text := "gpumon_access"

def csrfCookie : Text := "gpumon_csrf"

/-! ## The middleware -/

/-- `has_bearer_authorization`. -/
def hasBearerAuthorization (casefold : Text → Text) (r : HttpRequest) : Bool :=
  let raw := (r.header "authorization").getD []
  ' ' ∈ raw && casefold (partition ' ' raw).1 = "bearer" && strip (partition ' ' raw).2 ≠ []

/-- `hmac.compare_digest` on strings; `none` is the `TypeError` for text outside ASCII. -/
def compareDigest (a b : Text) : Option Bool :=
  if a.all (·.toNat < 128) && b.all (·.toNat < 128) then some (a = b) else none

/-- `valid_csrf`. -/
def validCsrf (r : HttpRequest) : Option Bool :=
  let cookie := (r.cookies.get? csrfCookie).getD []
  let header := (r.header "x-csrf-token").getD []
  if cookie ≠ [] ∧ header ≠ [] then compareDigest cookie header else some false

def mutatingMethods : List Text := ["POST", "PUT", "PATCH", "DELETE"]

def loginPaths : List Text := ["/api/auth/login", "/api/auth/login-json"]

/-- The condition of `SecurityHeadersMiddleware.dispatch`. -/
def checksCsrf (casefold : Text → Text) (r : HttpRequest) : Bool :=
  r.method ∈ mutatingMethods && startsWith r.path "/api/" && r.path ∉ loginPaths &&
    (r.cookies.get? accessCookie).getD [] ≠ [] && !hasBearerAuthorization casefold r

/-- The answer of the middleware: its own, an exception, or that of the application. -/
inductive Answer (α : Type)
  | rejected (error : HttpError)
  | raised
  | passed (answer : α)

/-- `SecurityHeadersMiddleware.dispatch`, less the headers that it sets. -/
def dispatch {α : Type} (casefold : Text → Text) (callNext : HttpRequest → α) (r : HttpRequest) :
    Answer α :=
  if checksCsrf casefold r then
    match validCsrf r with
    | none => .raised
    | some false => .rejected ⟨403, "CSRF validation failed"⟩
    | some true => .passed (callNext r)
  else .passed (callNext r)

/-! ## The dependency -/

/-- Where a token was taken from. -/
inductive TokenSource
  | bearer
  | cookie
  deriving DecidableEq

/-- The choice of the token in `get_current_user`. -/
def tokenOf (oauth2 : Option Text → Option Text) (r : HttpRequest) : Option (TokenSource × Text) :=
  let authorizationSupplied := strip ((r.header "authorization").getD []) ≠ []
  let bearerToken := (oauth2 (r.header "authorization")).getD []
  if authorizationSupplied ∧ bearerToken = [] then none
  else if bearerToken ≠ [] then some (.bearer, bearerToken)
  else
    let token := (r.cookies.get? accessCookie).getD []
    if token = [] then none else some (.cookie, token)

/-- `get_current_user`, with the place its token was taken from. -/
def getCurrentUser (oauth2 : Option Text → Option Text) (decodeToken : Text → Option Payload)
    (users : Table UserRow) (r : HttpRequest) : Except HttpError (TokenSource × UserRow) :=
  match (tokenOf oauth2 r).bind fun token =>
      (decodeToken token.2).bind fun payload =>
        (authenticate users payload).map fun user => (token.1, user) with
  | some found => .ok found
  | none => .error ⟨401, "Invalid or expired token"⟩

section Requests

variable {casefold : Text → Text} {oauth2 : Option Text → Option Text}
  {decodeToken : Text → Option Payload} {users : Table UserRow} {r : HttpRequest} {user : UserRow}

/-- A request authenticated from the cookie has one, and no header but blanks. -/
theorem cookie_of_getCurrentUser
    (h : getCurrentUser oauth2 decodeToken users r = .ok (.cookie, user)) :
    (r.cookies.get? accessCookie).getD [] ≠ [] ∧
      strip ((r.header "authorization").getD []) = [] := by
  unfold getCurrentUser at h
  split at h
  · rename_i found hFound
    cases h
    obtain ⟨token, hToken, hRest⟩ := Option.bind_eq_some_iff.mp hFound
    obtain ⟨payload, -, hUser⟩ := Option.bind_eq_some_iff.mp hRest
    obtain ⟨row, -, hPair⟩ := Option.map_eq_some_iff.mp hUser
    have hSource : token.1 = .cookie := congrArg Prod.fst hPair
    unfold tokenOf at hToken
    dsimp only at hToken
    split at hToken
    · cases hToken
    · rename_i hSupplied
      split at hToken
      · cases hToken
        cases hSource
      · rename_i hBearer
        split at hToken
        · cases hToken
        · rename_i hCookie
          refine ⟨hCookie, ?_⟩
          by_contra hHeader
          exact hSupplied ⟨hHeader, not_not.mp hBearer⟩
  · cases h

/-- Blanks bear nothing. -/
theorem hasBearerAuthorization_of_blank (h : strip ((r.header "authorization").getD []) = []) :
    hasBearerAuthorization casefold r = false := by
  have hBlank := strip_eq_nil_iff.mp h
  have hCredential : strip (partition ' ' ((r.header "authorization").getD [])).2 = [] :=
    strip_eq_nil_iff.mpr fun c hc => hBlank c (mem_of_mem_partition hc)
  unfold hasBearerAuthorization
  dsimp only
  rw [hCredential]
  simp

/-- A mutating request under `/api/` that is authenticated from the cookie has passed the CSRF
check, and one that was exempted for its header is never authenticated from the cookie. -/
theorem cookie_authentication_checked (casefold : Text → Text)
    (oauth2 : Option Text → Option Text) (decodeToken : Text → Option Payload)
    (users : Table UserRow) (r : HttpRequest) (hMethod : r.method ∈ mutatingMethods)
    (hApi : startsWith r.path "/api/" = true) (hLogin : r.path ∉ loginPaths) :
    (∀ user, dispatch casefold (getCurrentUser oauth2 decodeToken users) r =
        .passed (.ok (.cookie, user)) → validCsrf r = some true) ∧
      (hasBearerAuthorization casefold r = true →
        ∀ user, getCurrentUser oauth2 decodeToken users r ≠ .ok (.cookie, user)) := by
  constructor
  · intro user hPassed
    unfold dispatch at hPassed
    split at hPassed
    · split at hPassed
      · cases hPassed
      · cases hPassed
      · assumption
    · -- the request was not checked, so it cannot be authenticated from the cookie
      rename_i hUnchecked
      obtain ⟨hCookie, hHeader⟩ := cookie_of_getCurrentUser (Answer.passed.inj hPassed)
      have hBearer : hasBearerAuthorization casefold r = false :=
        hasBearerAuthorization_of_blank hHeader
      refine absurd ?_ hUnchecked
      unfold checksCsrf
      rw [decide_eq_true hMethod, hApi, decide_eq_true hLogin, decide_eq_true hCookie, hBearer]
      rfl
  · intro hBearer user hUser
    obtain ⟨-, hHeader⟩ := cookie_of_getCurrentUser hUser
    rw [hasBearerAuthorization_of_blank hHeader] at hBearer
    cases hBearer

/-- What the framework documents of its extractor: it splits the header at the first blank, and
yields what follows when the scheme is `bearer`. -/
def SplitsBearer (lower : Text → Text) (oauth2 : Option Text → Option Text) : Prop :=
  ∀ authorization, oauth2 authorization =
    let raw := authorization.getD []
    if lower (partition ' ' raw).1 = "bearer" then some (partition ' ' raw).2 else none

/-- The middleware and the extractor agree about an exempted request: its token is what the
header bears. -/
theorem exempted_uses_bearer {lower : Text → Text} (hExtractor : SplitsBearer lower oauth2)
    (hCases : ∀ t, casefold t = "bearer" → lower t = "bearer")
    (hBearer : hasBearerAuthorization casefold r = true) :
    tokenOf oauth2 r = some (.bearer, (partition ' ' ((r.header "authorization").getD [])).2) := by
  unfold hasBearerAuthorization at hBearer
  simp only [Bool.and_eq_true, decide_eq_true_eq] at hBearer
  obtain ⟨⟨-, hScheme⟩, hCredential⟩ := hBearer
  have hToken : oauth2 (r.header "authorization") =
      some (partition ' ' ((r.header "authorization").getD [])).2 := by
    rw [hExtractor]
    exact if_pos (hCases _ hScheme)
  have hne : (partition ' ' ((r.header "authorization").getD [])).2 ≠ [] := by
    intro hNil
    rw [hNil] at hCredential
    exact hCredential rfl
  unfold tokenOf
  rw [hToken, Option.getD_some, if_neg fun h => hne h.2, if_pos hne]

end Requests

/-! ## A request of a browser -/

/-- A request with the access cookie, and with the CSRF token in both places. -/
def browserRequest : HttpRequest where
  method := "POST"
  path := "/api/servers"
  headers := [("x-csrf-token", "f3c1")]
  cookies := .ofList [(accessCookie, "token"), (csrfCookie, "f3c1")]

def browserUsers : Table UserRow where
  rows := [{ passwordHash := [], id := 1, username := "root", authId := "a1" }]
  keysNodup := by decide

/-- Reads the one token of the example. -/
def browserToken (t : Text) : Option Payload :=
  if t = "token" then some ⟨some "root", some 1, some "a1", some 1, false⟩ else none

/-- What the framework's extractor does. -/
def splitBearer (authorization : Option Text) : Option Text :=
  let raw := authorization.getD []
  if lower (partition ' ' raw).1 = "bearer" then some (partition ' ' raw).2 else none

/-- A request of a browser is authenticated from the cookie, and its token was checked. -/
theorem cookie_authentication_checked_browser :
    (∃ user, dispatch lower (getCurrentUser splitBearer browserToken browserUsers) browserRequest =
      .passed (.ok (.cookie, user))) ∧ validCsrf browserRequest = some true := by
  have hPassed : dispatch lower (getCurrentUser splitBearer browserToken browserUsers)
      browserRequest = .passed (.ok (.cookie,
        { passwordHash := [], id := 1, username := "root", authId := "a1" })) := rfl
  exact ⟨⟨_, hPassed⟩, (cookie_authentication_checked lower splitBearer browserToken browserUsers
    browserRequest (by decide) (by decide) (by decide)).1 _ hPassed⟩

end GpuMon.Csrf

import GpuMon.Account.Requests
import GpuMon.Library.BatchLoop
import GpuMon.Library.Table
import GpuMon.Secrets.Fernet

/-!
# Credentials of a server (`api/servers.py`, `schemas.py`, `ssh_transport.py`)

A draft of an edit is merged with the stored row twice: by `_connection_body`, for a test, and by
`update_server`, for the save. The test goes by whether a field is empty, the save by whether it is
there, and keeps a ciphertext where nothing replaces it.

* `draft_test_matches_save`: where both succeed, the test uses what `connect_server` uses after the
  save; only the host of the test has lost the blanks around a stored host.
* `stored_host_stripped`: that difference is there.
-/

namespace GpuMon.Servers

open PyText Secrets BatchLoop

/-! ## Bodies -/

/-- A field of a JSON body. -/
inductive Given (α : Type)
  | absent
  | null
  | value (a : α)
  deriving DecidableEq

namespace Given

variable {α : Type}

def get : Given α → Option α
  | value a => some a
  | _ => none

/-- Whether the field is in `model_fields_set`. -/
def isSet : Given α → Bool
  | absent => false
  | _ => true

/-- A validator, on a value that is there. -/
def check (validate : α → Option α) : Given α → Option (Given α)
  | absent => some absent
  | null => some null
  | value a => (validate a).map value

end Given

inductive AuthType
  | password
  | key
  deriving DecidableEq

def AuthType.text : AuthType → Text
  | .password => "password"
  | .key => "key"

/-- The `Literal["password", "key"]` of a text. -/
def AuthType.ofText (t : Text) : Option AuthType :=
  if t = AuthType.password.text then some .password
  else if t = AuthType.key.text then some .key
  else none

inductive ServerType
  | gpu
  | cpu
  deriving DecidableEq

def ServerType.text : ServerType → Text
  | .gpu => "gpu"
  | .cpu => "cpu"

/-- `ServerCreate`. -/
structure ServerCreate where
  name : Text
  host : Text
  port : Nat := 22
  authType : AuthType := .password
  username : Text := "gpumon"
  password : Option Text := none
  privateKey : Option Text := none
  passphrase : Option Text := none
  enabled : Bool := true
  serverType : ServerType := .gpu
  tags : List Text := []
  note : Text := []
  bmcHost : Text := []
  bmcUser : Text := []
  bmcPassword : Option Text := none
  deriving DecidableEq

/-- `ServerUpdate`. -/
structure ServerUpdate where
  name : Given Text := .absent
  host : Given Text := .absent
  port : Given Nat := .absent
  authType : Given AuthType := .absent
  username : Given Text := .absent
  password : Given Text := .absent
  privateKey : Given Text := .absent
  passphrase : Given Text := .absent
  enabled : Given Bool := .absent
  serverType : Given ServerType := .absent
  tags : Given (List Text) := .absent
  note : Given Text := .absent
  bmcHost : Given Text := .absent
  bmcUser : Given Text := .absent
  bmcPassword : Given Text := .absent
  deriving DecidableEq

/-- `_clean_network_host`; `none` is a `ValueError`. -/
def cleanNetworkHost (allowEmpty : Bool) (value : Text) : Option Text :=
  if strip value = [] ∧ allowEmpty = true then some []
  else if strip value = [] ∨ (strip value).any fun c => isSpace c || c.toNat < 33 || c.toNat == 127
  then none
  else some (strip value)

/-- A `Field` with `min_length` and `max_length`. -/
def sized (low high : Nat) (t : Text) : Option Text :=
  if low ≤ t.length ∧ t.length ≤ high then some t else none

/-- A port; a negative number is refused like zero. -/
def portRange (port : Nat) : Option Nat := if 1 ≤ port ∧ port ≤ 65535 then some port else none

/-- `validate_host`, after the length was checked. -/
def validateHost (host : Text) : Option Text := (sized 1 255 host).bind (cleanNetworkHost false)

/-- `validate_bmc_host`, after the length was checked. -/
def validateBmcHost (host : Text) : Option Text := (sized 0 255 host).bind (cleanNetworkHost true)

def ServerCreate.validate (body : ServerCreate) : Option ServerCreate := do
  let name ← sized 1 128 body.name
  let host ← validateHost body.host
  let port ← portRange body.port
  let username ← sized 1 64 body.username
  let bmcHost ← validateBmcHost body.bmcHost
  let bmcUser ← sized 0 64 body.bmcUser
  pure { body with name, host, port, username, bmcHost, bmcUser }

def ServerUpdate.validate (body : ServerUpdate) : Option ServerUpdate := do
  let name ← body.name.check (sized 1 128)
  let host ← body.host.check validateHost
  let port ← body.port.check portRange
  let username ← body.username.check (sized 1 64)
  let bmcHost ← body.bmcHost.check validateBmcHost
  let bmcUser ← body.bmcUser.check (sized 0 64)
  pure { body with name, host, port, username, bmcHost, bmcUser }

/-- What `_connection_body` reads of its body. -/
structure ConnectionDraft where
  host : Option Text
  port : Option Nat
  authType : Option AuthType
  username : Option Text
  password : Option Text
  privateKey : Option Text
  passphrase : Option Text

def ServerCreate.connection (body : ServerCreate) : ConnectionDraft where
  host := some body.host
  port := some body.port
  authType := some body.authType
  username := some body.username
  password := body.password
  privateKey := body.privateKey
  passphrase := body.passphrase

def ServerUpdate.connection (body : ServerUpdate) : ConnectionDraft where
  host := body.host.get
  port := body.port.get
  authType := body.authType.get
  username := body.username.get
  password := body.password.get
  privateKey := body.privateKey.get
  passphrase := body.passphrase.get

/-! ## Requests -/

/-- What ends a request before its commit. -/
inductive RequestError
  | http (status : Nat) (detail : Text)
  /-- A `ValidationError`. -/
  | validation
  /-- A `CredentialDecryptionError`. -/
  | decryption
  /-- `ensure_hostkey_storage` raises. -/
  | storage
  | commit
  deriving DecidableEq

/-- The settings, the keyring, what the library draws, and what the storage does. -/
structure Env where
  allowRoot : Bool := false
  primary : Text
  older : List Text := []
  draws : Nat → Nat := id
  storageReady : Bool := true
  commits : Bool := true
  /-- `forget_hostkey` does not raise. -/
  forgetsHostkey : Bool := true

def Env.keys (env : Env) : List Text := env.primary :: env.older

/-- The three columns of the SSH credentials. -/
structure Credentials where
  password : Text
  privateKey : Text
  passphrase : Text
  deriving DecidableEq

/-- `ConnectionTestRequest`. -/
structure ConnectionTestRequest where
  host : Text
  port : Nat
  authType : AuthType
  username : Text
  credentials : Credentials
  deriving DecidableEq

/-- `ConnectionTestRequest(...)`. -/
def ConnectionTestRequest.make (host : Text) (port : Nat) (authType username : Text)
    (credentials : Credentials) : Option ConnectionTestRequest := do
  let host ← validateHost host
  let port ← portRange port
  let authType ← AuthType.ofText authType
  let username ← sized 1 64 username
  pure { host, port, authType, username, credentials }

/-- `_reject_root_ssh`. -/
def rejectRootSsh (allowRoot : Bool) (username : Option Text) : Except RequestError Unit :=
  if username.any (fun name => lower (strip name) = "root") ∧ allowRoot = false then
    .error (.http 400
      "root SSH is disabled; provision a dedicated least-privilege gpumon account")
  else .ok ()

/-- Whether a text of a body is there and not empty. -/
def isFilled (field : Option Text) : Bool := field.any (· ≠ [])

/-- `field or other`. -/
def orElse {ε : Type} (field : Option Text) (other : Except ε Text) : Except ε Text :=
  match field with
  | some t => if t = [] then other else .ok t
  | none => other

section Handlers

variable {κ : Type} (f : Fernet κ)

/-- `decrypt_text(...)`, as an exception. -/
def reveal (keys : List Text) (token : Text) : Except RequestError Text :=
  match decryptText f keys token with
  | some plain => .ok plain
  | none => .error .decryption

/-- `decrypt_text(...) if same_auth else ""`. -/
def storedSecret (keys : List Text) (server : Option Server) (authType : Text)
    (column : Server → Text) : Except RequestError Text :=
  match server with
  | some s => if authType = s.authType then reveal f keys (column s) else .ok []
  | none => .ok []

/-- The credentials that `_connection_body` picks. -/
def mergeCredentials (keys : List Text) (body : ConnectionDraft) (server : Option Server)
    (authType : Text) : Except RequestError Credentials :=
  if authType = AuthType.password.text then do
    let password ← orElse body.password (storedSecret f keys server authType Server.password)
    pure ⟨password, [], []⟩
  else do
    let privateKey ← orElse body.privateKey (storedSecret f keys server authType Server.privateKey)
    let passphrase ← (match body.passphrase with
      | some passphrase => .ok passphrase
      | none =>
        if isFilled body.privateKey then .ok []
        else storedSecret f keys server authType Server.passphrase)
    pure ⟨[], privateKey, passphrase⟩

/-- The credential that a mode cannot do without. -/
def Credentials.needed (c : Credentials) (authType : Text) : Text :=
  if authType = AuthType.password.text then c.password else c.privateKey

/-- `_connection_body`. -/
def connectionBody (env : Env) (body : ConnectionDraft) (server : Option Server)
    (requireCredentials : Bool := true) : Except RequestError ConnectionTestRequest := do
  let authType := (body.authType.map AuthType.text).getD
    ((server.map Server.authType).getD AuthType.password.text)
  let credentials ← mergeCredentials f env.keys body server authType
  if requireCredentials = true ∧ credentials.needed authType = [] then
    .error (.http 400
      (if authType = AuthType.password.text then "请输入 SSH 密码" else "请提供 SSH 私钥"))
  else do
    let host ← orElse body.host (.ok ((server.map Server.host).getD []))
    let username ← orElse body.username (.ok ((server.map Server.username).getD []))
    let port := body.port.getD ((server.map Server.port).getD 22)
    match ConnectionTestRequest.make host port authType username credentials with
    | none => .error .validation
    | some request => do
      rejectRootSsh env.allowRoot (some request.username)
      pure request

/-- The three columns, encrypted. -/
def encryptCredentials (env : Env) (c : Credentials) : Credentials where
  password := encryptText f env.primary (env.draws 0) c.password
  privateKey := encryptText f env.primary (env.draws 1) c.privateKey
  passphrase := encryptText f env.primary (env.draws 2) c.passphrase

/-- `f"服务器名称已存在: {body.name}"`, when there is a row of the name. -/
def rejectName (servers : Table Server) (name : Text) : Except RequestError Unit :=
  if servers.rows.any fun s => s.name = name then
    .error (.http 400 (("服务器名称已存在: " : Text) ++ name))
  else .ok ()

def commit (env : Env) (servers : Table Server) : Except RequestError (Table Server) :=
  if env.commits then .ok servers else .error .commit

/-- The row that `create_server` adds. -/
def newServer (env : Env) (body : ServerCreate) (connection : Credentials) (id : Nat) : Server :=
  let credentials := encryptCredentials f env connection
  { id
    name := body.name
    host := body.host
    port := body.port
    authType := body.authType.text
    username := body.username
    password := credentials.password
    privateKey := credentials.privateKey
    passphrase := credentials.passphrase
    enabled := body.enabled
    serverType := body.serverType.text
    tags := body.tags
    note := body.note
    bmcHost := body.bmcHost
    bmcUser := body.bmcUser
    bmcPassword := encryptText f env.primary (env.draws 3) (body.bmcPassword.getD []) }

theorem key_newServer (env : Env) (body : ServerCreate) (connection : Credentials) (id : Nat) :
    Keyed.key (newServer f env body connection id) = id := rfl

/-- `create_server`. -/
def createServer (env : Env) (servers : Table Server) (body : ServerCreate) :
    Except RequestError (Table Server) := do
  let connection ← connectionBody f env body.connection none
  rejectName servers body.name
  commit env (servers.insert (newServer f env body connection.credentials)
    (key_newServer f env body connection.credentials))

def Server.credentials (s : Server) : Credentials := ⟨s.password, s.privateKey, s.passphrase⟩

/-- `credential_updates` of `update_server`. -/
def credentialUpdates (env : Env) (body : ServerUpdate) (server : Server) :
    Except RequestError (Option Credentials) :=
  if body.authType.get.any fun a => a.text ≠ server.authType then do
    let connection ← connectionBody f env body.connection (some server)
    pure (some (encryptCredentials f env connection.credentials))
  else if body.authType.isSet || body.password.isSet || body.privateKey.isSet ||
      body.passphrase.isSet then
    if server.authType = AuthType.password.text then
      .ok (some
        { password :=
            if isFilled body.password.get then
              encryptText f env.primary (env.draws 0) (body.password.get.getD [])
            else server.password
          privateKey := []
          passphrase := [] })
    else
      .ok (some
        { password := []
          privateKey :=
            if isFilled body.privateKey.get then
              encryptText f env.primary (env.draws 1) (body.privateKey.get.getD [])
            else server.privateKey
          passphrase :=
            if isFilled body.privateKey.get then
              encryptText f env.primary (env.draws 2) (body.passphrase.get.getD [])
            else match body.passphrase.get with
              | some passphrase => encryptText f env.primary (env.draws 2) passphrase
              | none => server.passphrase })
  else .ok none

/-- The columns that `update_server` sets. -/
def applyUpdate (env : Env) (body : ServerUpdate) (updates : Option Credentials) (s : Server) :
    Server :=
  { s with
    name := body.name.get.getD s.name
    host := body.host.get.getD s.host
    port := body.port.get.getD s.port
    authType := (body.authType.get.map AuthType.text).getD s.authType
    username := body.username.get.getD s.username
    password := (updates.map Credentials.password).getD s.password
    privateKey := (updates.map Credentials.privateKey).getD s.privateKey
    passphrase := (updates.map Credentials.passphrase).getD s.passphrase
    enabled := body.enabled.get.getD s.enabled
    serverType := (body.serverType.get.map ServerType.text).getD s.serverType
    tags := body.tags.get.getD s.tags
    note := body.note.get.getD s.note
    bmcHost := body.bmcHost.get.getD s.bmcHost
    bmcUser := body.bmcUser.get.getD s.bmcUser
    bmcPassword := (body.bmcPassword.get.map (encryptText f env.primary (env.draws 3))).getD
      s.bmcPassword }

theorem key_applyUpdate (env : Env) (body : ServerUpdate) (updates : Option Credentials)
    (s : Server) : Keyed.key (applyUpdate f env body updates s) = Keyed.key s := rfl

/-- `addr_changed`. -/
def addressChanged (body : ServerUpdate) (server : Server) : Bool :=
  body.host.get.any (· ≠ server.host) || body.port.get.any (· ≠ server.port)

/-- `update_server`, up to its commit. -/
def updateServer (env : Env) (servers : Table Server) (serverId : Nat) (body : ServerUpdate) :
    Except RequestError (Table Server) :=
  match servers.get? serverId with
  | none => .error (.http 404 "Server not found")
  | some server => do
    rejectRootSsh env.allowRoot body.username.get
    let updates ← credentialUpdates f env body server
    (if body.name.get.any fun name => name ≠ server.name then
        rejectName servers (body.name.get.getD [])
      else .ok ())
    (if addressChanged body server ∧ env.storageReady = false then .error .storage else .ok ())
    commit env (servers.modify serverId (applyUpdate f env body updates)
      (key_applyUpdate f env body updates))

/-- The arguments of `connect_host`. -/
structure HostArgs where
  host : Text
  port : Nat
  username : Text
  credentials : Credentials
  serverKey : Text
  deriving DecidableEq

/-- The credentials that `connect_server` decrypts. -/
def revealActive (keys : List Text) (authType : Text) (c : Credentials) :
    Except RequestError Credentials := do
  let password ← if authType = AuthType.password.text then reveal f keys c.password else .ok []
  let privateKey ← if authType = AuthType.key.text then reveal f keys c.privateKey else .ok []
  let passphrase ← if authType = AuthType.key.text then reveal f keys c.passphrase else .ok []
  pure ⟨password, privateKey, passphrase⟩

/-- `connect_server`. -/
def connectServer (keys : List Text) (server : Server) : Except RequestError HostArgs := do
  let credentials ← revealActive f keys server.authType (Server.credentials server)
  pure
    { host := server.host
      port := if server.port = 0 then 22 else server.port
      username := server.username
      credentials
      serverKey := ("server_" : Text) ++ natText server.id }

end Handlers

/-! ## The pieces -/

theorem strip_eq_self_of_forall {t : Text} (h : ∀ c ∈ t, isSpace c = false) : strip t = t :=
  strip_eq_self ⟨fun c hc => h c (List.mem_of_mem_head? hc),
    fun c hc => h c (List.mem_of_mem_getLast? hc)⟩

theorem cleanNetworkHost_false {value host : Text} (h : cleanNetworkHost false value = some host) :
    host = strip value ∧ host ≠ [] ∧ ∀ c ∈ host, isSpace c = false := by
  unfold cleanNetworkHost at h
  rw [if_neg (fun hEmpty => Bool.false_ne_true hEmpty.2)] at h
  split at h
  · cases h
  · rename_i hGood
    cases h
    rw [not_or, Bool.not_eq_true, List.any_eq_false] at hGood
    refine ⟨rfl, hGood.1, fun c hc => ?_⟩
    have hChar := hGood.2 c hc
    rw [Bool.not_eq_true, Bool.or_eq_false_iff, Bool.or_eq_false_iff] at hChar
    exact hChar.1.1

theorem sized_eq_some {low high : Nat} {t t' : Text} (h : sized low high t = some t') :
    t' = t ∧ low ≤ t.length ∧ t.length ≤ high := by
  unfold sized at h
  split at h
  · rename_i hSize
    cases h
    exact ⟨rfl, hSize⟩
  · cases h

theorem portRange_eq_some {port port' : Nat} (h : portRange port = some port') :
    port' = port ∧ 1 ≤ port := by
  unfold portRange at h
  split at h
  · rename_i hRange
    cases h
    exact ⟨rfl, hRange.1⟩
  · cases h

theorem validateHost_eq_some {value host : Text} (h : validateHost value = some host) :
    host = strip value ∧ host ≠ [] ∧ ∀ c ∈ host, isSpace c = false := by
  obtain ⟨sizedHost, hSized, hClean⟩ := Option.bind_eq_some_iff.mp h
  rw [(sized_eq_some hSized).1] at hClean
  exact cleanNetworkHost_false hClean

theorem text_of_ofText {t : Text} {a : AuthType} (h : AuthType.ofText t = some a) : a.text = t := by
  unfold AuthType.ofText at h
  split at h
  · cases h
    exact Eq.symm ‹_›
  · split at h
    · cases h
      exact Eq.symm ‹_›
    · cases h

/-- A field that a validator has passed holds a value that the validator gives. -/
theorem Given.exists_of_check {α : Type} {validate : α → Option α} {field field' : Given α} {a : α}
    (h : field.check validate = some field') (hGet : field'.get = some a) :
    ∃ raw, validate raw = some a := by
  cases field with
  | absent =>
    cases h
    cases hGet
  | null =>
    cases h
    cases hGet
  | value raw =>
    obtain ⟨a', hValid, rfl⟩ := Option.map_eq_some_iff.mp h
    cases hGet
    exact ⟨raw, hValid⟩

/-- What the schema makes of a body: every field was checked, and only these six are rewritten. -/
theorem ServerUpdate.validate_eq_some {raw body : ServerUpdate} (h : raw.validate = some body) :
    ∃ name host port username bmcHost bmcUser, raw.host.check validateHost = some host ∧
      raw.username.check (sized 1 64) = some username ∧
      body = { raw with name, host, port, username, bmcHost, bmcUser } := by
  obtain ⟨name, -, h⟩ := Option.bind_eq_some_iff.mp h
  obtain ⟨host, hHost, h⟩ := Option.bind_eq_some_iff.mp h
  obtain ⟨port, -, h⟩ := Option.bind_eq_some_iff.mp h
  obtain ⟨username, hUsername, h⟩ := Option.bind_eq_some_iff.mp h
  obtain ⟨bmcHost, -, h⟩ := Option.bind_eq_some_iff.mp h
  obtain ⟨bmcUser, -, h⟩ := Option.bind_eq_some_iff.mp h
  exact ⟨name, host, port, username, bmcHost, bmcUser, hHost, hUsername, (Option.some.inj h).symm⟩

/-- What the schema guarantees of the fields that both merges read. -/
theorem ServerUpdate.of_validate {raw body : ServerUpdate} (h : raw.validate = some body) :
    (∀ host ∈ body.host.get, strip host = host ∧ host ≠ []) ∧
      ∀ username ∈ body.username.get, username ≠ [] := by
  obtain ⟨name, host, port, username, bmcHost, bmcUser, hHost, hUsername, rfl⟩ :=
    ServerUpdate.validate_eq_some h
  constructor
  · intro value hValue
    obtain ⟨given, hValid⟩ := Given.exists_of_check hHost hValue
    obtain ⟨-, hne, hClean⟩ := validateHost_eq_some hValid
    exact ⟨strip_eq_self_of_forall hClean, hne⟩
  · intro value hValue
    obtain ⟨given, hValid⟩ := Given.exists_of_check hUsername hValue
    obtain ⟨rfl, hLength, -⟩ := sized_eq_some hValid
    exact List.ne_nil_of_length_pos hLength

theorem orElse_of_filled {ε : Type} {field : Option Text} (other : Except ε Text)
    (h : isFilled field = true) : orElse field other = .ok (field.getD []) ∧ field.getD [] ≠ [] := by
  cases field with
  | none => cases h
  | some t =>
    have hne : t ≠ [] := of_decide_eq_true h
    exact ⟨if_neg hne, hne⟩

theorem orElse_of_not_filled {ε : Type} {field : Option Text} (other : Except ε Text)
    (h : isFilled field = false) : orElse field other = other := by
  cases field with
  | none => rfl
  | some t => exact if_pos (not_not.mp (of_decide_eq_false h))

/-- A field that is never empty goes the same way through a test of its text and of its presence. -/
theorem orElse_eq_getD {ε : Type} {field : Option Text} (stored : Text)
    (h : ∀ t ∈ field, t ≠ []) :
    orElse field (.ok stored : Except ε Text) = .ok (field.getD stored) := by
  cases field with
  | none => rfl
  | some t => exact if_neg (h t rfl)

/-! ## The handlers -/

section Specs

variable {κ : Type} {f : Fernet κ} {env : Env}

theorem reveal_encryptText (env : Env) (draw : Nat) (plain : Text) :
    reveal f env.keys (encryptText f env.primary draw plain) = .ok plain := by
  unfold reveal Env.keys
  rw [decryptText_encryptText]

theorem reveal_nil (keys : List Text) : reveal f keys [] = .ok [] := rfl

/-- The mode of a merged draft. -/
def mergedAuth (body : ConnectionDraft) (server : Option Server) : Text :=
  (body.authType.map AuthType.text).getD ((server.map Server.authType).getD AuthType.password.text)

theorem connectionBody_ok {body : ConnectionDraft} {server : Option Server}
    {request : ConnectionTestRequest} (h : connectionBody f env body server = .ok request) :
    request.authType.text = mergedAuth body server ∧
    mergeCredentials f env.keys body server (mergedAuth body server) = .ok request.credentials ∧
    request.credentials.needed (mergedAuth body server) ≠ [] ∧
    (∃ host, orElse body.host (.ok ((server.map Server.host).getD []) : Except RequestError Text) =
      .ok host ∧ validateHost host = some request.host) ∧
    portRange (body.port.getD ((server.map Server.port).getD 22)) = some request.port ∧
    orElse body.username (.ok ((server.map Server.username).getD []) : Except RequestError Text) =
      .ok request.username := by
  obtain ⟨credentials, hMerge, h⟩ := ok_of_bind h
  split at h
  · cases h
  rename_i hActive
  obtain ⟨host, hHost, h⟩ := ok_of_bind h
  obtain ⟨username, hUsername, h⟩ := ok_of_bind h
  dsimp only at h
  split at h
  · cases h
  rename_i request' hMake
  obtain ⟨-, -, h⟩ := ok_of_bind h
  cases h
  obtain ⟨host', hHost', hMake⟩ := Option.bind_eq_some_iff.mp hMake
  obtain ⟨port', hPort', hMake⟩ := Option.bind_eq_some_iff.mp hMake
  obtain ⟨authType', hAuthType', hMake⟩ := Option.bind_eq_some_iff.mp hMake
  obtain ⟨username', hUsername', hMake⟩ := Option.bind_eq_some_iff.mp hMake
  cases hMake
  obtain ⟨rfl, -⟩ := sized_eq_some hUsername'
  exact ⟨text_of_ofText hAuthType', hMerge, fun hNil => hActive ⟨rfl, hNil⟩, ⟨host, hHost, hHost'⟩,
    hPort', hUsername⟩

theorem key_text_ne : AuthType.key.text ≠ AuthType.password.text := by decide

/-- The credentials of the other mode are empty. -/
def OnlyActive (authType : Text) (c : Credentials) : Prop :=
  (authType = AuthType.password.text → c.privateKey = [] ∧ c.passphrase = []) ∧
    (authType ≠ AuthType.password.text → c.password = [])

theorem onlyActive_of_merge {keys : List Text} {body : ConnectionDraft} {server : Option Server}
    {authType : Text} {c : Credentials}
    (h : mergeCredentials f keys body server authType = .ok c) : OnlyActive authType c := by
  unfold mergeCredentials at h
  split at h
  · rename_i hPassword
    obtain ⟨password, -, h⟩ := ok_of_bind h
    cases h
    exact ⟨fun _ => ⟨rfl, rfl⟩, fun hne => absurd hPassword hne⟩
  · rename_i hKey
    obtain ⟨privateKey, -, h⟩ := ok_of_bind h
    obtain ⟨passphrase, -, h⟩ := ok_of_bind h
    cases h
    exact ⟨fun hPassword => absurd hPassword hKey, fun _ => rfl⟩

theorem revealActive_password (keys : List Text) (c : Credentials) :
    revealActive f keys AuthType.password.text c =
      (reveal f keys c.password).bind fun password => .ok ⟨password, [], []⟩ := rfl

theorem revealActive_key (keys : List Text) (c : Credentials) :
    revealActive f keys AuthType.key.text c =
      (reveal f keys c.privateKey).bind fun privateKey =>
        (reveal f keys c.passphrase).bind fun passphrase => .ok ⟨[], privateKey, passphrase⟩ := rfl

/-- What was encrypted is what `connect_server` decrypts. -/
theorem revealActive_encrypt {authType : AuthType} {c : Credentials}
    (h : OnlyActive authType.text c) :
    revealActive f env.keys authType.text (encryptCredentials f env c) = .ok c := by
  cases authType with
  | password =>
    obtain ⟨hKey, hPassphrase⟩ := h.1 rfl
    rw [revealActive_password, encryptCredentials, reveal_encryptText, ← hKey]
    nth_rewrite 2 [hKey]
    rw [← hPassphrase]
    rfl
  | key =>
    rw [revealActive_key, encryptCredentials, reveal_encryptText, reveal_encryptText,
      ← h.2 key_text_ne]
    rfl

theorem Given.get_of_not_isSet {α : Type} {field : Given α} (h : field.isSet = false) :
    field.get = none := by
  cases field with
  | absent => rfl
  | null => cases h
  | value a => cases h

/-- Where the mode stays, a credential is replaced if its field is filled, and kept otherwise. -/
theorem kept_of_credentialUpdates {body : ServerUpdate} {server : Server}
    {updates : Option Credentials}
    (hSame : (body.authType.get.any fun a => a.text ≠ server.authType) = false)
    (h : credentialUpdates f env body server = .ok updates) :
    (server.authType = AuthType.password.text →
      (updates.getD (Server.credentials server)).password =
        if isFilled body.password.get then
          encryptText f env.primary (env.draws 0) (body.password.get.getD [])
        else server.password) ∧
    (server.authType ≠ AuthType.password.text →
      (updates.getD (Server.credentials server)).privateKey =
        (if isFilled body.privateKey.get then
          encryptText f env.primary (env.draws 1) (body.privateKey.get.getD [])
        else server.privateKey) ∧
      (updates.getD (Server.credentials server)).passphrase =
        if isFilled body.privateKey.get then
          encryptText f env.primary (env.draws 2) (body.passphrase.get.getD [])
        else match body.passphrase.get with
          | some passphrase => encryptText f env.primary (env.draws 2) passphrase
          | none => server.passphrase) := by
  unfold credentialUpdates at h
  rw [hSame, if_neg Bool.false_ne_true] at h
  split at h
  · split at h
    · rename_i hPassword
      cases h
      exact ⟨fun _ => rfl, fun hne => absurd hPassword hne⟩
    · rename_i hKey
      cases h
      exact ⟨fun hPassword => absurd hPassword hKey, fun _ => ⟨rfl, rfl⟩⟩
  · rename_i hNone
    cases h
    simp only [Bool.or_eq_true, not_or, Bool.not_eq_true] at hNone
    obtain ⟨⟨⟨-, hPassword⟩, hKey⟩, hPassphrase⟩ := hNone
    rw [Given.get_of_not_isSet hPassword, Given.get_of_not_isSet hKey,
      Given.get_of_not_isSet hPassphrase]
    exact ⟨fun _ => rfl, fun _ => ⟨rfl, rfl⟩⟩

theorem reveal_kept {field : Option Text} {stored plain : Text} (draw : Nat)
    (h : orElse field (reveal f env.keys stored) = .ok plain) :
    reveal f env.keys
      (if isFilled field then encryptText f env.primary draw (field.getD []) else stored) =
      .ok plain := by
  by_cases hFilled : isFilled field = true
  · rw [(orElse_of_filled _ hFilled).1] at h
    rw [if_pos hFilled, reveal_encryptText]
    exact h
  · rw [orElse_of_not_filled _ (Bool.not_eq_true _ ▸ hFilled)] at h
    rw [if_neg hFilled]
    exact h

/-- Where the mode stays, the test reads what the save keeps, and takes what it replaces. -/
theorem revealActive_kept {body : ServerUpdate} {server : Server} {updates : Option Credentials}
    {authType : AuthType} {c : Credentials} (hAuth : server.authType = authType.text)
    (hSame : (body.authType.get.any fun a => a.text ≠ server.authType) = false)
    (hMerge : mergeCredentials f env.keys body.connection (some server) authType.text = .ok c)
    (hUpdates : credentialUpdates f env body server = .ok updates) :
    revealActive f env.keys authType.text (updates.getD (Server.credentials server)) = .ok c := by
  obtain ⟨hPassword, hKey⟩ := kept_of_credentialUpdates hSame hUpdates
  have hStored : ∀ column : Server → Text,
      storedSecret f env.keys (some server) authType.text column =
        reveal f env.keys (column server) := fun column => if_pos hAuth.symm
  unfold mergeCredentials at hMerge
  rw [hStored, hStored, hStored] at hMerge
  cases authType with
  | password =>
    rw [if_pos rfl] at hMerge
    obtain ⟨password, hMerged, hMerge⟩ := ok_of_bind hMerge
    cases hMerge
    change orElse body.password.get _ = _ at hMerged
    rw [revealActive_password, hPassword hAuth, reveal_kept _ hMerged]
    rfl
  | key =>
    rw [if_neg key_text_ne] at hMerge
    obtain ⟨privateKey, hMergedKey, hMerge⟩ := ok_of_bind hMerge
    obtain ⟨passphrase, hMergedPassphrase, hMerge⟩ := ok_of_bind hMerge
    cases hMerge
    obtain ⟨hPrivateKey, hPassphrase⟩ := hKey (hAuth ▸ key_text_ne)
    have hOpens : reveal f env.keys (updates.getD (Server.credentials server)).passphrase =
        .ok passphrase := by
      rw [hPassphrase]
      have hGoes : body.connection.passphrase = body.passphrase.get := rfl
      rw [hGoes] at hMergedPassphrase
      cases hGiven : body.passphrase.get with
      | some given =>
        rw [hGiven] at hMergedPassphrase
        rw [Option.getD_some, ite_self, reveal_encryptText]
        exact hMergedPassphrase
      | none =>
        rw [hGiven] at hMergedPassphrase
        rw [Option.getD_none, encryptText_nil, apply_ite (reveal f env.keys), reveal_nil]
        exact hMergedPassphrase
    change orElse body.privateKey.get _ = _ at hMergedKey
    rw [revealActive_key, hPrivateKey, reveal_kept _ hMergedKey, hOpens]
    rfl

theorem commit_ok {servers servers' : Table Server} (h : commit env servers = .ok servers') :
    servers' = servers := by
  unfold commit at h
  split at h
  · cases h
    rfl
  · cases h

theorem updateServer_ok {servers servers' : Table Server} {serverId : Nat} {body : ServerUpdate}
    (h : updateServer f env servers serverId body = .ok servers') :
    ∃ server updates, servers.get? serverId = some server ∧
      credentialUpdates f env body server = .ok updates ∧
      servers' = servers.modify serverId (applyUpdate f env body updates)
        (key_applyUpdate f env body updates) := by
  unfold updateServer at h
  split at h
  · cases h
  rename_i server hServer
  obtain ⟨-, -, h⟩ := ok_of_bind h
  obtain ⟨updates, hUpdates, h⟩ := ok_of_bind h
  obtain ⟨-, -, h⟩ := ok_of_bind h
  obtain ⟨-, -, h⟩ := ok_of_bind h
  exact ⟨server, updates, hServer, hUpdates, commit_ok h⟩

theorem credentials_applyUpdate (f : Fernet κ) (env : Env) (body : ServerUpdate)
    (updates : Option Credentials) (s : Server) :
    Server.credentials (applyUpdate f env body updates s) =
      updates.getD (Server.credentials s) := by
  cases updates <;> rfl

theorem authType_applyUpdate (f : Fernet κ) (env : Env) (body : ServerUpdate)
    (updates : Option Credentials) (s : Server) :
    (applyUpdate f env body updates s).authType = mergedAuth body.connection (some s) := rfl

/-- What the test decrypts or takes from the draft is what a connection decrypts after the save. -/
theorem revealActive_applyUpdate {body : ServerUpdate} {server : Server}
    {updates : Option Credentials} {request : ConnectionTestRequest}
    (hTest : connectionBody f env body.connection (some server) = .ok request)
    (hUpdates : credentialUpdates f env body server = .ok updates) :
    revealActive f env.keys request.authType.text
      (Server.credentials (applyUpdate f env body updates server)) = .ok request.credentials := by
  obtain ⟨hAuth, hMerge, -⟩ := connectionBody_ok hTest
  rw [← hAuth] at hMerge
  rw [credentials_applyUpdate]
  cases hSame : body.authType.get.any fun a => a.text ≠ server.authType with
  | true =>
    rw [credentialUpdates, if_pos hSame, hTest] at hUpdates
    cases hUpdates
    exact revealActive_encrypt (onlyActive_of_merge hMerge)
  | false =>
    refine revealActive_kept ?_ hSame hMerge hUpdates
    rw [hAuth]
    unfold mergedAuth
    cases hGiven : body.authType.get with
    | none =>
      have hNone : body.connection.authType = none := hGiven
      rw [hNone]
      rfl
    | some a =>
      have hSome : body.connection.authType = some a := hGiven
      rw [hGiven] at hSame
      rw [hSome]
      exact (not_not.mp (of_decide_eq_false hSame)).symm

end Specs

/-! ## A test and a save -/

section Main

variable {κ : Type} {f : Fernet κ} {env : Env}

theorem draft_test_matches_save {servers servers' : Table Server} {serverId : Nat}
    {server : Server} {raw body : ServerUpdate} {request : ConnectionTestRequest}
    (hServer : servers.get? serverId = some server) (hBody : raw.validate = some body)
    (hTest : connectionBody f env body.connection (some server) = .ok request)
    (hSave : updateServer f env servers serverId body = .ok servers') :
    ∃ server' args, servers'.get? serverId = some server' ∧
      server'.authType = request.authType.text ∧ connectServer f env.keys server' = .ok args ∧
      args.port = request.port ∧ args.username = request.username ∧
      args.credentials = request.credentials ∧ strip args.host = request.host ∧
      (body.host.get.isSome = true ∨ strip server.host = server.host →
        args.host = request.host) := by
  obtain ⟨hHosts, hUsernames⟩ := ServerUpdate.of_validate hBody
  obtain ⟨hAuth, -, -, ⟨host, hHost, hValid⟩, hPort, hUsername⟩ := connectionBody_ok hTest
  obtain ⟨server₁, updates, hGet, hUpdates, rfl⟩ := updateServer_ok hSave
  obtain rfl : server₁ = server := Option.some.inj (hGet.symm.trans hServer)
  have hReveal := revealActive_applyUpdate hTest hUpdates
  have hAuth' : (applyUpdate f env body updates server₁).authType = request.authType.text :=
    (authType_applyUpdate f env body updates server₁).trans hAuth.symm
  obtain ⟨hPortEq, hPortPos⟩ := portRange_eq_some hPort
  have hStripped := (validateHost_eq_some hValid).1
  change orElse body.host.get (.ok server₁.host) = .ok host at hHost
  change orElse body.username.get (.ok server₁.username) = .ok request.username at hUsername
  change request.port = body.port.get.getD server₁.port at hPortEq
  change 1 ≤ body.port.get.getD server₁.port at hPortPos
  rw [orElse_eq_getD _ fun t ht => (hHosts t ht).2] at hHost
  rw [orElse_eq_getD _ hUsernames] at hUsername
  obtain rfl := Except.ok.inj hHost
  refine ⟨applyUpdate f env body updates server₁,
    { host := body.host.get.getD server₁.host, port := request.port,
      username := request.username, credentials := request.credentials,
      serverKey := ("server_" : Text) ++ natText server₁.id }, ?_, hAuth', ?_, rfl, rfl, rfl,
    hStripped.symm, ?_⟩
  · rw [Table.get?_modify, if_pos rfl, hServer]
    rfl
  · have hPort' : (applyUpdate f env body updates server₁).port = request.port := hPortEq.symm
    unfold connectServer
    rw [hAuth', hReveal, hPort', if_neg (by omega)]
    rw [← Except.ok.inj hUsername]
    rfl
  · intro hKept
    dsimp only
    rw [hStripped]
    cases hGiven : body.host.get with
    | none =>
      rw [hGiven] at hKept
      exact (hKept.resolve_left Bool.false_ne_true).symm
    | some given => exact (hHosts given hGiven).1.symm

end Main

section Example

def someKeys : Env := { primary := "k2", older := ["old"] }

/-- A server with a key under the old credential key. -/
def keyServer : Server :=
  { id := 1, name := "gpu-01", host := "192.0.2.10", authType := AuthType.key.text
    privateKey := encryptText spelledOut "old" 0 "stored key"
    passphrase := encryptText spelledOut "old" 1 "stored passphrase" }

def keyServers : Table Server := ⟨[keyServer], List.nodup_singleton _⟩

/-- A new key, a new host and nothing about the passphrase. -/
def newKeyDraft : ServerUpdate :=
  { host := .value " 192.0.2.11 ", authType := .value .key, password := .value []
    privateKey := .value "new key" }

def newKeyBody : ServerUpdate := { newKeyDraft with host := .value "192.0.2.11" }

def newKeyRequest : ConnectionTestRequest :=
  { host := "192.0.2.11", port := 22, authType := .key, username := "gpumon"
    credentials := ⟨[], "new key", []⟩ }

def newKeyServers : Table Server :=
  ⟨[{ keyServer with
      host := "192.0.2.11"
      privateKey := encryptText spelledOut "k2" 1 "new key"
      passphrase := [] }], List.nodup_singleton _⟩

theorem draft_test_matches_save_new_key :
    ∃ server' args, newKeyServers.get? 1 = some server' ∧
      server'.authType = newKeyRequest.authType.text ∧
      connectServer spelledOut someKeys.keys server' = .ok args ∧
      args.port = newKeyRequest.port ∧ args.username = newKeyRequest.username ∧
      args.credentials = newKeyRequest.credentials ∧ strip args.host = newKeyRequest.host ∧
      (newKeyBody.host.get.isSome = true ∨ strip keyServer.host = keyServer.host →
        args.host = newKeyRequest.host) :=
  draft_test_matches_save (show keyServers.get? 1 = some keyServer by decide +kernel)
    (show newKeyDraft.validate = some newKeyBody by decide +kernel)
    (show connectionBody spelledOut someKeys newKeyBody.connection (some keyServer) =
      .ok newKeyRequest by decide +kernel)
    (show updateServer spelledOut someKeys keyServers 1 newKeyBody = .ok newKeyServers by
      decide +kernel)

/-- A host that was stored with a blank in front. -/
def paddedServer : Server :=
  { id := 1, name := "gpu-01", host := " 192.0.2.10"
    password := encryptText spelledOut "k2" 0 "stored password" }

def paddedServers : Table Server := ⟨[paddedServer], List.nodup_singleton _⟩

theorem stored_host_stripped :
    (connectionBody spelledOut someKeys ({} : ServerUpdate).connection (some paddedServer)).map
        ConnectionTestRequest.host = .ok "192.0.2.10" ∧
      ((updateServer spelledOut someKeys paddedServers 1 {}).toOption.bind fun servers =>
        (servers.get? 1).map fun server =>
          (connectServer spelledOut someKeys.keys server).map HostArgs.host) =
        some (.ok " 192.0.2.10") := by
  decide +kernel

end Example

end GpuMon.Servers

import GpuMon.Library.Runs
import GpuMon.Servers.Credentials

/-!
# Edits of servers (`api/servers.py`, `server-form.js`)

Requests create servers and edit them, and some are rejected. The form of the browser leaves out
what stays as it is and clears what the other mode would use.

* `sound_of_reach`: after every sequence of requests each server has the credential that its mode
  needs and none of the other mode.
* `edits_keep_credentials`: also, a rejected request changes nothing, an edit from the form with
  the credential left blank keeps the ciphertexts, and a new key does not inherit a passphrase.
-/

namespace GpuMon.Servers

open PyText Secrets BatchLoop Runs

/-! ## Requests -/

inductive Request
  | create (env : Env) (body : ServerCreate)
  | update (env : Env) (serverId : Nat) (body : ServerUpdate)

inductive Outcome
  | done
  | rejected (e : RequestError)
  /-- The row is committed, but the host key of its old address was not removed. -/
  | failedAfterCommit
  deriving DecidableEq

section Serve

variable {κ : Type} (f : Fernet κ)

/-- The rows that a request commits. -/
def handle (servers : Table Server) : Request → Except RequestError (Table Server)
  | .create env body =>
    match body.validate with
    | none => .error .validation
    | some body => createServer f env servers body
  | .update env serverId body =>
    match body.validate with
    | none => .error .validation
    | some body => updateServer f env servers serverId body

/-- Whether `forget_hostkey` raises after the commit. -/
def failsAfterCommit (servers : Table Server) : Request → Bool
  | .create _ _ => false
  | .update env serverId body =>
    !env.forgetsHostkey && (body.validate.any fun body =>
      (servers.get? serverId).any (addressChanged body))

/-- A request, its outcome and the rows afterwards: without a commit the session is rolled back. -/
def serve (servers : Table Server) (request : Request) : Outcome × Table Server :=
  match handle f servers request with
  | .error e => (.rejected e, servers)
  | .ok servers' =>
    (if failsAfterCommit servers request then .failedAfterCommit else .done, servers')

/-- The rows after a request. -/
def step (servers : Table Server) (request : Request) : Option (Table Server) :=
  some (serve f servers request).2

end Serve

/-! ## The form -/

/-- `form` of the dialog. -/
structure ServerForm where
  name : Text := []
  host : Text := []
  port : Given Nat := .value 22
  authType : AuthType := .password
  username : Text := "gpumon"
  serverType : ServerType := .gpu
  password : Text := []
  privateKey : Text := []
  passphrase : Text := []
  tags : List Text := []
  note : Text := []
  enabled : Bool := true
  bmcHost : Text := []
  bmcUser : Text := []
  bmcPassword : Text := []

/-- A field that is deleted when it is empty. -/
def unlessEmpty (t : Text) : Given Text := if t = [] then .absent else .value t

/-- `buildServerPayload`. -/
def buildServerPayload (form : ServerForm) (editing : Bool) : ServerUpdate :=
  let payload : ServerUpdate :=
    { name := .value form.name
      host := .value form.host
      port := form.port
      authType := .value form.authType
      username := if editing then unlessEmpty form.username else .value form.username
      password := .value form.password
      privateKey := .value form.privateKey
      passphrase := .value form.passphrase
      enabled := .value form.enabled
      serverType := .value form.serverType
      tags := .value form.tags
      note := .value form.note
      bmcHost := .value form.bmcHost
      bmcUser := .value form.bmcUser
      bmcPassword := if editing then unlessEmpty form.bmcPassword else .value form.bmcPassword }
  match form.authType with
  | .password =>
    { payload with
      privateKey := .value []
      passphrase := .value []
      password := if editing then unlessEmpty form.password else payload.password }
  | .key =>
    { payload with
      password := .value []
      privateKey := if editing then unlessEmpty form.privateKey else payload.privateKey
      passphrase :=
        if editing = true ∧ form.privateKey = [] then unlessEmpty form.passphrase
        else payload.passphrase }

/-! ## Sound rows -/

/-- A server with the credential that its mode needs, and none of the other mode. -/
structure SoundCredentials (s : Server) : Prop where
  mode : ∃ authType : AuthType, s.authType = authType.text
  needed : (Server.credentials s).needed s.authType ≠ []
  onlyActive : OnlyActive s.authType (Server.credentials s)

section Sound

variable {κ : Type} {f : Fernet κ} {env : Env} {servers servers' : Table Server}

theorem needed_encrypt {authType : Text} {c : Credentials} (h : c.needed authType ≠ []) :
    (encryptCredentials f env c).needed authType ≠ [] := by
  unfold Credentials.needed at h ⊢
  split
  · rename_i hPassword
    rw [if_pos hPassword] at h
    exact fun hNil => h (encryptText_eq_nil_iff.mp hNil)
  · rename_i hKey
    rw [if_neg hKey] at h
    exact fun hNil => h (encryptText_eq_nil_iff.mp hNil)

theorem onlyActive_encrypt {authType : Text} {c : Credentials} (h : OnlyActive authType c) :
    OnlyActive authType (encryptCredentials f env c) := by
  refine ⟨fun hPassword => ?_, fun hKey => encryptText_eq_nil_iff.mpr (h.2 hKey)⟩
  obtain ⟨hPrivateKey, hPassphrase⟩ := h.1 hPassword
  exact ⟨encryptText_eq_nil_iff.mpr hPrivateKey, encryptText_eq_nil_iff.mpr hPassphrase⟩

/-- What a test of the merged draft accepts is sound once it is encrypted. -/
theorem sound_of_connectionBody {body : ConnectionDraft} {server : Option Server}
    {request : ConnectionTestRequest} {s : Server}
    (h : connectionBody f env body server = .ok request) (hAuth : s.authType = mergedAuth body server)
    (hCredentials : Server.credentials s = encryptCredentials f env request.credentials) :
    SoundCredentials s := by
  obtain ⟨hMode, hMerge, hNeeded, -⟩ := connectionBody_ok h
  refine ⟨⟨request.authType, hAuth.trans hMode.symm⟩, ?_, ?_⟩
  · rw [hCredentials, hAuth]
    exact needed_encrypt hNeeded
  · rw [hCredentials, hAuth]
    exact onlyActive_encrypt (onlyActive_of_merge hMerge)

theorem ne_nil_of_kept {field : Option Text} {stored : Text} (draw : Nat) (h : stored ≠ []) :
    (if isFilled field then encryptText f env.primary draw (field.getD []) else stored) ≠ [] := by
  split
  · rename_i hFilled
    have hValue := (orElse_of_filled (.ok [] : Except RequestError Text) hFilled).2
    exact fun hNil => hValue (encryptText_eq_nil_iff.mp hNil)
  · exact h

theorem onlyActive_of_credentialUpdates {body : ServerUpdate} {server : Server}
    {updates : Option Credentials}
    (hSame : (body.authType.get.any fun a => a.text ≠ server.authType) = false)
    (h : credentialUpdates f env body server = .ok updates)
    (hServer : OnlyActive server.authType (Server.credentials server)) :
    OnlyActive server.authType (updates.getD (Server.credentials server)) := by
  unfold credentialUpdates at h
  rw [hSame, if_neg Bool.false_ne_true] at h
  split at h
  · split at h
    · rename_i hPassword
      cases h
      exact ⟨fun _ => ⟨rfl, rfl⟩, fun hne => absurd hPassword hne⟩
    · rename_i hKey
      cases h
      exact ⟨fun hPassword => absurd hPassword hKey, fun _ => rfl⟩
  · cases h
    exact hServer

/-- A mode that the body does not change. -/
theorem mergedAuth_of_same {body : ServerUpdate} {server : Server}
    (hSame : (body.authType.get.any fun a => a.text ≠ server.authType) = false) :
    mergedAuth body.connection (some server) = server.authType := by
  have hGoes : body.connection.authType = body.authType.get := rfl
  unfold mergedAuth
  rw [hGoes]
  cases hGiven : body.authType.get with
  | none => rfl
  | some a =>
    rw [hGiven] at hSame
    exact not_not.mp (of_decide_eq_false hSame)

theorem sound_applyUpdate {body : ServerUpdate} {server : Server} {updates : Option Credentials}
    (hServer : SoundCredentials server) (h : credentialUpdates f env body server = .ok updates) :
    SoundCredentials (applyUpdate f env body updates server) := by
  have hAuth := authType_applyUpdate f env body updates server
  have hCredentials := credentials_applyUpdate f env body updates server
  cases hSame : body.authType.get.any fun a => a.text ≠ server.authType with
  | true =>
    rw [credentialUpdates, if_pos hSame] at h
    obtain ⟨request, hTest, h⟩ := ok_of_bind h
    cases h
    exact sound_of_connectionBody hTest hAuth hCredentials
  | false =>
    rw [mergedAuth_of_same hSame] at hAuth
    obtain ⟨hPassword, hKey⟩ := kept_of_credentialUpdates hSame h
    refine ⟨hAuth ▸ hServer.mode, ?_, ?_⟩
    · have hNeeded := hServer.needed
      rw [hAuth, hCredentials]
      unfold Credentials.needed at hNeeded ⊢
      split
      · rename_i hMode
        rw [if_pos hMode] at hNeeded
        rw [hPassword hMode]
        exact ne_nil_of_kept _ hNeeded
      · rename_i hMode
        rw [if_neg hMode] at hNeeded
        rw [(hKey hMode).1]
        exact ne_nil_of_kept _ hNeeded
    · rw [hAuth, hCredentials]
      exact onlyActive_of_credentialUpdates hSame h hServer.onlyActive

theorem createServer_ok {body : ServerCreate} (h : createServer f env servers body = .ok servers') :
    ∃ request, connectionBody f env body.connection none = .ok request ∧
      servers' = servers.insert (newServer f env body request.credentials)
        (key_newServer f env body request.credentials) := by
  obtain ⟨request, hTest, h⟩ := ok_of_bind h
  obtain ⟨-, -, h⟩ := ok_of_bind h
  exact ⟨request, hTest, commit_ok h⟩

theorem sound_newServer {body : ServerCreate} {request : ConnectionTestRequest} (id : Nat)
    (h : connectionBody f env body.connection none = .ok request) :
    SoundCredentials (newServer f env body request.credentials id) :=
  sound_of_connectionBody h rfl rfl

/-- One request keeps the rows sound. -/
theorem sound_of_handle {request : Request} (hRows : ∀ s ∈ servers.rows, SoundCredentials s)
    (h : handle f servers request = .ok servers') : ∀ s ∈ servers'.rows, SoundCredentials s := by
  cases request with
  | create env raw =>
    dsimp only [handle] at h
    split at h
    · cases h
    · rename_i body hBody
      obtain ⟨request, hTest, rfl⟩ := createServer_ok h
      intro s hMem
      rcases Table.mem_insert.mp hMem with hOld | rfl
      · exact hRows s hOld
      · exact sound_newServer _ hTest
  | update env serverId raw =>
    dsimp only [handle] at h
    split at h
    · cases h
    · rename_i body hBody
      obtain ⟨server, updates, hGet, hUpdates, rfl⟩ := updateServer_ok h
      obtain ⟨hServer, hKey⟩ := Table.get?_eq_some hGet
      intro s hMem
      rcases Table.mem_modify.mp hMem with ⟨hOld, -⟩ | ⟨a, hMemA, hKeyA, rfl⟩
      · exact hRows s hOld
      · obtain rfl := Table.eq_of_key_eq hMemA hServer (hKeyA.trans hKey.symm)
        exact sound_applyUpdate (hRows a hMemA) hUpdates

theorem sound_of_reach (h : Reach (step f) (· = Table.empty) Always servers) :
    ∀ s ∈ servers.rows, SoundCredentials s := by
  refine Reach.invariant (I := fun servers => ∀ s ∈ servers.rows, SoundCredentials s) ?_ ?_ h
  · rintro _ rfl s hMem
    cases hMem
  · intro servers request servers' hRows _ hStep
    cases hStep
    unfold serve
    split
    · exact hRows
    · rename_i servers' hHandle
      exact sound_of_handle hRows hHandle

end Sound

/-! ## Edits that leave a credential as it is -/

section Kept

variable {κ : Type} {f : Fernet κ} {env : Env} {servers servers' : Table Server}

/-- The schema leaves the credential fields as they are. -/
theorem ServerUpdate.credentials_of_validate {raw body : ServerUpdate}
    (h : raw.validate = some body) :
    body.authType = raw.authType ∧ body.password = raw.password ∧
      body.privateKey = raw.privateKey ∧ body.passphrase = raw.passphrase := by
  obtain ⟨name, host, port, username, bmcHost, bmcUser, -, -, rfl⟩ :=
    ServerUpdate.validate_eq_some h
  exact ⟨rfl, rfl, rfl, rfl⟩

/-- The row of an accepted edit. -/
theorem update_of_handle {serverId : Nat} {raw : ServerUpdate}
    (h : handle f servers (.update env serverId raw) = .ok servers') :
    ∃ body server updates, raw.validate = some body ∧ servers.get? serverId = some server ∧
      credentialUpdates f env body server = .ok updates ∧
      servers'.get? serverId = some (applyUpdate f env body updates server) := by
  dsimp only [handle] at h
  split at h
  · cases h
  rename_i body hBody
  obtain ⟨server, updates, hGet, hUpdates, rfl⟩ := updateServer_ok h
  refine ⟨body, server, updates, hBody, hGet, hUpdates, ?_⟩
  rw [Table.get?_modify, if_pos rfl, hGet]
  rfl

theorem payload_password {form : ServerForm} (h : form.authType = .password) :
    (buildServerPayload form true).password = unlessEmpty form.password := by
  unfold buildServerPayload
  rw [h]
  rfl

theorem payload_key {form : ServerForm} (h : form.authType = .key) :
    (buildServerPayload form true).privateKey = unlessEmpty form.privateKey ∧
      (form.privateKey = [] →
        (buildServerPayload form true).passphrase = unlessEmpty form.passphrase) := by
  unfold buildServerPayload
  rw [h]
  exact ⟨rfl, fun hEmpty => if_pos ⟨rfl, hEmpty⟩⟩

/-- The mode's own credential was left blank in the form. -/
def ServerForm.LeftBlank (form : ServerForm) : Prop :=
  match form.authType with
  | .password => form.password = []
  | .key => form.privateKey = []

/-- The ciphertexts of the mode stay as they are. -/
def KeepsCredentials (form : ServerForm) (server server' : Server) : Prop :=
  server'.authType = server.authType ∧
    match form.authType with
    | .password => server'.password = server.password
    | .key => server'.privateKey = server.privateKey ∧
        (form.passphrase = [] → server'.passphrase = server.passphrase)

theorem keepsCredentials_of_blank {form : ServerForm} {body : ServerUpdate} {server : Server}
    {updates : Option Credentials} (hMode : server.authType = form.authType.text)
    (hBlank : form.LeftBlank) (hBody : (buildServerPayload form true).validate = some body)
    (hUpdates : credentialUpdates f env body server = .ok updates) :
    KeepsCredentials form server (applyUpdate f env body updates server) := by
  obtain ⟨hAuthType, hPassword, hPrivateKey, hPassphrase⟩ :=
    ServerUpdate.credentials_of_validate hBody
  have hGiven : body.authType.get = some form.authType := by
    rw [hAuthType]
    unfold buildServerPayload
    cases form.authType <;> rfl
  have hSame : (body.authType.get.any fun a => a.text ≠ server.authType) = false := by
    rw [hGiven]
    exact decide_eq_false (not_not.mpr hMode.symm)
  have hAuth := authType_applyUpdate f env body updates server
  rw [mergedAuth_of_same hSame] at hAuth
  obtain ⟨hPasswordKept, hKeyKept⟩ := kept_of_credentialUpdates hSame hUpdates
  rw [← credentials_applyUpdate f env body] at hPasswordKept hKeyKept
  refine ⟨hAuth, ?_⟩
  unfold ServerForm.LeftBlank at hBlank
  split
  · rename_i hForm
    rw [hForm] at hBlank hMode
    have hField : body.password.get = none := by
      rw [hPassword, payload_password hForm, hBlank]
      rfl
    have hValue := hPasswordKept hMode
    rw [hField] at hValue
    exact hValue
  · rename_i hForm
    rw [hForm] at hBlank hMode
    obtain ⟨hKeyField, hPassphraseField⟩ := payload_key hForm
    have hField : body.privateKey.get = none := by
      rw [hPrivateKey, hKeyField, hBlank]
      rfl
    obtain ⟨hKeyValue, hPassphraseValue⟩ := hKeyKept (hMode ▸ key_text_ne)
    rw [hField] at hKeyValue hPassphraseValue
    refine ⟨hKeyValue, fun hEmpty => ?_⟩
    have hNone : body.passphrase.get = none := by
      rw [hPassphrase, hPassphraseField hBlank, hEmpty]
      rfl
    rw [hNone] at hPassphraseValue
    exact hPassphraseValue

/-- A passphrase is empty or was given with the request. -/
def FreshPassphrase (f : Fernet κ) (env : Env) (raw : ServerUpdate) (server' : Server) : Prop :=
  server'.passphrase = [] ∨ ∃ passphrase, raw.passphrase.get = some passphrase ∧
    server'.passphrase = encryptText f env.primary (env.draws 2) passphrase

theorem passphrase_of_merge {keys : List Text} {body : ConnectionDraft} {server : Option Server}
    {authType : Text} {c : Credentials} (hFilled : isFilled body.privateKey = true)
    (h : mergeCredentials f keys body server authType = .ok c) :
    c.passphrase = [] ∨ body.passphrase = some c.passphrase := by
  unfold mergeCredentials at h
  split at h
  · obtain ⟨password, -, h⟩ := ok_of_bind h
    cases h
    exact .inl rfl
  · obtain ⟨privateKey, -, h⟩ := ok_of_bind h
    obtain ⟨passphrase, hPassphrase, h⟩ := ok_of_bind h
    cases h
    cases hGiven : body.passphrase with
    | none =>
      rw [hGiven] at hPassphrase
      cases hPassphrase
      exact .inl rfl
    | some given =>
      rw [hGiven] at hPassphrase
      cases hPassphrase
      exact .inr rfl

theorem freshPassphrase_of_newKey {raw body : ServerUpdate} {server : Server}
    {updates : Option Credentials} (hFilled : isFilled raw.privateKey.get = true)
    (hBody : raw.validate = some body) (hUpdates : credentialUpdates f env body server = .ok updates) :
    FreshPassphrase f env raw (applyUpdate f env body updates server) := by
  obtain ⟨-, -, hPrivateKey, hPassphrase⟩ := ServerUpdate.credentials_of_validate hBody
  rw [← hPrivateKey] at hFilled
  unfold FreshPassphrase
  rw [← hPassphrase]
  have hPlace : (applyUpdate f env body updates server).passphrase =
      (updates.getD (Server.credentials server)).passphrase :=
    congrArg Credentials.passphrase (credentials_applyUpdate f env body updates server)
  rw [hPlace]
  cases hSame : body.authType.get.any fun a => a.text ≠ server.authType with
  | true =>
    rw [credentialUpdates, if_pos hSame] at hUpdates
    obtain ⟨request, hTest, hUpdates⟩ := ok_of_bind hUpdates
    cases hUpdates
    have hMerge := (connectionBody_ok hTest).2.1
    rcases passphrase_of_merge hFilled hMerge with hEmpty | hGiven
    · exact .inl (encryptText_eq_nil_iff.mpr hEmpty)
    · exact .inr ⟨_, hGiven, rfl⟩
  | false =>
    by_cases hMode : server.authType = AuthType.password.text
    · have hSet : body.privateKey.isSet = true := by
        cases hField : body.privateKey with
        | value a => rfl
        | _ =>
          rw [hField] at hFilled
          cases hFilled
      rw [credentialUpdates, hSame, hSet, Bool.or_true, Bool.true_or, if_neg Bool.false_ne_true,
        if_pos rfl, if_pos hMode] at hUpdates
      cases hUpdates
      exact .inl rfl
    · rw [((kept_of_credentialUpdates hSame hUpdates).2 hMode).2, if_pos hFilled]
      cases hGiven : body.passphrase.get with
      | none => exact .inl rfl
      | some passphrase => exact .inr ⟨passphrase, rfl, rfl⟩

end Kept

/-! ## All requests -/

section Main

variable {κ : Type} (f : Fernet κ)

theorem edits_keep_credentials :
    (∀ servers, Reach (step f) (· = Table.empty) Always servers →
      ∀ s ∈ servers.rows, SoundCredentials s) ∧
    (∀ servers request e, (serve f servers request).1 = .rejected e →
      (serve f servers request).2 = servers) ∧
    (∀ env servers serverId server form, servers.get? serverId = some server →
      server.authType = form.authType.text → form.LeftBlank →
      ∃ server', (serve f servers (.update env serverId (buildServerPayload form true))).2.get?
        serverId = some server' ∧ KeepsCredentials form server server') ∧
    ∀ env servers servers' serverId body, isFilled body.privateKey.get = true →
      handle f servers (.update env serverId body) = .ok servers' →
      ∃ server', servers'.get? serverId = some server' ∧ FreshPassphrase f env body server' := by
  refine ⟨fun servers h => sound_of_reach h, ?_, ?_, ?_⟩
  · intro servers request e h
    unfold serve at h ⊢
    split at h
    · rfl
    · dsimp only at h
      split at h <;> cases h
  · intro env servers serverId server form hGet hMode hBlank
    unfold serve
    split
    · refine ⟨server, hGet, rfl, ?_⟩
      split
      · rfl
      · exact ⟨rfl, fun _ => rfl⟩
    · rename_i servers' hHandle
      obtain ⟨body, server₁, updates, hBody, hGet₁, hUpdates, hRow⟩ := update_of_handle hHandle
      obtain rfl := Option.some.inj (hGet₁.symm.trans hGet)
      exact ⟨_, hRow, keepsCredentials_of_blank hMode hBlank hBody hUpdates⟩
  · intro env servers servers' serverId raw hFilled hHandle
    obtain ⟨body, server, updates, hBody, -, hUpdates, hRow⟩ := update_of_handle hHandle
    exact ⟨_, hRow, freshPassphrase_of_newKey hFilled hBody hUpdates⟩

end Main

end GpuMon.Servers

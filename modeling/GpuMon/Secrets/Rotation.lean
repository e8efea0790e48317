import GpuMon.Library.Dict
import GpuMon.Library.Table
import GpuMon.Models
import GpuMon.Secrets.Fernet

/-!
# Rotation of the credential key (`rotate_credentials.py`)

The script walks over every stored secret: four columns of each server, one of each user, the url
of each webhook channel and the legacy webhook setting. A token that the first key opens stays; any
other is decrypted with the keyring and encrypted again under the first key, and a webhook url in
plain text is encrypted. One token that cannot be decrypted ends the run before anything is
committed.

* `rotatedOver_of_foldlM`: what a pass over different targets does to their values.
* `rotation_all_or_nothing`: a run that fails, or a dry run, changes nothing; after an applied one
  every secret opens under the first key alone, to the same plaintext, no other column differs but
  the `updated_at` of the servers whose secrets changed, and a second run finds nothing to rotate
  but a webhook value that is the bare mark.
* `rotation_touches_updated_at`: these two exceptions are there.
-/

namespace GpuMon.Secrets

open PyText

/-! ## The database -/

/-- A row of `Server`, with the column that every update of a row sets. -/
structure ServerRecord extends Server where
  updatedAt : Int
  deriving DecidableEq

instance : Keyed ServerRecord := ⟨fun s => s.id⟩

structure UserRecord where
  id : Nat
  username : Text
  mfaSecret : Text := []
  mfaConfirmed : Bool := false
  tokenVersion : Int := 1
  isActive : Bool := true
  deriving DecidableEq

instance : Keyed UserRecord := ⟨UserRecord.id⟩

structure ChannelRecord where
  id : Nat
  name : Text := []
  url : Text := []
  template : Text := []
  minSeverity : Text := "info"
  enabled : Bool := true
  deriving DecidableEq

instance : Keyed ChannelRecord := ⟨ChannelRecord.id⟩

structure Database where
  servers : Table ServerRecord
  users : Table UserRecord
  channels : Table ChannelRecord
  settings : Dict Text Text

/-- The columns of a server that are encrypted. -/
inductive SecretField
  | password
  | privateKey
  | passphrase
  | bmcPassword
  deriving DecidableEq

def SecretField.all : List SecretField := [.password, .privateKey, .passphrase, .bmcPassword]

def SecretField.read (field : SecretField) (s : Server) : Text :=
  match field with
  | .password => s.password
  | .privateKey => s.privateKey
  | .passphrase => s.passphrase
  | .bmcPassword => s.bmcPassword

def SecretField.write (field : SecretField) (value : Text) (s : Server) : Server :=
  match field with
  | .password => { s with password := value }
  | .privateKey => { s with privateKey := value }
  | .passphrase => { s with passphrase := value }
  | .bmcPassword => { s with bmcPassword := value }

/-- A column of a row that holds a secret. -/
inductive Target
  | server (id : Nat) (field : SecretField)
  | user (id : Nat)
  | channel (id : Nat)
  | setting
  deriving DecidableEq

/-- `WEBHOOK_ENCRYPTED_PREFIX`. -/
def webhookMark : Text := "fernet:"

/-- What stands in front of the token of a target. -/
def Target.mark : Target → Text
  | .server _ _ => []
  | .user _ => []
  | .channel _ => webhookMark
  | .setting => webhookMark

/-- `SETTING_WEBHOOK_URL`. -/
def settingWebhookUrl : Text := "alert_webhook_url"

/-- The rows of a query in the order of their ids. -/
def sortedIds {α : Type} [Keyed α] (t : Table α) : List Nat :=
  (t.rows.map Keyed.key).insertionSort (· ≤ ·)

/-- The list `targets`. -/
def targets (db : Database) : List Target :=
  (sortedIds db.servers).flatMap (fun id => SecretField.all.map (Target.server id)) ++
    (sortedIds db.users).map Target.user ++ (sortedIds db.channels).map Target.channel ++
    if (db.settings.get? settingWebhookUrl).isSome then [.setting] else []

/-- `getattr(model, field) or ""`. -/
def Database.value (db : Database) : Target → Text
  | .server id field => ((db.servers.get? id).map fun s => field.read s.toServer).getD []
  | .user id => ((db.users.get? id).map UserRecord.mfaSecret).getD []
  | .channel id => ((db.channels.get? id).map ChannelRecord.url).getD []
  | .setting => (db.settings.get? settingWebhookUrl).getD []

/-- The row of a server after a column was written and the row was flushed. -/
def ServerRecord.write (now : Int) (field : SecretField) (value : Text) (s : ServerRecord) :
    ServerRecord :=
  { field.write value s.toServer with updatedAt := now }

theorem key_write (now : Int) (field : SecretField) (value : Text) (s : ServerRecord) :
    Keyed.key (s.write now field value) = Keyed.key s := by
  cases field <;> rfl

def UserRecord.write (value : Text) (u : UserRecord) : UserRecord := { u with mfaSecret := value }

def ChannelRecord.write (value : Text) (c : ChannelRecord) : ChannelRecord := { c with url := value }

theorem UserRecord.key_write (value : Text) (u : UserRecord) :
    Keyed.key (u.write value) = Keyed.key u := rfl

theorem ChannelRecord.key_write (value : Text) (c : ChannelRecord) :
    Keyed.key (c.write value) = Keyed.key c := rfl

/-- `setattr(model, field, value)`, with its flush: a value that is there already is no change. -/
def Database.assign (now : Int) (t : Target) (value : Text) (db : Database) : Database :=
  if db.value t = value then db
  else match t with
    | .server id field =>
      { db with servers :=
          db.servers.modify id (ServerRecord.write now field value) (key_write now field value) }
    | .user id =>
      { db with users := db.users.modify id (UserRecord.write value) (UserRecord.key_write value) }
    | .channel id =>
      { db with channels :=
          db.channels.modify id (ChannelRecord.write value) (ChannelRecord.key_write value) }
    | .setting => { db with settings := db.settings.set settingWebhookUrl value }

/-! ## The script -/

/-- The rows of the session, and the two counters. -/
structure Progress where
  db : Database
  checked : Nat := 0
  rotated : Nat := 0

/-- What the run is given: the keyring, the clock, and what the library draws. -/
structure Settings where
  primary : Text
  older : List Text := []
  now : Int
  draws : Nat → Nat

def Settings.keys (cfg : Settings) : List Text := cfg.primary :: cfg.older

section Script

variable {κ : Type} (f : Fernet κ) (cfg : Settings)

/-- `_uses_primary`. -/
def usesPrimary (token : Text) : Bool := (f.decrypt (f.deriveKey cfg.primary) token).isSome

/-- A value counted as rotated, and written when the run applies. -/
def Progress.rotate (apply : Bool) (t : Target) (plain : Text) (p : Progress) : Progress where
  db := if apply then
      p.db.assign cfg.now t (t.mark ++ encryptText f cfg.primary (cfg.draws p.rotated) plain)
    else p.db
  checked := p.checked + 1
  rotated := p.rotated + 1

/-- One pass through the loop; `none` is a `CredentialDecryptionError`. -/
def rotateTarget (apply : Bool) (p : Progress) (t : Target) : Option Progress :=
  let ciphertext := p.db.value t
  if ciphertext = [] then some p
  else if t.mark ≠ [] ∧ startsWith ciphertext t.mark = false then
    some (p.rotate f cfg apply t ciphertext)
  else
    let token := if t.mark ≠ [] then ciphertext.drop t.mark.length else ciphertext
    if usesPrimary f cfg token then some { p with checked := p.checked + 1 }
    else (decryptText f cfg.keys token).map fun plaintext => p.rotate f cfg apply t plaintext

/-- The two numbers that the script prints. -/
structure Report where
  checked : Nat
  rotated : Nat
  deriving DecidableEq

inductive RotationError
  | decryption
  | commit
  deriving DecidableEq

/-- `main`: what it reports or raises, and the database afterwards. `commits` says whether the
commit goes through. -/
def rotateCredentials (commits apply : Bool) (db : Database) :
    Except RotationError Report × Database :=
  match (targets db).foldlM (rotateTarget f cfg apply) { db } with
  | none => (.error .decryption, db)
  | some p =>
    if apply then
      if commits then (.ok ⟨p.checked, p.rotated⟩, p.db) else (.error .commit, db)
    else (.ok ⟨p.checked, p.rotated⟩, db)

end Script

/-! ## Reading and writing a target -/

section Values

variable {db : Database} {now : Int} {t t' : Target} {value : Text}

theorem read_write_self (field : SecretField) (value : Text) (s : Server) :
    field.read (field.write value s) = value := by
  cases field <;> rfl

theorem read_write_of_ne {field field' : SecretField} (h : field' ≠ field) (value : Text)
    (s : Server) : field'.read (field.write value s) = field'.read s := by
  cases field <;> cases field' <;> first | rfl | exact absurd rfl h

theorem ne_none_of_getD {α : Type} {o : Option α} {column : α → Text}
    (h : (o.map column).getD [] ≠ []) : ∃ a, o = some a := by
  cases o with
  | none => exact absurd rfl h
  | some a => exact ⟨a, rfl⟩

/-- A column of a row that is there, after it was written. -/
theorem column_modify_self {α : Type} [Keyed α] {table : Table α} {id : Nat} {g : α → α}
    {column : α → Text} (hKey : ∀ a, Keyed.key (g a) = Keyed.key a)
    (h : ((table.get? id).map column).getD [] ≠ []) (hColumn : ∀ a, column (g a) = value) :
    (((table.modify id g hKey).get? id).map column).getD [] = value := by
  obtain ⟨a, hGet⟩ := ne_none_of_getD h
  rw [Table.get?_modify, if_pos rfl, hGet]
  exact hColumn a

/-- A column of another row, or one that the update leaves alone. -/
theorem column_modify_of_ne {α : Type} [Keyed α] {table : Table α} {id id' : Nat} {g : α → α}
    {column : α → Text} (hKey : ∀ a, Keyed.key (g a) = Keyed.key a)
    (h : id' = id → ∀ a, column (g a) = column a) :
    (((table.modify id g hKey).get? id').map column).getD [] =
      ((table.get? id').map column).getD [] := by
  rw [Table.get?_modify]
  split
  · rename_i hId
    cases table.get? id' with
    | none => rfl
    | some a => exact h hId a
  · rfl

theorem value_assign_self (h : db.value t ≠ []) : (db.assign now t value).value t = value := by
  unfold Database.assign
  split
  · assumption
  · cases t with
    | server id field =>
      exact column_modify_self (key_write now field value) h fun s =>
        read_write_self field value s.toServer
    | user id => exact column_modify_self (UserRecord.key_write value) h fun _ => rfl
    | channel id => exact column_modify_self (ChannelRecord.key_write value) h fun _ => rfl
    | setting =>
      unfold Database.value
      dsimp only
      rw [Dict.get?_set, if_pos rfl]
      rfl

theorem value_assign_of_ne (hne : t' ≠ t) : (db.assign now t value).value t' = db.value t' := by
  unfold Database.assign
  split
  · rfl
  · cases t with
    | server id field =>
      cases t' with
      | server id' field' =>
        refine column_modify_of_ne (key_write now field value) fun hId s =>
          read_write_of_ne ?_ value s.toServer
        exact fun hField => hne (by rw [hId, hField])
      | _ => rfl
    | user id =>
      cases t' with
      | user id' =>
        exact column_modify_of_ne (UserRecord.key_write value) fun hId =>
          absurd (congrArg Target.user hId) hne
      | _ => rfl
    | channel id =>
      cases t' with
      | channel id' =>
        exact column_modify_of_ne (ChannelRecord.key_write value) fun hId =>
          absurd (congrArg Target.channel hId) hne
      | _ => rfl
    | setting =>
      cases t' with
      | setting => exact absurd rfl hne
      | _ => rfl

/-! ### The other columns -/

/-- The database with every secret and every `updated_at` blotted out. -/
def Database.otherColumns (db : Database) : Database where
  servers := db.servers.map (fun s => { s with
    password := [], privateKey := [], passphrase := [], bmcPassword := [], updatedAt := 0 })
    fun _ => rfl
  users := db.users.map (fun u => { u with mfaSecret := [] }) fun _ => rfl
  channels := db.channels.map (fun c => { c with url := [] }) fun _ => rfl
  settings := if (db.settings.get? settingWebhookUrl).isSome
    then db.settings.set settingWebhookUrl [] else db.settings

theorem otherColumns_assign (h : db.value t ≠ []) :
    (db.assign now t value).otherColumns = db.otherColumns := by
  unfold Database.assign
  split
  · rfl
  · cases t with
    | server id field =>
      unfold Database.otherColumns
      rw [Table.map_modify]
      intro s
      cases field <;> rfl
    | user id =>
      unfold Database.otherColumns
      rw [Table.map_modify]
      intro u
      rfl
    | channel id =>
      unfold Database.otherColumns
      rw [Table.map_modify]
      intro c
      rfl
    | setting =>
      have hSome : (db.settings.get? settingWebhookUrl).isSome = true := by
        cases hGet : db.settings.get? settingWebhookUrl with
        | none =>
          unfold Database.value at h
          rw [hGet] at h
          exact absurd rfl h
        | some v => rfl
      unfold Database.otherColumns
      dsimp only
      rw [Dict.get?_set, if_pos rfl, hSome, Option.isSome_some, if_pos rfl, if_pos rfl,
        Dict.set_set]

theorem mem_sortedIds {α : Type} [Keyed α] {table : Table α} {id : Nat} :
    id ∈ sortedIds table ↔ (table.get? id).isSome = true := by
  unfold sortedIds
  rw [List.mem_insertionSort, Table.mem_keys_iff]

theorem nodup_sortedIds {α : Type} [Keyed α] (table : Table α) : (sortedIds table).Nodup :=
  (List.perm_insertionSort _ _).nodup_iff.mpr table.keysNodup

/-- Every secret that is not empty is a target. -/
theorem mem_targets_of_value (h : db.value t ≠ []) : t ∈ targets db := by
  have hSome : ∀ {α : Type} {o : Option α} {g : α → Text}, (o.map g).getD [] ≠ [] →
      o.isSome = true := fun hne => Option.isSome_iff_exists.mpr (ne_none_of_getD hne)
  unfold targets
  simp only [List.mem_append, List.mem_flatMap, List.mem_map]
  cases t with
  | server id field =>
    refine .inl (.inl (.inl ⟨id, mem_sortedIds.mpr (hSome h), field, ?_, rfl⟩))
    cases field <;> decide
  | user id => exact .inl (.inl (.inr ⟨id, mem_sortedIds.mpr (hSome h), rfl⟩))
  | channel id => exact .inl (.inr ⟨id, mem_sortedIds.mpr (hSome h), rfl⟩)
  | setting =>
    refine .inr ?_
    have hGet : (db.settings.get? settingWebhookUrl).isSome = true := by
      cases hGet : db.settings.get? settingWebhookUrl with
      | none =>
        unfold Database.value at h
        rw [hGet] at h
        exact absurd rfl h
      | some v => rfl
    rw [if_pos hGet]
    exact List.mem_singleton_self _

theorem nodup_targets (db : Database) : (targets db).Nodup := by
  have hServers : ((sortedIds db.servers).flatMap fun id =>
      SecretField.all.map (Target.server id)).Nodup := by
    rw [List.nodup_flatMap]
    constructor
    · intro id _
      exact (by decide : SecretField.all.Nodup).map fun _ _ h => (Target.server.inj h).2
    · refine (nodup_sortedIds db.servers).imp ?_
      intro id id' hne t ht ht'
      obtain ⟨field, -, rfl⟩ := List.mem_map.mp ht
      obtain ⟨field', -, hSame⟩ := List.mem_map.mp ht'
      exact hne (Target.server.inj hSame).1.symm
  have hUsers : ((sortedIds db.users).map Target.user).Nodup :=
    (nodup_sortedIds db.users).map fun _ _ h => Target.user.inj h
  have hChannels : ((sortedIds db.channels).map Target.channel).Nodup :=
    (nodup_sortedIds db.channels).map fun _ _ h => Target.channel.inj h
  unfold targets
  rw [List.nodup_append, List.nodup_append, List.nodup_append]
  refine ⟨⟨⟨hServers, hUsers, ?_⟩, hChannels, ?_⟩, ?_, ?_⟩
  · intro t ht t' ht'
    obtain ⟨id, -, ht⟩ := List.mem_flatMap.mp ht
    obtain ⟨field, -, rfl⟩ := List.mem_map.mp ht
    obtain ⟨id', -, rfl⟩ := List.mem_map.mp ht'
    exact fun h => Target.noConfusion h
  · intro t ht t' ht'
    obtain ⟨id', -, rfl⟩ := List.mem_map.mp ht'
    rcases List.mem_append.mp ht with ht | ht
    · obtain ⟨id, -, ht⟩ := List.mem_flatMap.mp ht
      obtain ⟨field, -, rfl⟩ := List.mem_map.mp ht
      exact fun h => Target.noConfusion h
    · obtain ⟨id, -, rfl⟩ := List.mem_map.mp ht
      exact fun h => Target.noConfusion h
  · split
    · exact List.nodup_singleton _
    · exact List.nodup_nil
  · intro t ht t' ht'
    have hSetting : t' = .setting := by
      split at ht'
      · exact List.mem_singleton.mp ht'
      · cases ht'
    rintro rfl
    rw [hSetting] at ht
    simp at ht

end Values

/-! ## What a value stands for -/

section Opening

variable {κ : Type} (f : Fernet κ)

/-- The bytes of a token under the first key that opens it. -/
def opened (keys : List Text) (token : Text) : Option ByteArray :=
  if token = [] then some (encode [])
  else keys.findSome? fun secret => f.decrypt (f.deriveKey secret) token

/-- The secret that a stored value stands for: a webhook url without the mark is plain text. -/
def revealed (keys : List Text) (t : Target) (stored : Text) : Option ByteArray :=
  if t.mark ≠ [] ∧ startsWith stored t.mark = false then some (encode stored)
  else opened f keys (stored.drop t.mark.length)

variable {f} {keys : List Text} {token secret plain : Text}

/-- A token opens to the same bytes under every key that opens it. -/
theorem bytes_unique {secret' : Text} {bytes bytes' : ByteArray}
    (h : f.decrypt (f.deriveKey secret) token = some bytes)
    (h' : f.decrypt (f.deriveKey secret') token = some bytes') : bytes = bytes' := by
  rw [f.decrypt_unique h h', h'] at h
  exact (Option.some.inj h).symm

theorem opened_of_mem {bytes : ByteArray} (hMem : secret ∈ keys)
    (h : f.decrypt (f.deriveKey secret) token = some bytes) : opened f keys token = some bytes := by
  have hne : token ≠ [] := by
    rintro rfl
    rw [f.decrypt_nil] at h
    cases h
  rw [opened, if_neg hne]
  cases hFound : keys.findSome? fun secret => f.decrypt (f.deriveKey secret) token with
  | none =>
    rw [List.findSome?_eq_none_iff.mp hFound secret hMem] at h
    cases h
  | some bytes' =>
    obtain ⟨secret', -, hOpens⟩ := List.exists_of_findSome?_eq_some hFound
    rw [bytes_unique h hOpens]

theorem opened_of_decryptText (h : decryptText f keys token = some plain) :
    opened f keys token = some (encode plain) := by
  by_cases hne : token = []
  · rw [hne, decryptText_nil] at h
    cases h
    rw [opened, if_pos hne]
  · obtain ⟨secret, hMem, hOpens⟩ := decryptText_eq_some hne h
    exact opened_of_mem hMem hOpens

theorem opened_encryptText (primary : Text) (draw : Nat) (plain : Text) :
    opened f [primary] (encryptText f primary draw plain) = some (encode plain) :=
  opened_of_decryptText (decryptText_encryptText primary [] draw plain)

end Opening

/-! ## One pass -/

section Step

variable {κ : Type} {f : Fernet κ} {cfg : Settings} {p p' : Progress} {t : Target}

/-- A stored value before and after: it stands for the same secret, now under the first key
alone, and a webhook url has its mark. -/
structure Rotated (f : Fernet κ) (cfg : Settings) (t : Target) (before after : Text) : Prop where
  empty : before = [] → after = []
  same : before ≠ [] → ∃ plain, revealed f cfg.keys t before = some plain ∧
    revealed f [cfg.primary] t after = some plain
  marked : before ≠ [] → startsWith after t.mark = true

theorem startsWith_append (head rest : Text) : startsWith (head ++ rest) head = true :=
  List.isPrefixOf_iff_prefix.mpr (List.prefix_append head rest)

theorem revealed_of_token {keys : List Text} {stored : Text}
    (h : ¬(t.mark ≠ [] ∧ startsWith stored t.mark = false)) :
    revealed f keys t stored = opened f keys (stored.drop t.mark.length) :=
  if_neg h

theorem revealed_append (keys : List Text) (t : Target) (token : Text) :
    revealed f keys t (t.mark ++ token) = opened f keys token := by
  rw [revealed_of_token, List.drop_left]
  rintro ⟨-, hFalse⟩
  rw [startsWith_append] at hFalse
  cases hFalse

/-- `removeprefix`, where the value has the mark. -/
theorem drop_mark (t : Target) (stored : Text) :
    (if t.mark ≠ [] then stored.drop t.mark.length else stored) = stored.drop t.mark.length := by
  split
  · rfl
  · rename_i hMark
    rw [not_not.mp hMark, List.length_nil, List.drop_zero]

/-- What a pass through the loop finds: nothing, a token of the first key, or a secret to write
anew. -/
theorem rotateTarget_cases {apply : Bool} (h : rotateTarget f cfg apply p t = some p') :
    (p.db.value t = [] ∧ p' = p) ∨
    (∃ bytes, p.db.value t ≠ [] ∧ startsWith (p.db.value t) t.mark = true ∧
      f.decrypt (f.deriveKey cfg.primary) ((p.db.value t).drop t.mark.length) = some bytes ∧
      p' = { p with checked := p.checked + 1 }) ∨
    ∃ plain, p.db.value t ≠ [] ∧ revealed f cfg.keys t (p.db.value t) = some (encode plain) ∧
      p' = p.rotate f cfg apply t plain := by
  unfold rotateTarget at h
  simp only [drop_mark] at h
  split at h
  · rename_i hNil
    exact .inl ⟨hNil, (Option.some.inj h).symm⟩
  rename_i hNil
  split at h
  · rename_i hPlain
    exact .inr (.inr ⟨p.db.value t, hNil, if_pos hPlain, (Option.some.inj h).symm⟩)
  rename_i hMarked
  split at h
  · rename_i hUses
    obtain ⟨bytes, hOpens⟩ := Option.isSome_iff_exists.mp hUses
    refine .inr (.inl ⟨bytes, hNil, ?_, hOpens, (Option.some.inj h).symm⟩)
    by_cases hMark : t.mark = []
    · rw [hMark]
      rfl
    · exact Bool.of_not_eq_false fun hFalse => hMarked ⟨hMark, hFalse⟩
  · obtain ⟨plain, hText, rfl⟩ := Option.map_eq_some_iff.mp h
    refine .inr (.inr ⟨plain, hNil, ?_, rfl⟩)
    rw [revealed_of_token hMarked]
    exact opened_of_decryptText hText

/-- The row of a server is as before, or one of its secrets was written at the time of the run. -/
def RowTouched (cfg : Settings) (db db' : Database) (id : Nat) : Prop :=
  db'.servers.get? id = db.servers.get? id ∨
    (∃ field, db'.value (.server id field) ≠ db.value (.server id field)) ∧
      ∀ s, db'.servers.get? id = some s → s.updatedAt = cfg.now

/-- What a pass over some targets makes of a database. -/
structure RotatedOver (f : Fernet κ) (cfg : Settings) (ts : List Target) (db db' : Database) :
    Prop where
  others : db'.otherColumns = db.otherColumns
  kept : ∀ t ∉ ts, db'.value t = db.value t
  rotated : ∀ t ∈ ts, Rotated f cfg t (db.value t) (db'.value t)
  touched : ∀ id, RowTouched cfg db db' id

theorem rowTouched_assign (db : Database) (t : Target) (value : Text) (id : Nat)
    (hSome : db.value t ≠ []) : RowTouched cfg db (db.assign cfg.now t value) id := by
  by_cases hSame : db.value t = value
  · rw [Database.assign.eq_def, if_pos hSame]
    exact .inl rfl
  by_cases hRow : ∃ field, t = .server id field
  · obtain ⟨field, rfl⟩ := hRow
    refine .inr ⟨⟨field, ?_⟩, ?_⟩
    · rw [value_assign_self hSome]
      exact fun h => hSame h.symm
    · intro s hGet
      rw [Database.assign.eq_def, if_neg hSame] at hGet
      dsimp only at hGet
      rw [Table.get?_modify, if_pos rfl] at hGet
      obtain ⟨row, -, rfl⟩ := Option.map_eq_some_iff.mp hGet
      rfl
  · refine .inl ?_
    rw [Database.assign.eq_def, if_neg hSame]
    cases t with
    | server id' field =>
      dsimp only
      rw [Table.get?_modify, if_neg]
      rintro rfl
      exact hRow ⟨field, rfl⟩
    | _ => rfl

/-- One pass through the loop does its part. -/
theorem rotatedOver_rotateTarget (h : rotateTarget f cfg true p t = some p') :
    RotatedOver f cfg [t] p.db p'.db := by
  have hSame : ∀ {db' : Database}, db' = p.db → Rotated f cfg t (p.db.value t) (db'.value t) →
      RotatedOver f cfg [t] p.db db' := by
    rintro db' rfl hRotated
    refine ⟨rfl, fun _ _ => rfl, fun t' hMem => ?_, fun _ => .inl rfl⟩
    rw [List.mem_singleton.mp hMem]
    exact hRotated
  rcases rotateTarget_cases h with ⟨hNil, rfl⟩ | ⟨bytes, hSome, hMarked, hOpens, rfl⟩ |
    ⟨plain, hSome, hPlain, rfl⟩
  · exact hSame rfl ⟨id, fun hSome => absurd hNil hSome, fun hSome => absurd hNil hSome⟩
  · refine hSame rfl ⟨id, fun _ => ⟨bytes, ?_, ?_⟩, fun _ => hMarked⟩
    all_goals
      rw [revealed_of_token fun hPlain => by rw [hMarked] at hPlain; cases hPlain.2]
      exact opened_of_mem List.mem_cons_self hOpens
  · refine ⟨otherColumns_assign hSome, fun t' hMem => ?_, fun t' hMem => ?_,
      fun id => rowTouched_assign _ _ _ id hSome⟩
    · exact value_assign_of_ne fun hEq => hMem (List.mem_singleton.mpr hEq)
    · obtain rfl := List.mem_singleton.mp hMem
      have hValue : (p.rotate f cfg true t' plain).db.value t' =
          t'.mark ++ encryptText f cfg.primary (cfg.draws p.rotated) plain := value_assign_self hSome
      rw [hValue]
      refine ⟨fun hNil => absurd hNil hSome, fun _ => ⟨encode plain, hPlain, ?_⟩,
        fun _ => startsWith_append _ _⟩
      rw [revealed_append]
      exact opened_encryptText _ _ _

theorem rowTouched_trans {db db₁ db₂ : Database} {id : Nat}
    (hKeeps : ∀ field, db₁.value (.server id field) ≠ db.value (.server id field) →
      db₂.value (.server id field) = db₁.value (.server id field))
    (h₁ : RowTouched cfg db db₁ id) (h₂ : RowTouched cfg db₁ db₂ id) :
    RowTouched cfg db db₂ id := by
  rcases h₁ with hSame₁ | ⟨⟨field, hField⟩, hNow₁⟩
  · have hValue : ∀ field, db₁.value (.server id field) = db.value (.server id field) := by
      intro field
      unfold Database.value
      dsimp only
      rw [hSame₁]
    rcases h₂ with hSame₂ | ⟨⟨field, hField⟩, hNow₂⟩
    · exact .inl (hSame₂.trans hSame₁)
    · exact .inr ⟨⟨field, hValue field ▸ hField⟩, hNow₂⟩
  · refine .inr ⟨⟨field, (hKeeps field hField).symm ▸ hField⟩, ?_⟩
    rcases h₂ with hSame₂ | ⟨-, hNow₂⟩
    · rw [hSame₂]
      exact hNow₁
    · exact hNow₂

/-- A pass over different targets does what each of its steps does. -/
theorem rotatedOver_of_foldlM {ts : List Target} (hNodup : ts.Nodup)
    (h : ts.foldlM (rotateTarget f cfg true) p = some p') : RotatedOver f cfg ts p.db p'.db := by
  induction ts generalizing p with
  | nil =>
    cases h
    exact ⟨rfl, fun _ _ => rfl, fun _ hMem => absurd hMem List.not_mem_nil, fun _ => .inl rfl⟩
  | cons t ts ih =>
    rw [List.foldlM_cons] at h
    obtain ⟨p₁, hStep, hRest⟩ := Option.bind_eq_some_iff.mp h
    obtain ⟨hNotMem, hNodup⟩ := List.nodup_cons.mp hNodup
    have hFirst := rotatedOver_rotateTarget hStep
    have hLater := ih hNodup hRest
    refine ⟨hLater.others.trans hFirst.others, fun t' hMem => ?_, fun t' hMem => ?_, fun id => ?_⟩
    · rw [List.mem_cons, not_or] at hMem
      rw [hLater.kept t' hMem.2, hFirst.kept t' fun hSame => hMem.1 (List.mem_singleton.mp hSame)]
    · rcases List.mem_cons.mp hMem with rfl | hMem
      · rw [hLater.kept t' hNotMem]
        exact hFirst.rotated t' List.mem_cons_self
      · have hKept : p₁.db.value t' = p.db.value t' := by
          refine hFirst.kept t' fun hSame => hNotMem ?_
          rw [← List.mem_singleton.mp hSame]
          exact hMem
        rw [← hKept]
        exact hLater.rotated t' hMem
    · refine rowTouched_trans (fun field hField => ?_) (hFirst.touched id) (hLater.touched id)
      -- The field that the step wrote is not visited again.
      have hSelf : Target.server id field = t := by
        by_contra hne
        exact hField (hFirst.kept _ fun hMem => hne (List.mem_singleton.mp hMem))
      exact hLater.kept _ (hSelf ▸ hNotMem)

end Step

/-! ## A second pass -/

section Again

variable {κ : Type} {f : Fernet κ} {cfg : Settings} {p : Progress} {t : Target} {db : Database}

/-- A value that the first key opens, or that is the bare mark. -/
def Settled (f : Fernet κ) (primary : Text) (t : Target) (stored : Text) : Prop :=
  stored = [] ∨ startsWith stored t.mark = true ∧ (stored.drop t.mark.length = [] ∨
    (f.decrypt (f.deriveKey primary) (stored.drop t.mark.length)).isSome = true)

/-- A webhook url that is the mark and nothing else. -/
def Database.isBareMark (db : Database) (t : Target) : Bool :=
  decide (t.mark ≠ [] ∧ db.value t = t.mark)

theorem Rotated.settled {before after : Text} (h : Rotated f cfg t before after) :
    Settled f cfg.primary t after := by
  by_cases hNil : before = []
  · exact .inl (h.empty hNil)
  obtain ⟨plain, -, hPlain⟩ := h.same hNil
  have hMarked := h.marked hNil
  refine .inr ⟨hMarked, ?_⟩
  rw [revealed_of_token fun hFalse => by rw [hMarked] at hFalse; cases hFalse.2] at hPlain
  unfold opened at hPlain
  split at hPlain
  · rename_i hDrop
    exact .inl hDrop
  · obtain ⟨secret, hMem, hOpens⟩ := List.exists_of_findSome?_eq_some hPlain
    rw [List.mem_singleton.mp hMem] at hOpens
    exact .inr (Option.isSome_iff_exists.mpr ⟨plain, hOpens⟩)

theorem eq_append_of_startsWith {text head : Text} (h : startsWith text head = true) :
    text = head ++ text.drop head.length :=
  (List.prefix_iff_eq_append.mp (List.isPrefixOf_iff_prefix.mp h)).symm

theorem rotateTarget_settled (apply : Bool) (h : Settled f cfg.primary t (p.db.value t)) :
    ∃ checked, rotateTarget f cfg apply p t =
      some ⟨p.db, checked, p.rotated + if p.db.isBareMark t then 1 else 0⟩ := by
  by_cases hNil : p.db.value t = []
  · have hBare : p.db.isBareMark t = false :=
      decide_eq_false fun hBare => hBare.1 (hBare.2.symm.trans hNil)
    refine ⟨p.checked, ?_⟩
    rw [rotateTarget, if_pos hNil, hBare]
    rfl
  obtain ⟨hMarked, hToken⟩ := h.resolve_left hNil
  have hNotPlain : ¬(t.mark ≠ [] ∧ startsWith (p.db.value t) t.mark = false) := by
    rintro ⟨-, hFalse⟩
    rw [hMarked] at hFalse
    cases hFalse
  refine ⟨p.checked + 1, ?_⟩
  rcases hToken with hToken | hOpens
  · have hMark : p.db.value t = t.mark := by
      rw [eq_append_of_startsWith hMarked, hToken, List.append_nil]
    have hBare : p.db.isBareMark t = true := decide_eq_true ⟨hMark ▸ hNil, hMark⟩
    have hUses : usesPrimary f cfg [] = false := by
      rw [usesPrimary, f.decrypt_nil]
      rfl
    have hAssign : p.db.assign cfg.now t (t.mark ++ []) = p.db := by
      rw [List.append_nil, Database.assign.eq_def, if_pos hMark]
    unfold rotateTarget
    dsimp only
    rw [if_neg hNil, if_neg hNotPlain, drop_mark, hToken, hUses, if_neg Bool.false_ne_true,
      decryptText_nil, Option.map_some, Progress.rotate, encryptText_nil, hAssign, ite_self, hBare,
      if_pos rfl]
  · have hUses : usesPrimary f cfg ((p.db.value t).drop t.mark.length) = true := hOpens
    have hBare : p.db.isBareMark t = false := by
      refine decide_eq_false fun hBare => ?_
      rw [hBare.2, List.drop_length, f.decrypt_nil] at hOpens
      cases hOpens
    unfold rotateTarget
    dsimp only
    rw [if_neg hNil, if_neg hNotPlain, drop_mark, hUses, if_pos rfl, hBare]
    rfl

theorem foldlM_settled (apply : Bool) {ts : List Target}
    (h : ∀ t ∈ ts, Settled f cfg.primary t (p.db.value t)) :
    ∃ checked, ts.foldlM (rotateTarget f cfg apply) p =
      some ⟨p.db, checked, p.rotated + ts.countP p.db.isBareMark⟩ := by
  induction ts generalizing p with
  | nil => exact ⟨p.checked, rfl⟩
  | cons t ts ih =>
    obtain ⟨checked₁, hStep⟩ := rotateTarget_settled apply (h t List.mem_cons_self)
    obtain ⟨checked, hRest⟩ := ih (p := ⟨p.db, checked₁, _⟩)
      fun t' hMem => h t' (List.mem_cons_of_mem t hMem)
    refine ⟨checked, ?_⟩
    rw [List.foldlM_cons, hStep]
    refine hRest.trans ?_
    rw [List.countP_cons, Nat.add_assoc, Nat.add_comm (List.countP _ ts)]

/-- A run over settled values writes nothing and counts the bare marks only. -/
theorem rotateCredentials_settled (apply : Bool)
    (h : ∀ t, Settled f cfg.primary t (db.value t)) :
    ∃ checked, rotateCredentials f cfg true apply db =
      (.ok ⟨checked, (targets db).countP db.isBareMark⟩, db) := by
  have hPass : ∃ checked, (targets db).foldlM (rotateTarget f cfg apply) { db } =
      some ⟨db, checked, 0 + (targets db).countP db.isBareMark⟩ :=
    foldlM_settled apply fun t _ => h t
  obtain ⟨checked, hFold⟩ := hPass
  refine ⟨checked, ?_⟩
  rw [rotateCredentials, hFold]
  dsimp only
  rw [Nat.zero_add, if_pos rfl, ite_self]

end Again

/-! ## The runs -/

section Run

variable {κ : Type} (f : Fernet κ) (cfg : Settings)

/-- A database before and after a rotation. -/
structure Rotation (db db' : Database) : Prop where
  others : db'.otherColumns = db.otherColumns
  rotated : ∀ t, Rotated f cfg t (db.value t) (db'.value t)
  touched : ∀ id, RowTouched cfg db db' id

variable {f cfg}

theorem rotation_of_foldlM {db : Database} {p : Progress}
    (h : (targets db).foldlM (rotateTarget f cfg true) { db } = some p) :
    Rotation f cfg db p.db := by
  have hOver := rotatedOver_of_foldlM (nodup_targets db) h
  refine ⟨hOver.others, fun t => ?_, hOver.touched⟩
  by_cases hMem : t ∈ targets db
  · exact hOver.rotated t hMem
  · have hNil : db.value t = [] := by
      by_contra hne
      exact hMem (mem_targets_of_value hne)
    have hNil' : p.db.value t = [] := (hOver.kept t hMem).trans hNil
    exact ⟨fun _ => hNil', fun hne => absurd hNil hne, fun hne => absurd hNil hne⟩

variable (f cfg)

theorem rotation_all_or_nothing (commits apply : Bool) (db : Database) :
    match rotateCredentials f cfg commits apply db with
    | (.error _, db') => db' = db
    | (.ok _, db') =>
      if apply then
        Rotation f cfg db db' ∧
        ∀ cfg' : Settings, cfg'.primary = cfg.primary → ∀ apply', ∃ checked,
          rotateCredentials f cfg' true apply' db' =
            (.ok ⟨checked, (targets db').countP db'.isBareMark⟩, db')
      else db' = db := by
  unfold rotateCredentials
  cases hFold : (targets db).foldlM (rotateTarget f cfg apply) { db } with
  | none => rfl
  | some p =>
    cases apply with
    | false => rfl
    | true =>
      cases commits with
      | false => rfl
      | true =>
        have hRotation := rotation_of_foldlM hFold
        refine ⟨hRotation, fun cfg' hPrimary apply' => ?_⟩
        refine rotateCredentials_settled apply' fun t => ?_
        rw [hPrimary]
        exact (hRotation.rotated t).settled

end Run

section Example

/-- A new key in front of the old one. -/
def rotatingKeys : Settings := { primary := "k2", older := ["old"], now := 9, draws := id }

/-- A password under the old key, and a webhook url that is the bare mark. -/
def beforeRotation : Database where
  servers := ⟨[{ id := 1, password := encryptText spelledOut "old" 0 "pw", updatedAt := 0 }],
    List.nodup_singleton _⟩
  users := Table.empty
  channels := ⟨[{ id := 1, url := webhookMark }], List.nodup_singleton _⟩
  settings := Dict.empty

theorem rotation_touches_updated_at :
    let run := rotateCredentials spelledOut rotatingKeys true true beforeRotation
    let again := rotateCredentials spelledOut rotatingKeys true true run.2
    run.1 = .ok ⟨2, 2⟩ ∧ again.1 = .ok ⟨2, 1⟩ ∧
      (run.2.servers.get? 1).map ServerRecord.updatedAt ≠
        (beforeRotation.servers.get? 1).map ServerRecord.updatedAt := by
  decide +kernel

end Example

end GpuMon.Secrets

import GpuMon.Library.BatchLoop
import GpuMon.Library.PyText

/-!
# Encrypted archives (`archive_crypto.py`)

An archive is the magic, a nonce of 12 bytes, the ciphertext and a tag of 16 bytes. Both directions
work on chunks as the reads return them, and both write to a file that must not exist before and
that is removed again when anything fails.

* `archives_authenticated`: what was encrypted is decrypted again for every way the reads cut the
  data; a file that is decrypted has the form of an archive and its tag verifies; a call that fails
  leaves no file behind unless the descriptor cannot be closed or the file cannot be removed; the
  loop that decrypts ends, within as many passes as the ciphertext has bytes, also for a file that
  changes under it.
* `cleanup_skipped_by_close`: a descriptor that cannot be closed leaves the file.

`AesGcm` stands for the cryptographic library, with what the code relies on.
-/

namespace GpuMon.ArchiveCrypto

open BatchLoop PyText

abbrev Bytes := List UInt8

/-! ## The library -/

/-- The outputs of a context that is given some chunks, and the context afterwards. -/
def feed {σ : Type} (update : σ → Bytes → Bytes × σ) : σ → List Bytes → Bytes × σ
  | ctx, [] => ([], ctx)
  | ctx, chunk :: rest =>
    let out := update ctx chunk
    let outs := feed update out.2 rest
    (out.1 ++ outs.1, outs.2)

/-- Contexts that encrypt and decrypt chunk by chunk. `ciphertext`, `plaintext` and `tag` say what
they compute of the whole text; the arguments are the key, the nonce and the text, for the tag with
the authenticated header before the text. -/
structure AesGcm (ε δ : Type) where
  encryptor : Bytes → Bytes → Bytes → ε
  encryptUpdate : ε → Bytes → Bytes × ε
  encryptFinalize : ε → Bytes × Bytes
  decryptor : Bytes → Bytes → Bytes → Bytes → Option δ
  decryptUpdate : δ → Bytes → Bytes × δ
  decryptFinalize : δ → Option Bytes
  ciphertext : Bytes → Bytes → Bytes → Bytes
  plaintext : Bytes → Bytes → Bytes → Bytes
  tag : Bytes → Bytes → Bytes → Bytes → Bytes
  tag_length : ∀ key nonce header text, (tag key nonce header text).length = 16
  plaintext_ciphertext : ∀ key nonce text, plaintext key nonce (ciphertext key nonce text) = text
  encrypt_stream : ∀ key nonce header chunks, key.length = 32 → nonce.length = 12 →
    (feed encryptUpdate (encryptor key nonce header) chunks).1 ++
        (encryptFinalize (feed encryptUpdate (encryptor key nonce header) chunks).2).1 =
      ciphertext key nonce chunks.flatten ∧
    (encryptFinalize (feed encryptUpdate (encryptor key nonce header) chunks).2).2 =
      tag key nonce header (ciphertext key nonce chunks.flatten)
  decryptor_isSome : ∀ key nonce expected header, key.length = 32 → nonce.length = 12 →
    expected.length = 16 → (decryptor key nonce expected header).isSome = true
  decrypt_stream : ∀ key nonce expected header ctx chunks,
    decryptor key nonce expected header = some ctx →
    match decryptFinalize (feed decryptUpdate ctx chunks).2 with
    | some rest => expected = tag key nonce header chunks.flatten ∧
        (feed decryptUpdate ctx chunks).1 ++ rest = plaintext key nonce chunks.flatten
    | none => expected ≠ tag key nonce header chunks.flatten

/-! ## Calls that may fail -/

/-- The calls to the operating system, the repeated ones with a number. -/
inductive Call
  | getsize
  | openSource
  | readMagic
  | readNonce
  | seekTag
  | readTag
  | seekCiphertext
  | read (k : Nat)
  | openDestination
  | fdopen
  | write (k : Nat)
  | flush
  | fsync
  /-- The end of the `with` block of the destination. -/
  | leave
  | close
  | unlink
  deriving DecidableEq

inductive ArchiveError
  | valueError (message : Text)
  /-- `modes.GCM` refuses its arguments. -/
  | cipher
  | invalidTag
  | fileExists
  | os (call : Call)
  deriving DecidableEq

/-- What the operating system does in one run: the calls that fail, and the bytes that stand in the
destination when the run breaks off. -/
structure Env where
  fails : Call → Bool
  partly : Bytes := []

def Env.call (env : Env) (call : Call) : Except ArchiveError Unit :=
  if env.fails call then .error (.os call) else .ok ()

/-- `dst.write`, to what was written before. -/
def Env.write (env : Env) (k : Nat) (bytes written : Bytes) : Except ArchiveError Bytes := do
  env.call (.write k)
  pure (written ++ bytes)

/-- `flush` and `fsync`. -/
def Env.sync (env : Env) (written : Bytes) : Except ArchiveError Bytes := do
  env.call .flush
  env.call .fsync
  pure written

/-- A check that raises a `ValueError`. -/
def require (p : Prop) [Decidable p] (message : Text) : Except ArchiveError Unit :=
  if p then .ok () else .error (.valueError message)

/-! ## The key -/

/-- `string.hexdigits`. -/
def hexdigits : Text := "0123456789abcdefABCDEF"

def hexValue (c : Char) : Nat :=
  if hexdigits.idxOf c < 16 then hexdigits.idxOf c else hexdigits.idxOf c - 6

/-- `bytes.fromhex`, of a text without blanks. -/
def fromHex : Text → Option Bytes
  | [] => some []
  | [_] => none
  | a :: b :: rest =>
    if a ∈ hexdigits ∧ b ∈ hexdigits then
      (fromHex rest).map (UInt8.ofNat (16 * hexValue a + hexValue b) :: ·)
    else none

/-- `_key_bytes`. -/
def keyBytes (hexKey : Text) : Except ArchiveError Bytes := do
  require (hexKey.length = 64 ∧ hexKey.all fun c => c ∈ hexdigits)
    "archive encryption key must be exactly 64 hexadecimal characters"
  match fromHex hexKey with
  | none => .error (.valueError "archive encryption key must be hexadecimal")
  | some key => do
    require (key.length = 32) "archive encryption key must contain exactly 32 bytes"
    pure key

/-! ## The archive -/

/-- `MAGIC`. -/
def magic : Bytes := [71, 80, 77, 79, 78, 65, 82, 49]

def nonceSize : Nat := 12
def tagSize : Nat := 16
def chunkSize : Nat := 1024 * 1024

/-- How the reads cut a stream into chunks. -/
structure Cut where
  chunks : Bytes → List Bytes
  flatten_chunks : ∀ data, (chunks data).flatten = data
  size_le : ∀ data, ∀ chunk ∈ chunks data, chunk ≠ [] ∧ chunk.length ≤ chunkSize

/-- The files, by their paths. -/
abbrev Files := Text → Option Bytes

def Files.write (fs : Files) (path : Text) (bytes : Bytes) : Files :=
  Function.update fs path (some bytes)

def Files.remove (fs : Files) (path : Text) : Files := Function.update fs path none

/-- `os.open` with `O_EXCL`, a body that writes the file, and the `finally` block. A file that
`os.unlink` does not find is as good as removed. -/
def intoNewFile (env : Env) (fs : Files) (destination : Text) (body : Except ArchiveError Bytes) :
    Except ArchiveError Unit × Files :=
  if (fs destination).isSome then (.error .fileExists, fs)
  else if env.fails .openDestination then (.error (.os .openDestination), fs)
  else
    match (do env.call .fdopen; let bytes ← body; env.call .leave; pure bytes) with
    | .ok bytes =>
      if env.fails .close then (.error (.os .close), fs.write destination bytes)
      else (.ok (), fs.write destination bytes)
    | .error e =>
      if env.fails .close then (.error (.os .close), fs.write destination env.partly)
      else if env.fails .unlink then (.error (.os .unlink), fs.write destination env.partly)
      else (.error e, (fs.write destination env.partly).remove destination)

section Archive

variable {ε δ : Type} (gcm : AesGcm ε δ) (env : Env)

/-- The `while` loop of `encrypt_fileobj`, from the `k`-th chunk on. -/
def encryptLoop : Nat → ε → List Bytes → Bytes → Except ArchiveError (ε × Bytes)
  | k, ctx, [], written => do
    env.call (.read k)
    pure (ctx, written)
  | k, ctx, chunk :: rest, written => do
    env.call (.read k)
    let out := gcm.encryptUpdate ctx chunk
    let written ← env.write (k + 2) out.1 written
    encryptLoop (k + 1) out.2 rest written

/-- The body of `encrypt_fileobj`. -/
def encryptBody (key nonce : Bytes) (chunks : List Bytes) : Except ArchiveError Bytes := do
  let written ← env.write 0 magic []
  let written ← env.write 1 nonce written
  let done ← encryptLoop gcm env 0 (gcm.encryptor key nonce (magic ++ nonce)) chunks written
  let last := gcm.encryptFinalize done.1
  let written ← env.write (chunks.length + 2) last.1 done.2
  let written ← env.write (chunks.length + 3) last.2 written
  env.sync written

/-- `encrypt_fileobj`, with what `os.urandom` draws. -/
def encryptFileobj (cut : Cut) (nonce : { bytes : Bytes // bytes.length = nonceSize }) (fs : Files)
    (data : Bytes) (destination hexKey : Text) : Except ArchiveError Unit × Files :=
  match keyBytes hexKey with
  | .error e => (.error e, fs)
  | .ok key => intoNewFile env fs destination (encryptBody gcm env key nonce (cut.chunks data))

/-- `encrypt_file`. -/
def encryptFile (cut : Cut) (nonce : { bytes : Bytes // bytes.length = nonceSize }) (fs : Files)
    (source destination hexKey : Text) : Except ArchiveError Unit × Files :=
  match env.call .openSource, fs source with
  | .error e, _ => (.error e, fs)
  | .ok _, none => (.error (.os .openSource), fs)
  | .ok _, some data => encryptFileobj gcm env cut nonce fs data destination hexKey

/-- What `decrypt_fileobj` sees of its source, which may change between the calls: its size, the
first two reads, what stands before the end (none if the seek fails), and the reads of the loop by
their position and the size they ask for. -/
structure View where
  size : Nat
  head : Bytes
  nonce : Bytes
  tag : Option Bytes
  chunk : Nat → Nat → Bytes
  chunk_le : ∀ position asked, (chunk position asked).length ≤ asked

/-- The bytes of the ciphertext. -/
def View.ciphertextSize (view : View) : Nat := view.size - magic.length - nonceSize - tagSize

/-- `decrypt_fileobj` up to its loop. -/
def openArchive (view : View) (hexKey : Text) : Except ArchiveError δ := do
  let key ← keyBytes hexKey
  env.call .getsize
  require (magic.length + nonceSize + tagSize ≤ view.size) "archive is truncated"
  env.call .openSource
  env.call .readMagic
  env.call .readNonce
  require (view.head = magic) "archive is not a GPU Monitor encrypted archive"
  env.call .seekTag
  match view.tag with
  | none => .error (.os .seekTag)
  | some tag => do
    env.call .readTag
    env.call .seekCiphertext
    match gcm.decryptor key view.nonce tag (magic ++ view.nonce) with
    | none => .error .cipher
    | some ctx => .ok ctx

/-- The loop of `decrypt_fileobj` between two passes. -/
structure Loop (δ : Type) where
  remaining : Nat
  position : Nat
  passes : Nat
  ctx : δ
  written : Bytes

/-- One pass through the loop. -/
def decryptPass (view : View) (s : Loop δ) : Except ArchiveError (Loop δ) := do
  env.call (.read s.passes)
  let chunk := view.chunk s.position (min chunkSize s.remaining)
  require (chunk ≠ []) "archive ciphertext is truncated"
  let out := gcm.decryptUpdate s.ctx chunk
  let written ← env.write s.passes out.1 s.written
  pure ⟨s.remaining - chunk.length, s.position + chunk.length, s.passes + 1, out.2, written⟩

/-- The loop; `none` if it does not end within the passes allowed. -/
def decryptLoop (view : View) (fuel : Nat) (s : Loop δ) : Option (Except ArchiveError (Loop δ)) :=
  if s.remaining = 0 then some (.ok s)
  else match fuel with
    | 0 => none
    | fuel + 1 =>
      match decryptPass gcm env view s with
      | .error e => some (.error e)
      | .ok s' => decryptLoop view fuel s'

/-- `decrypt_fileobj` after its loop. -/
def finishArchive (s : Loop δ) : Except ArchiveError Bytes :=
  match gcm.decryptFinalize s.ctx with
  | none => .error .invalidTag
  | some rest => do
    let written ← env.write s.passes rest s.written
    env.sync written

/-- `decrypt_fileobj` into a stream where `written` stands already. -/
def decryptFileobj (view : View) (hexKey : Text) (fuel : Nat) (written : Bytes) :
    Option (Except ArchiveError Bytes) :=
  match openArchive gcm env view hexKey with
  | .error e => some (.error e)
  | .ok ctx =>
    (decryptLoop gcm env view fuel
      ⟨view.ciphertextSize, magic.length + nonceSize, 0, ctx, written⟩).map fun done => done.bind (finishArchive gcm env)

/-- `decrypt_file`. -/
def decryptFile (view : View) (hexKey : Text) (fuel : Nat) (fs : Files) (destination : Text) :
    Option (Except ArchiveError Unit × Files) :=
  (decryptFileobj gcm env view hexKey fuel []).map (intoNewFile env fs destination)

end Archive

/-! ## Results up to the failure of a call -/

section Meets

variable {α β : Type} {env : Env} {P : α → Prop} {Q : β → Prop}

/-- A value with the property, or the exception of a call that fails. -/
def Meets (env : Env) (P : α → Prop) : Except ArchiveError α → Prop
  | .ok a => P a
  | .error e => ∃ call, env.fails call = true ∧ e = .os call

theorem Meets.bind {x : Except ArchiveError α} {k : α → Except ArchiveError β} (h : Meets env P x)
    (hNext : ∀ a, P a → Meets env Q (k a)) : Meets env Q (x >>= k) := by
  cases x with
  | error e => exact h
  | ok a => exact hNext a h

theorem meets_call (env : Env) (call : Call) : Meets env (fun _ => True) (env.call call) := by
  unfold Env.call
  split
  · rename_i hFails
    exact ⟨call, hFails, rfl⟩
  · trivial

theorem Meets.after_call {call : Call} {x : Except ArchiveError α} (h : Meets env P x) :
    Meets env P (env.call call >>= fun _ => x) :=
  (meets_call env call).bind fun _ _ => h

theorem meets_require {p : Prop} [Decidable p] (message : Text) (h : p) :
    Meets env (fun _ => True) (require p message) := by
  rw [require, if_pos h]
  trivial

theorem meets_write (env : Env) (k : Nat) (bytes written : Bytes) :
    Meets env (· = written ++ bytes) (env.write k bytes written) :=
  Meets.after_call rfl

theorem meets_sync (env : Env) (written : Bytes) : Meets env (· = written) (env.sync written) :=
  Meets.after_call (Meets.after_call rfl)

theorem Meets.exists_ok {x : Except ArchiveError α} (h : Meets env P x)
    (hCalls : ∀ call, env.fails call = false) : ∃ a, x = .ok a ∧ P a := by
  cases x with
  | ok a => exact ⟨a, rfl, h⟩
  | error e =>
    obtain ⟨call, hFails, -⟩ := h
    rw [hCalls] at hFails
    cases hFails

theorem require_ok {p : Prop} [Decidable p] {message : Text} {u : Unit}
    (h : require p message = .ok u) : p := by
  unfold require at h
  split at h
  · assumption
  · cases h

end Meets

/-! ## Writing an archive -/

section Encrypt

variable {ε δ : Type} {gcm : AesGcm ε δ} {env : Env}

theorem keyBytes_length {hexKey : Text} {key : Bytes} (h : keyBytes hexKey = .ok key) :
    key.length = 32 := by
  obtain ⟨-, -, h⟩ := ok_of_bind h
  split at h
  · cases h
  · obtain ⟨_, hLength, h⟩ := ok_of_bind h
    cases h
    exact require_ok hLength

theorem exists_fromHex {digits : Text} (hDigits : ∀ c ∈ digits, c ∈ hexdigits)
    (hEven : digits.length % 2 = 0) :
    ∃ bytes, fromHex digits = some bytes ∧ 2 * bytes.length = digits.length := by
  induction digits using fromHex.induct with
  | case1 => exact ⟨[], rfl, rfl⟩
  | case2 => cases hEven
  | case3 a b rest _ ih =>
    obtain ⟨bytes, hRest, hLength⟩ := ih
      (fun c hMem => hDigits c (List.mem_cons_of_mem _ (List.mem_cons_of_mem _ hMem)))
      (by simp only [List.length_cons] at hEven; omega)
    refine ⟨UInt8.ofNat (16 * hexValue a + hexValue b) :: bytes, ?_, ?_⟩
    · rw [fromHex, if_pos (by assumption), hRest]
      rfl
    · simp only [List.length_cons]
      omega
  | case4 a b rest hNot =>
    exact absurd ⟨hDigits a List.mem_cons_self,
      hDigits b (List.mem_cons_of_mem _ List.mem_cons_self)⟩ hNot

/-- The keys are the texts of 64 hexadecimal digits; the later checks refuse none of them. -/
theorem exists_keyBytes_iff {hexKey : Text} :
    (∃ key, keyBytes hexKey = .ok key) ↔ hexKey.length = 64 ∧ ∀ c ∈ hexKey, c ∈ hexdigits := by
  have hAll : (hexKey.all fun c => c ∈ hexdigits) = true ↔ ∀ c ∈ hexKey, c ∈ hexdigits := by
    simp
  rw [← hAll]
  constructor
  · rintro ⟨key, h⟩
    obtain ⟨_, hDigits, -⟩ := ok_of_bind h
    exact require_ok hDigits
  · intro hDigits
    obtain ⟨key, hKey, hLength⟩ := exists_fromHex (hAll.mp hDigits.2) (by rw [hDigits.1])
    have hSize : key.length = 32 := by
      rw [hDigits.1] at hLength
      omega
    refine ⟨key, ?_⟩
    unfold keyBytes
    rw [require, if_pos hDigits, hKey]
    change (require (key.length = 32) _ >>= fun _ => pure key) = _
    rw [require, if_pos hSize]
    rfl

theorem encryptLoop_meets (k : Nat) (ctx : ε) (chunks : List Bytes) (written : Bytes) :
    Meets env (fun done => done.1 = (feed gcm.encryptUpdate ctx chunks).2 ∧
      done.2 = written ++ (feed gcm.encryptUpdate ctx chunks).1)
      (encryptLoop gcm env k ctx chunks written) := by
  induction chunks generalizing k ctx written with
  | nil => exact Meets.after_call ⟨rfl, (List.append_nil written).symm⟩
  | cons chunk rest ih =>
    refine Meets.after_call ((meets_write env _ _ _).bind ?_)
    rintro _ rfl
    have hRest := ih (k + 1) (gcm.encryptUpdate ctx chunk).2
      (written ++ (gcm.encryptUpdate ctx chunk).1)
    rw [List.append_assoc] at hRest
    exact hRest

/-- The bytes of an archive of the data. -/
def archiveOf (gcm : AesGcm ε δ) (key nonce data : Bytes) : Bytes :=
  magic ++ nonce ++ gcm.ciphertext key nonce data ++
    gcm.tag key nonce (magic ++ nonce) (gcm.ciphertext key nonce data)

theorem encryptBody_meets (gcm : AesGcm ε δ) (env : Env) {key nonce : Bytes}
    (hKey : key.length = 32) (hNonce : nonce.length = 12) (chunks : List Bytes) :
    Meets env (· = archiveOf gcm key nonce chunks.flatten)
      (encryptBody gcm env key nonce chunks) := by
  obtain ⟨hText, hTag⟩ := gcm.encrypt_stream key nonce (magic ++ nonce) chunks hKey hNonce
  refine (meets_write env _ _ _).bind ?_
  rintro _ rfl
  refine (meets_write env _ _ _).bind ?_
  rintro _ rfl
  refine (encryptLoop_meets 0 _ chunks _).bind ?_
  rintro ⟨ctx, written⟩ ⟨rfl, rfl⟩
  refine (meets_write env _ _ _).bind ?_
  rintro _ rfl
  refine (meets_write env _ _ _).bind ?_
  rintro _ rfl
  have hBytes : [] ++ magic ++ nonce ++
        (feed gcm.encryptUpdate (gcm.encryptor key nonce (magic ++ nonce)) chunks).1 ++
        (gcm.encryptFinalize
          (feed gcm.encryptUpdate (gcm.encryptor key nonce (magic ++ nonce)) chunks).2).1 ++
        (gcm.encryptFinalize
          (feed gcm.encryptUpdate (gcm.encryptor key nonce (magic ++ nonce)) chunks).2).2 =
      archiveOf gcm key nonce chunks.flatten := by
    rw [List.append_assoc _ _ (gcm.encryptFinalize _).1, hText, hTag]
    rfl
  rw [← hBytes]
  exact meets_sync env _

end Encrypt

/-! ## Reading an archive -/

/-- A file that does not change while it is read. A read of the loop may return less than it asks
for, but not nothing before the end. -/
structure View.Shows (view : View) (file : Bytes) : Prop where
  size_eq : view.size = file.length
  head_eq : view.head = file.take magic.length
  nonce_eq : view.nonce = (file.drop magic.length).take nonceSize
  tag_eq : view.tag =
    if tagSize ≤ file.length then some (file.drop (file.length - tagSize)) else none
  chunk_eq : ∀ position asked, view.chunk position asked <+: file.drop position
  chunk_ne : ∀ position asked, 0 < asked → position < file.length → view.chunk position asked ≠ []

section Decrypt

variable {ε δ : Type} {gcm : AesGcm ε δ} {env : Env} {view : View} {file : Bytes} {s s' : Loop δ}

/-- A pass leaves less to read, whatever the file does. -/
theorem remaining_lt_of_decryptPass (hSome : s.remaining ≠ 0)
    (h : decryptPass gcm env view s = .ok s') : s'.remaining < s.remaining := by
  obtain ⟨-, -, h⟩ := ok_of_bind h
  obtain ⟨_, hChunk, h⟩ := ok_of_bind h
  obtain ⟨written, -, h⟩ := ok_of_bind h
  cases h
  have hPos := List.length_pos_of_ne_nil (require_ok hChunk)
  dsimp only
  omega

theorem decryptLoop_isSome {fuel : Nat} (hFuel : s.remaining ≤ fuel) :
    (decryptLoop gcm env view fuel s).isSome = true := by
  induction fuel generalizing s with
  | zero =>
    rw [decryptLoop, if_pos (Nat.le_zero.mp hFuel)]
    rfl
  | succ fuel ih =>
    unfold decryptLoop
    split
    · rfl
    · rename_i hSome
      dsimp only
      split
      · rfl
      · rename_i s' hPass
        have hLt := remaining_lt_of_decryptPass hSome hPass
        exact ih (by omega)

theorem decryptPass_meets (gcm : AesGcm ε δ) (env : Env) (hShows : view.Shows file)
    (hSome : s.remaining ≠ 0)
    (hFits : s.position + s.remaining ≤ file.length) :
    Meets env (fun s' => ∃ chunk, chunk ≠ [] ∧ chunk <+: file.drop s.position ∧
      s'.remaining + chunk.length = s.remaining ∧ s'.position = s.position + chunk.length ∧
      s'.ctx = (gcm.decryptUpdate s.ctx chunk).2 ∧
      s'.written = s.written ++ (gcm.decryptUpdate s.ctx chunk).1)
      (decryptPass gcm env view s) := by
  have hAsked : 0 < min chunkSize s.remaining := by
    have : 0 < chunkSize := by decide
    omega
  have hne : view.chunk s.position (min chunkSize s.remaining) ≠ [] :=
    hShows.chunk_ne _ _ hAsked (by omega)
  have hLe := view.chunk_le s.position (min chunkSize s.remaining)
  refine Meets.after_call ((meets_require _ hne).bind fun _ _ => (meets_write env _ _ _).bind ?_)
  rintro _ rfl
  refine ⟨_, hne, hShows.chunk_eq _ _, ?_, rfl, rfl, rfl⟩
  dsimp only
  omega

/-- On a file that stays as it is, the loop gives the context the ciphertext in chunks. -/
theorem decryptLoop_meets {fuel : Nat} (hShows : view.Shows file) (hFuel : s.remaining ≤ fuel)
    (hFits : s.position + s.remaining ≤ file.length) :
    ∃ result, decryptLoop gcm env view fuel s = some result ∧
      Meets env (fun s' => ∃ chunks : List Bytes,
        chunks.flatten = (file.drop s.position).take s.remaining ∧
        s'.ctx = (feed gcm.decryptUpdate s.ctx chunks).2 ∧
        s'.written = s.written ++ (feed gcm.decryptUpdate s.ctx chunks).1) result := by
  induction fuel generalizing s with
  | zero =>
    have hNone : s.remaining = 0 := Nat.le_zero.mp hFuel
    refine ⟨.ok s, by rw [decryptLoop, if_pos hNone], [], ?_, rfl, (List.append_nil _).symm⟩
    rw [hNone]
    rfl
  | succ fuel ih =>
    by_cases hNone : s.remaining = 0
    · refine ⟨.ok s, by rw [decryptLoop, if_pos hNone], [], ?_, rfl, (List.append_nil _).symm⟩
      rw [hNone]
      rfl
    have hPass := decryptPass_meets gcm env hShows hNone hFits
    rw [decryptLoop, if_neg hNone]
    cases hResult : decryptPass gcm env view s with
    | error e =>
      rw [hResult] at hPass
      exact ⟨.error e, rfl, hPass⟩
    | ok s₁ =>
      rw [hResult] at hPass
      obtain ⟨chunk, hne, hPre, hRemaining, hPosition, hCtx, hWritten⟩ := hPass
      have hPos := List.length_pos_of_ne_nil hne
      obtain ⟨result, hLoop, hMeets⟩ := ih (s := s₁) (by omega) (by omega)
      refine ⟨result, hLoop, ?_⟩
      cases result with
      | error e => exact hMeets
      | ok s₂ =>
        obtain ⟨chunks, hFlatten, hCtx₂, hWritten₂⟩ := hMeets
        refine ⟨chunk :: chunks, ?_, ?_, ?_⟩
        · have hSplit : file.drop s.position = chunk ++ file.drop s₁.position := by
            rw [hPosition, ← List.drop_drop]
            exact List.prefix_iff_eq_append.mp hPre |>.symm
          rw [List.flatten_cons, hFlatten, hSplit, ← hRemaining, Nat.add_comm,
            List.take_length_add_append]
        · rw [hCtx₂, hCtx]
          rfl
        · rw [hWritten₂, hWritten, hCtx, List.append_assoc]
          rfl

/-- A file with a magic, a nonce, a ciphertext and a tag. -/
structure Layout (file nonce text tag : Bytes) : Prop where
  file_eq : file = magic ++ nonce ++ text ++ tag
  nonce_length : nonce.length = nonceSize
  tag_length : tag.length = tagSize

theorem Layout.length {nonce text tag : Bytes} (h : Layout file nonce text tag) :
    file.length = magic.length + nonceSize + text.length + tagSize := by
  rw [h.file_eq, List.length_append, List.length_append, List.length_append, h.nonce_length,
    h.tag_length]

theorem Layout.head {nonce text tag : Bytes} (h : Layout file nonce text tag) :
    file.take magic.length = magic := by
  rw [h.file_eq, List.append_assoc, List.append_assoc, List.take_left]

theorem Layout.nonce {nonce text tag : Bytes} (h : Layout file nonce text tag) :
    (file.drop magic.length).take nonceSize = nonce := by
  rw [h.file_eq, List.append_assoc, List.append_assoc, List.drop_left, ← h.nonce_length,
    List.take_left]

theorem Layout.text {nonce text tag : Bytes} (h : Layout file nonce text tag) :
    (file.drop (magic.length + nonceSize)).take text.length = text := by
  rw [h.file_eq, List.append_assoc, ← h.nonce_length, ← List.length_append, List.drop_left,
    List.take_left]

theorem Layout.tag {nonce text tag : Bytes} (h : Layout file nonce text tag) :
    file.drop (file.length - tagSize) = tag := by
  have hLength : file.length - tagSize = (magic ++ nonce ++ text).length := by
    rw [h.length, List.length_append, List.length_append, h.nonce_length, Nat.add_sub_cancel]
  rw [hLength, h.file_eq, List.drop_left]

/-- Every file that starts with the magic and is long enough has a layout. -/
theorem exists_layout (hLength : magic.length + nonceSize + tagSize ≤ file.length)
    (hHead : file.take magic.length = magic) :
    Layout file ((file.drop magic.length).take nonceSize)
      ((file.drop (magic.length + nonceSize)).take
        (file.length - magic.length - nonceSize - tagSize))
      (file.drop (file.length - tagSize)) := by
  refine ⟨?_, ?_, ?_⟩
  · have hTag : file.drop (file.length - tagSize) =
        (file.drop (magic.length + nonceSize)).drop
          (file.length - magic.length - nonceSize - tagSize) := by
      rw [List.drop_drop]
      congr 1
      omega
    rw [hTag, List.append_assoc, List.take_append_drop, ← List.drop_drop, List.append_assoc,
      List.take_append_drop]
    conv_lhs => rw [← List.take_append_drop magic.length file, hHead]
  · rw [List.length_take, List.length_drop]
    omega
  · rw [List.length_drop]
    omega

theorem openArchive_ok {hexKey : Text} {ctx : δ} (hShows : view.Shows file)
    (h : openArchive gcm env view hexKey = .ok ctx) :
    ∃ key nonce text tag, keyBytes hexKey = .ok key ∧ Layout file nonce text tag ∧
      gcm.decryptor key nonce tag (magic ++ nonce) = some ctx := by
  obtain ⟨key, hKey, h⟩ := ok_of_bind h
  obtain ⟨-, -, h⟩ := ok_of_bind h
  obtain ⟨_, hSize, h⟩ := ok_of_bind h
  obtain ⟨-, -, h⟩ := ok_of_bind h
  obtain ⟨-, -, h⟩ := ok_of_bind h
  obtain ⟨-, -, h⟩ := ok_of_bind h
  obtain ⟨_, hHead, h⟩ := ok_of_bind h
  obtain ⟨-, -, h⟩ := ok_of_bind h
  have hLength := hShows.size_eq ▸ require_ok hSize
  have hLayout := exists_layout hLength (hShows.head_eq ▸ require_ok hHead)
  split at h
  · cases h
  rename_i tag hTag
  rw [hShows.tag_eq, if_pos (by omega)] at hTag
  obtain rfl := Option.some.inj hTag
  obtain ⟨-, -, h⟩ := ok_of_bind h
  obtain ⟨-, -, h⟩ := ok_of_bind h
  split at h
  · cases h
  · rename_i ctx' hContext
    cases h
    refine ⟨key, _, _, _, hKey, hLayout, ?_⟩
    rw [← hShows.nonce_eq]
    exact hContext

theorem openArchive_meets (gcm : AesGcm ε δ) (env : Env) {hexKey : Text}
    {key nonce text tag : Bytes} (hShows : view.Shows file) (hKey : keyBytes hexKey = .ok key)
    (hLayout : Layout file nonce text tag) :
    Meets env (fun ctx => gcm.decryptor key nonce tag (magic ++ nonce) = some ctx)
      (openArchive gcm env view hexKey) := by
  have hSize : magic.length + nonceSize + tagSize ≤ view.size := by
    rw [hShows.size_eq, hLayout.length]
    omega
  have hTag : view.tag = some tag := by
    rw [hShows.tag_eq, if_pos (by rw [hLayout.length]; omega), hLayout.tag]
  have hNonce : view.nonce = nonce := hShows.nonce_eq.trans hLayout.nonce
  obtain ⟨ctx, hContext⟩ := Option.isSome_iff_exists.mp <|
    gcm.decryptor_isSome key nonce tag (magic ++ nonce) (keyBytes_length hKey)
      hLayout.nonce_length hLayout.tag_length
  unfold openArchive
  rw [hKey, hTag, hNonce]
  refine Meets.after_call ((meets_require _ hSize).bind fun _ _ => ?_)
  refine Meets.after_call (Meets.after_call (Meets.after_call ?_))
  refine (meets_require _ (hShows.head_eq.trans hLayout.head)).bind fun _ _ => ?_
  refine Meets.after_call (Meets.after_call (Meets.after_call ?_))
  rw [hContext]
  exact rfl

/-- A file whose tag verifies for the key, the header and the ciphertext, and what it holds. -/
def Verifies (gcm : AesGcm ε δ) (key file plain : Bytes) : Prop :=
  ∃ nonce text, Layout file nonce text (gcm.tag key nonce (magic ++ nonce) text) ∧
    plain = gcm.plaintext key nonce text

theorem archiveOf_verifies {key nonce : Bytes} (hNonce : nonce.length = nonceSize) (data : Bytes) :
    Verifies gcm key (archiveOf gcm key nonce data) data :=
  ⟨nonce, gcm.ciphertext key nonce data, ⟨rfl, hNonce, gcm.tag_length _ _ _ _⟩,
    (gcm.plaintext_ciphertext key nonce data).symm⟩

/-- What the loop and the last check make of a context for the tag of the file. -/
theorem finish_spec (env : Env) {key nonce text tag written : Bytes} {ctx : δ} {fuel : Nat}
    (hShows : view.Shows file) (hFuel : view.size ≤ fuel) (hLayout : Layout file nonce text tag)
    (hContext : gcm.decryptor key nonce tag (magic ++ nonce) = some ctx) :
    ∃ result, (decryptLoop gcm env view fuel
        ⟨view.size - magic.length - nonceSize - tagSize, magic.length + nonceSize, 0, ctx,
          written⟩).map (fun done => done.bind (finishArchive gcm env)) = some result ∧
      (tag = gcm.tag key nonce (magic ++ nonce) text →
        Meets env (· = written ++ gcm.plaintext key nonce text) result) ∧
      (tag ≠ gcm.tag key nonce (magic ++ nonce) text → ∀ bytes, result ≠ .ok bytes) := by
  have hLength := hLayout.length
  have hSize := hShows.size_eq
  have hRemaining : view.size - magic.length - nonceSize - tagSize = text.length := by omega
  rw [hRemaining]
  obtain ⟨done, hLoop, hMeets⟩ := decryptLoop_meets (s := (⟨text.length,
    magic.length + nonceSize, 0, ctx, written⟩ : Loop δ)) hShows (show text.length ≤ fuel by omega)
    (show magic.length + nonceSize + text.length ≤ file.length by omega)
  rw [hLoop]
  refine ⟨_, rfl, ?_⟩
  cases done with
  | error e => exact ⟨fun _ => hMeets, fun _ _ h => nomatch h⟩
  | ok s =>
    obtain ⟨chunks, hFlatten, hCtx, hWritten⟩ := hMeets
    have hText : chunks.flatten = text := hFlatten.trans hLayout.text
    have hStream := gcm.decrypt_stream key nonce tag (magic ++ nonce) ctx chunks hContext
    rw [hText] at hStream
    change (_ → Meets env _ (finishArchive gcm env s)) ∧
      (_ → ∀ bytes, finishArchive gcm env s ≠ .ok bytes)
    unfold finishArchive
    rw [hCtx]
    cases hFinal : gcm.decryptFinalize (feed gcm.decryptUpdate ctx chunks).2 with
    | none =>
      rw [hFinal] at hStream
      exact ⟨fun hTag => absurd hTag hStream, fun _ _ h => nomatch h⟩
    | some rest =>
      rw [hFinal] at hStream
      refine ⟨fun _ => ?_, fun hTag => absurd hStream.1 hTag⟩
      refine (meets_write env _ _ _).bind ?_
      rintro _ rfl
      rw [hWritten, List.append_assoc, hStream.2]
      exact meets_sync env _

/-- A file that verifies is decrypted, unless a call fails. -/
theorem decryptFileobj_meets (env : Env) {hexKey : Text} {key plain : Bytes} {fuel : Nat}
    (written : Bytes) (hShows : view.Shows file) (hFuel : view.size ≤ fuel)
    (hKey : keyBytes hexKey = .ok key) (hFile : Verifies gcm key file plain) :
    ∃ result, decryptFileobj gcm env view hexKey fuel written = some result ∧
      Meets env (· = written ++ plain) result := by
  obtain ⟨nonce, text, hLayout, rfl⟩ := hFile
  have hOpen := openArchive_meets gcm env hShows hKey hLayout
  unfold decryptFileobj
  cases hResult : openArchive gcm env view hexKey with
  | error e =>
    rw [hResult] at hOpen
    exact ⟨.error e, rfl, hOpen⟩
  | ok ctx =>
    rw [hResult] at hOpen
    obtain ⟨result, hDone, hMeets, -⟩ := finish_spec env hShows hFuel hLayout hOpen
    exact ⟨result, hDone, hMeets rfl⟩

/-- A file that is decrypted verifies. -/
theorem verifies_of_decryptFileobj {hexKey : Text} {written bytes : Bytes} {fuel : Nat}
    (hShows : view.Shows file) (hFuel : view.size ≤ fuel)
    (h : decryptFileobj gcm env view hexKey fuel written = some (.ok bytes)) :
    ∃ key plain, keyBytes hexKey = .ok key ∧ Verifies gcm key file plain ∧
      bytes = written ++ plain := by
  unfold decryptFileobj at h
  split at h
  · cases h
  rename_i ctx hOpen
  obtain ⟨key, nonce, text, tag, hKey, hLayout, hContext⟩ := openArchive_ok hShows hOpen
  obtain ⟨result, hDone, hMeets, hRejects⟩ := finish_spec env hShows hFuel hLayout hContext
  obtain rfl := Option.some.inj (hDone.symm.trans h)
  by_cases hTag : tag = gcm.tag key nonce (magic ++ nonce) text
  · exact ⟨key, _, hKey, ⟨nonce, text, hTag ▸ hLayout, rfl⟩, hMeets hTag⟩
  · exact absurd rfl (hRejects hTag bytes)

theorem decryptFileobj_isSome (env : Env) {hexKey : Text} {fuel : Nat} (written : Bytes)
    (hFuel : view.ciphertextSize ≤ fuel) :
    (decryptFileobj gcm env view hexKey fuel written).isSome = true := by
  unfold decryptFileobj
  split
  · rfl
  · rw [Option.isSome_map]
    exact decryptLoop_isSome hFuel

end Decrypt

/-! ## Files -/

section Files

variable {ε δ : Type} {gcm : AesGcm ε δ} {env : Env} {fs fs' : Files} {destination : Text}

theorem intoNewFile_ok {body : Except ArchiveError Bytes}
    (h : intoNewFile env fs destination body = (.ok (), fs')) :
    ∃ bytes, body = .ok bytes ∧ fs' = fs.write destination bytes := by
  unfold intoNewFile at h
  split at h
  · cases h
  split at h
  · cases h
  split at h
  · rename_i bytes hBody
    split at h
    · cases h
    · obtain ⟨-, -, hBody⟩ := ok_of_bind hBody
      obtain ⟨bytes', hBody, hLeave⟩ := ok_of_bind hBody
      obtain ⟨-, -, hLeave⟩ := ok_of_bind hLeave
      cases hLeave
      cases h
      exact ⟨bytes, hBody, rfl⟩
  · split at h
    · cases h
    · split at h
      · cases h
      · cases h

theorem remove_write (bytes : Bytes) (h : fs destination = none) :
    (fs.write destination bytes).remove destination = fs := by
  unfold Files.write Files.remove
  rw [Function.update_idem, ← h, Function.update_eq_self]

/-- A run that fails leaves the files as they were, if its descriptor can be closed and its file
removed. -/
theorem intoNewFile_error {body : Except ArchiveError Bytes} {e : ArchiveError}
    (hClose : env.fails .close = false) (hUnlink : env.fails .unlink = false)
    (h : intoNewFile env fs destination body = (.error e, fs')) : fs' = fs := by
  unfold intoNewFile at h
  rw [hClose, hUnlink] at h
  split at h
  · cases h
    rfl
  rename_i hAbsent
  split at h
  · cases h
    rfl
  split at h
  · cases h
  · cases h
    exact remove_write _ (Option.not_isSome_iff_eq_none.mp hAbsent)

theorem intoNewFile_succeeds {bytes : Bytes} (hCalls : ∀ call, env.fails call = false)
    (hAbsent : fs destination = none) :
    intoNewFile env fs destination (.ok bytes) = (.ok (), fs.write destination bytes) := by
  have hCall : ∀ call, env.call call = .ok () := fun call => by
    rw [Env.call, hCalls]
    rfl
  unfold intoNewFile
  rw [hAbsent, hCalls, hCalls, hCall, hCall]
  rfl

end Files

section Main

variable {ε δ : Type} (gcm : AesGcm ε δ)

theorem archives_authenticated :
    (∀ env cut nonce fs data destination hexKey, (∀ call, env.fails call = false) →
      (hexKey.length = 64 ∧ ∀ c ∈ hexKey, c ∈ hexdigits) → fs destination = none →
      (encryptFileobj gcm env cut nonce fs data destination hexKey).1 = .ok ()) ∧
    (∀ env cut nonce fs fs' data destination hexKey,
      encryptFileobj gcm env cut nonce fs data destination hexKey = (.ok (), fs') →
      ∃ file, fs' = fs.write destination file ∧
        ∀ (env' : Env) (view : View) fuel, view.Shows file → view.size ≤ fuel →
          ∃ result, decryptFileobj gcm env' view hexKey fuel [] = some result ∧
            Meets env' (· = data) result) ∧
    (∀ env view file hexKey fuel written bytes, view.Shows file → view.size ≤ fuel →
      decryptFileobj gcm env view hexKey fuel written = some (.ok bytes) →
      ∃ key plain, keyBytes hexKey = .ok key ∧ Verifies gcm key file plain ∧
        bytes = written ++ plain) ∧
    (∀ env fs fs' e, env.fails .close = false → env.fails .unlink = false →
      (∀ cut nonce source destination hexKey,
        encryptFile gcm env cut nonce fs source destination hexKey = (.error e, fs') → fs' = fs) ∧
      ∀ view hexKey fuel destination,
        decryptFile gcm env view hexKey fuel fs destination = some (.error e, fs') → fs' = fs) ∧
    ∀ env view hexKey fuel written, view.ciphertextSize ≤ fuel →
      (decryptFileobj gcm env view hexKey fuel written).isSome = true := by
  refine ⟨?_, ?_, ?_, ?_, ?_⟩
  · intro env cut nonce fs data destination hexKey hCalls hDigits hAbsent
    obtain ⟨key, hKey⟩ := exists_keyBytes_iff.mpr hDigits
    obtain ⟨bytes, hBody, -⟩ := (encryptBody_meets gcm env (keyBytes_length hKey) nonce.2
      (cut.chunks data)).exists_ok hCalls
    rw [encryptFileobj, hKey]
    dsimp only
    rw [hBody, intoNewFile_succeeds hCalls hAbsent]
  · intro env cut nonce fs fs' data destination hexKey h
    unfold encryptFileobj at h
    split at h
    · cases h
    rename_i key hKey
    obtain ⟨file, hBody, rfl⟩ := intoNewFile_ok h
    have hMeets := encryptBody_meets gcm env (keyBytes_length hKey) nonce.2 (cut.chunks data)
    rw [hBody, cut.flatten_chunks] at hMeets
    obtain rfl : file = _ := hMeets
    refine ⟨_, rfl, fun env' view fuel hShows hFuel => ?_⟩
    exact decryptFileobj_meets env' [] hShows hFuel hKey (archiveOf_verifies nonce.2 data)
  · intro env view file hexKey fuel written bytes hShows hFuel h
    exact verifies_of_decryptFileobj hShows hFuel h
  · intro env fs fs' e hClose hUnlink
    constructor
    · intro cut nonce source destination hexKey h
      unfold encryptFile encryptFileobj at h
      split at h
      · cases h
        rfl
      · cases h
        rfl
      · split at h
        · cases h
          rfl
        · exact intoNewFile_error hClose hUnlink h
    · intro view hexKey fuel destination h
      obtain ⟨body, -, hFile⟩ := Option.map_eq_some_iff.mp h
      exact intoNewFile_error hClose hUnlink hFile
  · intro env view hexKey fuel written hFuel
    exact decryptFileobj_isSome env written hFuel

end Main

section Example

theorem feed_copy {σ : Type} (ctx : σ) (chunks : List Bytes) :
    feed (fun ctx chunk => (chunk, ctx)) ctx chunks = (chunks.flatten, ctx) := by
  induction chunks with
  | nil => rfl
  | cons chunk rest ih => rw [feed, ih, List.flatten_cons]

/-- A library that leaves the text as it is, for runs on fixed inputs. -/
def noCipher : AesGcm Unit Bytes where
  encryptor _ _ _ := ()
  encryptUpdate ctx chunk := (chunk, ctx)
  encryptFinalize _ := ([], List.replicate 16 0)
  decryptor _ _ expected _ := some expected
  decryptUpdate ctx chunk := (chunk, ctx)
  decryptFinalize expected := if expected = List.replicate 16 0 then some [] else none
  ciphertext _ _ text := text
  plaintext _ _ text := text
  tag _ _ _ _ := List.replicate 16 0
  tag_length _ _ _ _ := List.length_replicate
  plaintext_ciphertext _ _ _ := rfl
  encrypt_stream _ _ _ chunks _ _ := by
    rw [feed_copy]
    exact ⟨List.append_nil _, rfl⟩
  decryptor_isSome _ _ _ _ _ _ _ := rfl
  decrypt_stream _ _ expected _ ctx chunks h := by
    rw [feed_copy, ← Option.some.inj h]
    by_cases hTag : expected = List.replicate 16 0
    · rw [if_pos hTag]
      exact ⟨hTag, List.append_nil _⟩
    · rw [if_neg hTag]
      exact hTag

/-- Reads of one byte. -/
def byteByByte : Cut where
  chunks data := data.map fun b => [b]
  flatten_chunks data := by
    induction data with
    | nil => rfl
    | cons b rest ih => rw [List.map_cons, List.flatten_cons, ih, List.singleton_append]
  size_le data chunk hMem := by
    obtain ⟨b, -, rfl⟩ := List.mem_map.mp hMem
    exact ⟨List.cons_ne_nil _ _, (show 1 ≤ chunkSize by decide)⟩

/-- The disk is full, and the descriptor cannot be closed, or the file cannot be removed. -/
def fullDisk (call : Call) : Env where
  fails call' := call' = .write 2 ∨ call' = call
  partly := magic

def fullDiskRun (call : Call) : Except ArchiveError Unit × Files :=
  encryptFile noCipher (fullDisk call) byteByByte ⟨List.replicate 12 0, rfl⟩
    (Files.write (fun _ => none) "source" [1, 2]) "source" "archive" (List.replicate 64 'a')

theorem cleanup_skipped_by_close :
    (fullDiskRun .close).1 = .error (.os .close) ∧
      (fullDiskRun .close).2 "archive" = some magic ∧
      (fullDiskRun .unlink).1 = .error (.os .unlink) ∧
      (fullDiskRun .unlink).2 "archive" = some magic := by
  decide +kernel

end Example

end GpuMon.ArchiveCrypto

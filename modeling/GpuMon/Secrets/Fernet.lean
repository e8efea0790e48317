import GpuMon.Library.PyText

/-!
# Stored secrets (`security.py`)

A secret is stored as a token under the first key of the keyring; a token of an older key is read
with the first key that opens it. An empty secret is stored as an empty text.

* `decryptText_encryptText`: what was encrypted is decrypted again.
* `decryptText_eq_some`: a token that is decrypted holds the encoding of its text under one key
  of the keyring, and under no other.

`Fernet` stands for the cryptographic library, with what the code relies on.
-/

namespace GpuMon.Secrets

/-! ## Text and bytes -/

/-- `str.encode`. -/
def encode (t : Text) : ByteArray := (String.ofList t).toByteArray

/-- `bytes.decode`; `none` is a `UnicodeDecodeError`. -/
def decode (b : ByteArray) : Option Text := b.utf8Decode?.map Array.toList

@[simp] theorem decode_encode (t : Text) : decode (encode t) = some t := by
  change (List.utf8Encode t).utf8Decode?.map Array.toList = some t
  rw [List.utf8Decode?_utf8Encode]
  rfl

theorem encode_of_decode {b : ByteArray} {t : Text} (h : decode b = some t) : encode t = b := by
  obtain ⟨chars, hDecode, rfl⟩ := Option.map_eq_some_iff.mp h
  have hSome : b.utf8Decode?.isSome = true := by
    rw [hDecode]
    rfl
  have hGet : b.utf8Decode?.get hSome = chars := by
    simp only [hDecode, Option.get_some]
  have hEncode : (b.utf8Decode?.get hSome).toList.utf8Encode = b :=
    ByteArray.utf8Encode_get_utf8Decode?
  rw [hGet] at hEncode
  exact hEncode

/-! ## The library -/

/-- Keys, and tokens that hold some bytes; the number is what a call draws at random. A token
opens under the key that made it and under no other, and an empty token under none. -/
structure Fernet (κ : Type) where
  deriveKey : Text → κ
  encrypt : κ → Nat → ByteArray → Text
  decrypt : κ → Text → Option ByteArray
  decrypt_encrypt : ∀ key draw plain, decrypt key (encrypt key draw plain) = some plain
  decrypt_unique : ∀ {key key' token plain plain'}, decrypt key token = some plain →
    decrypt key' token = some plain' → key = key'
  decrypt_nil : ∀ key, decrypt key [] = none

section Keyring

variable {κ : Type} (f : Fernet κ)

/-- `encrypt_text` under the first key. -/
def encryptText (primary : Text) (draw : Nat) (plain : Text) : Text :=
  if plain = [] then [] else f.encrypt (f.deriveKey primary) draw (encode plain)

/-- `decrypt_text`; `none` is a `CredentialDecryptionError`. -/
def decryptText (keys : List Text) (token : Text) : Option Text :=
  if token = [] then some []
  else keys.findSome? fun secret => (f.decrypt (f.deriveKey secret) token).bind decode

variable {f}

@[simp] theorem encryptText_nil (primary : Text) (draw : Nat) : encryptText f primary draw [] = [] :=
  rfl

@[simp] theorem decryptText_nil (keys : List Text) : decryptText f keys [] = some [] := rfl

theorem encrypt_ne_nil (key : κ) (draw : Nat) (plain : ByteArray) : f.encrypt key draw plain ≠ [] := by
  intro hNil
  have hOpens := f.decrypt_encrypt key draw plain
  rw [hNil, f.decrypt_nil] at hOpens
  cases hOpens

theorem encryptText_eq_nil_iff {primary : Text} {draw : Nat} {plain : Text} :
    encryptText f primary draw plain = [] ↔ plain = [] := by
  unfold encryptText
  split
  · rename_i hNil
    exact iff_of_true rfl hNil
  · rename_i hNil
    exact iff_of_false (encrypt_ne_nil _ _ _) hNil

/-- What was encrypted under the first key is decrypted again. -/
theorem decryptText_encryptText (primary : Text) (older : List Text) (draw : Nat) (plain : Text) :
    decryptText f (primary :: older) (encryptText f primary draw plain) = some plain := by
  unfold encryptText
  split
  · rename_i hNil
    rw [hNil]
    rfl
  · unfold decryptText
    rw [if_neg (encrypt_ne_nil _ _ _), List.findSome?_cons, f.decrypt_encrypt, Option.bind_some,
      decode_encode]

/-- A token that is decrypted was made of its text under a key of the keyring. -/
theorem decryptText_eq_some {keys : List Text} {token plain : Text} (hne : token ≠ [])
    (h : decryptText f keys token = some plain) :
    ∃ secret ∈ keys, f.decrypt (f.deriveKey secret) token = some (encode plain) := by
  rw [decryptText, if_neg hne] at h
  obtain ⟨secret, hMem, hFound⟩ := List.exists_of_findSome?_eq_some h
  obtain ⟨bytes, hOpens, hDecode⟩ := Option.bind_eq_some_iff.mp hFound
  rw [encode_of_decode hDecode]
  exact ⟨secret, hMem, hOpens⟩

end Keyring

/-! ## A library that hides nothing -/

theorem takeWhile_replicate_cons {a b : Char} (hne : b ≠ a) (n : Nat) (rest : Text) :
    ((List.replicate n a ++ b :: rest).takeWhile (· == a)).length = n := by
  rw [List.takeWhile_append_of_pos fun c hMem => by
    rw [List.eq_of_mem_replicate hMem, beq_self_eq_true]]
  simp [hne]

theorem ofNat_toNat_byte (b : UInt8) : UInt8.ofNat (Char.ofNat b.toNat).toNat = b := by
  have hValid : b.toNat.isValidChar := .inl (by have := b.toNat_lt; omega)
  have hChar : (Char.ofNat b.toNat).toNat = b.toNat := by
    rw [Char.ofNat, dif_pos hValid]
    rfl
  rw [hChar, UInt8.ofNat_toNat]

/-- Tokens that spell out the length of the secret and the bytes, for runs on fixed inputs. -/
def spelledOut : Fernet Nat where
  deriveKey := List.length
  encrypt key _ plain :=
    List.replicate (key + 1) 'k' ++ '|' :: plain.data.toList.map fun b => Char.ofNat b.toNat
  decrypt key token :=
    if (token.takeWhile (· == 'k')).length = key + 1 then
      some ⟨((token.drop (key + 2)).map fun c => UInt8.ofNat c.toNat).toArray⟩
    else none
  decrypt_encrypt key draw plain := by
    have hDrop : (List.replicate (key + 1) 'k' ++ '|' :: plain.data.toList.map fun b =>
        Char.ofNat b.toNat).drop (key + 2) = plain.data.toList.map fun b => Char.ofNat b.toNat := by
      rw [List.drop_append]
      simp
    rw [if_pos (takeWhile_replicate_cons (by decide) _ _), hDrop, List.map_map]
    simp [Function.comp_def, ofNat_toNat_byte]
  decrypt_unique := by
    intro key key' token plain plain' h h'
    split at h
    · split at h'
      · omega
      · cases h'
    · cases h
  decrypt_nil key := if_neg (by simp)

end GpuMon.Secrets

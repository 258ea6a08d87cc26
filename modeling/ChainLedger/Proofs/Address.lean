import ChainLedger.Address
import ChainLedger.Proofs.Base58
import ChainLedger.Proofs.Outcome
import ChainLedger.Text.Utf8

/-!
# Addresses and their bytes

An address and its twenty-five bytes determine each other: the check of version and
checksum is made on the bytes in both directions, and base 58 adds no second text.
-/

namespace ChainLedger.Address

/-- The text of an address is read as the bytes it is the text of. -/
theorem ofRaw_of_toRaw {address : Address} {raw : RawAddress} (read : toRaw address = .ok raw) :
    ofRaw raw = .ok address := by
  rw [toRaw] at read
  split at read
  · cases read
  next bytes decoded =>
    split at read
    · cases read
    next found sized =>
      have bytesEq : bytes = found.bytes := FixedBytes.ofBytes?_eq_some_iff.mp sized
      cases checked : check found with
      | error => simp [checked, Except.map] at read
      | ok =>
        simp only [checked, Except.map, Except.ok.injEq] at read
        subst read
        rw [ofRaw, checked, ← bytesEq, Base58.encode_of_decode decoded]
        rfl

/-- Bytes that pass the check are the bytes of their text. -/
theorem toRaw_of_ofRaw {address : Address} {raw : RawAddress} (written : ofRaw raw = .ok address) :
    toRaw address = .ok raw := by
  rw [ofRaw] at written
  cases checked : check raw with
  | error => simp [checked, Except.map] at written
  | ok =>
    simp only [checked, Except.map, Except.ok.injEq] at written
    subst written
    rw [toRaw, Base58.decode_encode]
    simp [checked, Except.map]

/-- A text reads as a raw address exactly if it is what that address is written as. -/
theorem toRaw_eq_ok_iff {address : Address} {raw : RawAddress} :
    toRaw address = .ok raw ↔ ofRaw raw = .ok address :=
  ⟨ofRaw_of_toRaw, toRaw_of_ofRaw⟩

/-- A valid address is a short text. -/
theorem size_le_of_isValid {address : Address} (valid : isValid address = true) :
    Text.size address ≤ 300 := by
  unfold isValid at valid
  split at valid
  next raw read =>
    have written := ofRaw_of_toRaw read
    rcases Except.map_eq_ok_iff.mp written with ⟨-, -, rfl⟩
    have size := Base58.size_encode_le raw.bytes
    rw [raw.length_eq] at size
    exact size
  next => cases valid

/-! ## Addresses of keys and of seeds -/

theorem version_rawOf (version : UInt8) (key : Bytes) :
    Address.version (rawOf version key) = version :=
  rfl

/-- The bytes made for a key or a seed pass the check. -/
theorem check_rawOf {version : UInt8} (known : version = ordinaryVersion ∨ version = atVersion)
    (key : Bytes) : check (rawOf version key) = .ok () := by
  have body : (version :: keyHash key).length = 21 := by simp [keyHash]
  have front : (rawOf version key).bytes.take 21 = version :: keyHash key := List.take_left' body
  have back : (rawOf version key).bytes.drop 21 = checksum (version :: keyHash key) :=
    List.drop_left' body
  have either : ¬(version ≠ ordinaryVersion ∧ version ≠ atVersion) := fun other =>
    known.elim other.1 other.2
  rw [check, version_rawOf, if_neg either, front, back, if_neg fun differs => differs rfl]

theorem toRaw_ofPublicKey (key : Bytes) :
    toRaw (ofPublicKey key) = .ok (rawOf ordinaryVersion key) := by
  apply toRaw_of_ofRaw
  rw [ofRaw, check_rawOf (.inl rfl)]
  rfl

theorem toRaw_ofSeed (seed : Bytes) : toRaw (ofSeed seed) = .ok (rawOf atVersion seed) := by
  apply toRaw_of_ofRaw
  rw [ofRaw, check_rawOf (.inr rfl)]
  rfl

/-- The address of a key is a valid one of an ordinary account. -/
theorem isValid_ofPublicKey (key : Bytes) : isValid (ofPublicKey key) = true := by
  rw [isValid, toRaw_ofPublicKey]

theorem isAt_ofPublicKey (key : Bytes) : isAt (ofPublicKey key) = false := by
  rw [isAt, toRaw_ofPublicKey]
  rfl

/-- The address of a seed is a valid one of an AT. -/
theorem isValid_ofSeed (seed : Bytes) : isValid (ofSeed seed) = true := by
  rw [isValid, toRaw_ofSeed]

theorem isAt_ofSeed (seed : Bytes) : isAt (ofSeed seed) = true := by
  rw [isAt, toRaw_ofSeed]
  rfl

/-- No key has the account of an AT. -/
theorem ofPublicKey_ne_ofSeed (key seed : Bytes) : ofPublicKey key ≠ ofSeed seed := by
  intro same
  have ordinary := isAt_ofPublicKey key
  rw [same, isAt_ofSeed] at ordinary
  cases ordinary

/-! ## Two accounts

The accounts of the records by which theorems are shown to apply. Their hashes are
reckoned once, here.
-/

namespace Sample

/-- A public key. -/
def key : PublicKey := .fill 6

/-- The hash of the key. -/
def hash : Bytes :=
  [98, 155, 28, 206, 113, 229, 149, 237, 85, 60, 35, 81, 117, 45, 91, 72, 207, 182, 3, 56]

/-- The bytes of the address of the account that the key controls. -/
def accountBytes : Bytes := ordinaryVersion :: hash ++ [145, 238, 61, 199]

/-- The account that the key controls. -/
def account : Address := "QVbN9WGbczLY4rPWUxzEmipQjgr2m9dQmt"

/-- Another account. -/
def other : Address := "QjSSfvVj4hqM5PwYwjZn7UL4mZKzUCtoeR"

/-- What is reckoned for the two accounts. -/
theorem reckoned : keyHash key.bytes = hash ∧
    checksum (ordinaryVersion :: hash) = [145, 238, 61, 199] ∧
    Base58.encode accountBytes = account ∧ isValid other = true := by
  decide +kernel

theorem keyHash_key : keyHash key.bytes = hash := reckoned.1

theorem checksum_hash : checksum (ordinaryVersion :: hash) = [145, 238, 61, 199] := reckoned.2.1

theorem encode_accountBytes : Base58.encode accountBytes = account := reckoned.2.2.1

theorem ofPublicKey_key : ofPublicKey key.bytes = account := by
  have raw : (rawOf ordinaryVersion key.bytes).bytes = accountBytes := by
    simp only [rawOf, keyHash_key, checksum_hash]
    rfl
  rw [ofPublicKey, raw, encode_accountBytes]

theorem toRaw_account : toRaw account = .ok ⟨accountBytes, rfl⟩ := by
  have body : accountBytes.take 21 = ordinaryVersion :: hash := rfl
  have checked : check ⟨accountBytes, rfl⟩ = .ok () := by
    unfold check
    rw [body, checksum_hash]
    rfl
  apply toRaw_of_ofRaw
  rw [ofRaw, checked, encode_accountBytes]
  rfl

theorem isValid_account : isValid account = true := by rw [isValid, toRaw_account]

theorem isValid_other : isValid other = true := reckoned.2.2.2

end Sample

end ChainLedger.Address

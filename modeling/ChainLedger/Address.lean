import ChainLedger.Base58
import ChainLedger.Digest.Blake3
import ChainLedger.Digest.Sha2
import ChainLedger.Ed25519

/-!
# Account addresses

An address is the base-58 text of twenty-five bytes: a version byte, twenty bytes of
a hashed public key or seed, and a checksum of four bytes over both. Ordinary
accounts and automated transaction (AT) accounts have different versions.
-/

namespace ChainLedger

/-- The text that names an account. Not every text is a well-formed address. -/
abbrev Address := String

/-- The bytes of an address. -/
abbrev RawAddress := FixedBytes 25

/-- Why a text or bytes are not an address. -/
inductive AddressError
  | base58 (error : Base58.Error)
  | invalidLength (length : Nat)
  | unknownVersion (version : UInt8)
  | checksumMismatch
deriving DecidableEq

def AddressError.message : AddressError → String
  | .base58 error => "address is not valid base58: " ++ error.message
  | .invalidLength length =>
    "invalid address length: expected 25 bytes, got " ++ toString length
  | .unknownVersion version => "unknown address version byte " ++ toString version.toNat
  | .checksumMismatch => "address checksum mismatch"

namespace Address

/-- The version byte of ordinary accounts. -/
def ordinaryVersion : UInt8 := 58

/-- The version byte of AT accounts. -/
def atVersion : UInt8 := 23

/-- The checksum of a version byte and a key hash. -/
def checksum (body : Bytes) : Bytes := (Digest.doubleSha256 body).bytes.take 4

/-- The twenty bytes by which an address names a key or a seed. -/
def keyHash (key : Bytes) : Bytes := (Digest.blake3 (Digest.sha256 key).bytes).bytes.take 20

/-- The bytes of the address of a version and a key or seed. -/
def rawOf (version : UInt8) (key : Bytes) : RawAddress :=
  let body := version :: keyHash key
  ⟨body ++ checksum body, by simp [body, keyHash, checksum]⟩

/-- The address of the account that a public key controls. -/
def ofPublicKey (publicKey : Bytes) : Address := Base58.encode (rawOf ordinaryVersion publicKey).bytes

/-- The address of the AT deployed from a seed. -/
def ofSeed (seed : Bytes) : Address := Base58.encode (rawOf atVersion seed).bytes

/-! ## Addresses and their bytes -/

/-- The version byte. -/
def version (raw : RawAddress) : UInt8 := raw.bytes.headD 0

/-- Checks the version and then the checksum. -/
def check (raw : RawAddress) : Except AddressError Unit :=
  if version raw ≠ ordinaryVersion ∧ version raw ≠ atVersion then
    .error (.unknownVersion (version raw))
  else if raw.bytes.drop 21 ≠ checksum (raw.bytes.take 21) then .error .checksumMismatch
  else .ok ()

/-- The bytes of an address. -/
def toRaw (address : Address) : Except AddressError RawAddress :=
  match Base58.decode address with
  | .error error => .error (.base58 error)
  | .ok bytes =>
    match FixedBytes.ofBytes? bytes with
    | none => .error (.invalidLength bytes.length)
    | some raw => (check raw).map fun () => raw

/-- The address of the given bytes. -/
def ofRaw (raw : RawAddress) : Except AddressError Address :=
  (check raw).map fun () => Base58.encode raw.bytes

/-- A well-formed address of either kind. -/
def isValid (address : Address) : Bool :=
  match toRaw address with
  | .ok _ => true
  | .error _ => false

/-- A well-formed AT address. -/
def isAt (address : Address) : Bool :=
  match toRaw address with
  | .ok raw => version raw == atVersion
  | .error _ => false

end Address

/-- The address that a key pair controls. -/
def Ed25519.Keypair.address (k : Ed25519.Keypair) : Address := Address.ofPublicKey k.publicKey.bytes

end ChainLedger

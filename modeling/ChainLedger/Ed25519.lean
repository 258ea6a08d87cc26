import ChainLedger.Digest.Sha2
import ChainLedger.Ed25519.Curve
import ChainLedger.Hexadecimal

/-!
# Ed25519 signatures

A key pair is its thirty-two byte seed. Signing is deterministic. A signature is a
point R and a scalar S below the group order; it is accepted if the encoding of
`S B - k A` is the given encoding of R, where k hashes R, the key and the message.
Keys of small order and keys whose y coordinate is not reduced are accepted.
-/

namespace ChainLedger

/-- A public key. -/
abbrev PublicKey := FixedBytes 32

/-- A transaction signature, which is also the transaction's identifier. -/
abbrev Signature := FixedBytes 64

namespace Ed25519

/-- The order of the base point. -/
def order : Nat := 0x1000000000000000000000000000000014def9dea2f79cd65812631a5cf5d3ed

/-- The number that a hash denotes, modulo the order. -/
def scalarOf (message : Bytes) : Nat := ofLittleEndian (Digest.sha512 message).bytes % order

/-! ## Signing -/

/-- A signing key, as the seed from which it is derived. -/
structure Keypair where
  seed : FixedBytes 32
deriving DecidableEq

namespace Keypair

/-- The bit that every secret scalar has: `2²⁵⁴`. -/
def scalarBit : Nat := 0x4000000000000000000000000000000000000000000000000000000000000000

/-- The secret scalar: the first half of the hashed seed, with its three lowest bits and its
highest cleared and its second highest set. -/
def scalar (k : Keypair) : Nat :=
  let value := ofLittleEndian ((Digest.sha512 k.seed.bytes).bytes.take 32)
  value % scalarBit / 8 * 8 + scalarBit

/-- The bytes that make the nonce of each message secret: the second half of the hashed seed. -/
def nonceKey (k : Keypair) : Bytes := (Digest.sha512 k.seed.bytes).bytes.drop 32

def publicKey (k : Keypair) : PublicKey := (Point.base.times k.scalar).encode

/-- Signs a message. -/
def sign (k : Keypair) (message : Bytes) : Signature :=
  let nonce := scalarOf (k.nonceKey ++ message)
  let r := (Point.base.times nonce).encode
  let challenge := scalarOf (r.bytes ++ k.publicKey.bytes ++ message)
  let s := (nonce + challenge * k.scalar) % order
  ⟨r.bytes ++ littleEndian 32 s, by simp⟩

/-- How a key pair is shown: without its secret part. -/
def shown (k : Keypair) : String :=
  "Keypair(pub=" ++ Hexadecimal.encode k.publicKey.bytes ++ ")"

end Keypair

/-! ## Verification -/

/-- The signature is one of the message under the public key. -/
def verify (publicKey : PublicKey) (message : Bytes) (signature : Signature) : Bool :=
  let r := signature.bytes.take 32
  let s := ofLittleEndian (signature.bytes.drop 32)
  match Point.decode? publicKey with
  | none => false
  | some key =>
    let challenge := scalarOf (r ++ publicKey.bytes ++ message)
    s < order &&
      (((Point.base.times s).add (key.times challenge).neg).encode).bytes == r

/-- The bytes are a public key and a signature of the message under it. -/
def verifyBytes (publicKey message signature : Bytes) : Bool :=
  match FixedBytes.ofBytes? publicKey, FixedBytes.ofBytes? signature with
  | some publicKey, some signature => verify publicKey message signature
  | _, _ => false

end Ed25519

end ChainLedger

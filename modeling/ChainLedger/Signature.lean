import ChainLedger.Base58
import ChainLedger.Ed25519

/-!
# Signatures as text

A signature is shown in base 58, in full or cut to its first twelve characters. A
transaction that nobody signs carries a signature derived from its bytes.
-/

namespace ChainLedger.Signature

/-- The base-58 text of a signature. -/
def toBase58 (s : Signature) : String := Base58.encode s.bytes

/-- The signature that a base-58 text denotes. -/
def ofBase58? (text : String) : Option Signature :=
  match Base58.decode text with
  | .ok bytes => FixedBytes.ofBytes? bytes
  | .error _ => none

/-- The short form: the first twelve characters. -/
def shown (s : Signature) : String :=
  "Signature(" ++ String.ofList ((Base58.encodeChars s.bytes).take 12) ++ "…)"

/-- The signature of bytes that no key signs: their SHA-256 hash, twice. -/
def derive (bytes : Bytes) : Signature :=
  let hash := (Digest.sha256 bytes).bytes
  ⟨hash ++ hash, by simp [hash]⟩

end ChainLedger.Signature

import ChainLedger.Record.Wire
import ChainLedger.Transaction.Error

/-!
# Signing

A record is signed with the key of its creator over its signing bytes. Genesis
records and AT settlements have no key: a settlement carries the signature derived
from its signing bytes, and a genesis has its own whenever it is asked for.
-/

namespace ChainLedger.Record

/-- The signing bytes, with a fault as one of the transaction. -/
def messageBytes (params : ChainParams) (r : Record) : Except TransactionError Bytes :=
  (r.signingBytes params).mapError .wire

/-- Signs an unsigned record with its creator's key pair. -/
def sign (params : ChainParams) (keypair : Ed25519.Keypair) (r : Record) :
    Except TransactionError Record :=
  match r.creatorKey? with
  | none => .error (.notKeySigned r.kind)
  | some key =>
    if r.isSigned then .error (.alreadySigned r.kind)
    else if key ≠ keypair.publicKey then .error .keyMismatch
    else (r.messageBytes params).map fun message => r.withSignature (some (keypair.sign message))

/-- Gives a settlement the signature derived from its bytes; a genesis is left as it is. -/
def withDerivedSignature (params : ChainParams) (r : Record) : Except TransactionError Record :=
  match r with
  | .genesis _ => .ok r
  | .standard _ (.settleAt _) =>
    (r.unsigned.messageBytes params).map fun message =>
      r.withSignature (some (Signature.derive message))
  | .standard _ _ => .error (.notKeySigned r.kind)

/-- The signature is one of the creator over the signing bytes, or derived from them where there
is no key. A genesis always passes, an unsigned record never does. -/
def isSignatureValid (params : ChainParams) (r : Record) : Except TransactionError Bool :=
  match r with
  | .genesis _ => .ok true
  | .standard envelope action =>
    match envelope.signature with
    | none => .ok false
    | some signature =>
      (r.messageBytes params).map fun message =>
        match action.creatorKey? with
        | some key => Ed25519.verify key message signature
        | none => signature == Signature.derive message

end ChainLedger.Record

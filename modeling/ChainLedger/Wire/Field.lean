import ChainLedger.Record
import ChainLedger.Wire.Codec

/-!
# Typed fields

The fields of which wire layouts are made, each with the type of its values, its
codec and, where its size varies, its own bound. A sequence of fields describes a
stream of bytes.
-/

namespace ChainLedger

namespace Codec

/-- A recipient, an asset and an amount of twelve bytes. -/
def leg : Codec Leg :=
  (address.pair (uint64.pair assetAmount)).iso
    (fun (recipient, assetId, amount) => ⟨recipient, assetId, amount⟩)
    (fun l => (l.recipient, l.assetId, l.amount))

end Codec

/-- One typed field of a stream. -/
inductive Field
  | int32
  | int64
  | uint64
  | byte
  | bool (name : String)
  | signature
  | publicKey
  | address
  | amount
  | assetAmount
  | sized (name : String) (max : Nat)
  | text (name : String) (max : Nat)
  | count (name : String) (max : Nat)
  | leg

namespace Field

/-- What a field holds. -/
@[reducible] def Value : Field → Type
  | .int32 => Int32
  | .int64 => Int64
  | .uint64 => UInt64
  | .byte => UInt8
  | .bool _ => Bool
  | .signature => Signature
  | .publicKey => PublicKey
  | .address => Address
  | .amount => Amount
  | .assetAmount => Amount
  | .sized _ _ => Bytes
  | .text _ _ => String
  | .count _ _ => Nat
  | .leg => Leg

/-- How a field is written and read. -/
def codec : (f : Field) → Codec f.Value
  | .int32 => Codec.int32
  | .int64 => Codec.int64
  | .uint64 => Codec.uint64
  | .byte => Codec.byte
  | .bool name => Codec.bool name
  | .signature => Codec.signature
  | .publicKey => Codec.publicKey
  | .address => Codec.address
  | .amount => Codec.amount
  | .assetAmount => Codec.assetAmount
  | .sized name max => Codec.sized name max
  | .text name max => Codec.text name max
  | .count name max => Codec.length name max
  | .leg => Codec.leg

/-! ## Streams -/

/-- A field with its value. -/
abbrev Filled := (f : Field) × f.Value

/-- The bytes of a sequence of filled fields. -/
def encodeAll : List Filled → Except WireError Bytes
  | [] => .ok []
  | ⟨f, value⟩ :: rest => do
    let front ← f.codec.encode value
    let back ← encodeAll rest
    return front ++ back

/-- The fields of a sequence, read one after the other. -/
def decodeAll : List Field → Bytes → Except WireError (List Filled × Bytes)
  | [], bytes => .ok ([], bytes)
  | f :: fs, bytes => do
    let (value, rest) ← f.codec.decode bytes
    let (values, rest) ← decodeAll fs rest
    return (⟨f, value⟩ :: values, rest)

end Field

end ChainLedger

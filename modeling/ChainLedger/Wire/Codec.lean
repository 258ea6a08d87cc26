import ChainLedger.Amount
import ChainLedger.Wire.Error

/-!
# Codecs of the wire form

A codec writes a value as bytes and reads one back from the front of a byte string,
handing on the rest. A layout is written once, as a codec built from codecs, and
serves both directions. Faults are reported in the order of the fields.
-/

namespace ChainLedger

/-- Both directions of a piece of the wire form. -/
structure Codec (α : Type) where
  encode : α → Except WireError Bytes
  decode : Bytes → Except WireError (α × Bytes)

namespace Codec

variable {α β : Type}

/-! ## Combining codecs -/

/-- Two values, one after the other. -/
def pair (first : Codec α) (second : Codec β) : Codec (α × β) where
  encode v := do
    let front ← first.encode v.1
    let back ← second.encode v.2
    return front ++ back
  decode bytes := do
    let (a, rest) ← first.decode bytes
    let (b, rest) ← second.decode rest
    return ((a, b), rest)

/-- A value in another representation, either of whose conversions may fail. -/
def refine (codec : Codec α) (read : α → Except WireError β) (write : β → Except WireError α) :
    Codec β where
  encode b := do codec.encode (← write b)
  decode bytes := do
    let (a, rest) ← codec.decode bytes
    return (← read a, rest)

/-- A value in another representation. -/
def iso (codec : Codec α) (read : α → β) (write : β → α) : Codec β :=
  codec.refine (fun a => .ok (read a)) (fun b => .ok (write b))

/-- The values of a list, one after the other. -/
def encodeList (item : Codec α) : List α → Except WireError Bytes
  | [] => .ok []
  | a :: as => do
    let front ← item.encode a
    let back ← encodeList item as
    return front ++ back

/-- A given number of values, one after the other. -/
def decodeList (item : Codec α) : (count : Nat) → Bytes → Except WireError (List α × Bytes)
  | 0, bytes => .ok ([], bytes)
  | count + 1, bytes => do
    let (a, rest) ← item.decode bytes
    let (as, rest) ← decodeList item count rest
    return (a :: as, rest)

/-! ## Bytes and words -/

/-- Splits off the first `count` bytes. -/
def take (count : Nat) (bytes : Bytes) : Except WireError (Bytes × Bytes) :=
  if bytes.length < count then .error (.tooShort count bytes.length)
  else .ok (bytes.take count, bytes.drop count)

/-- Exactly `n` bytes. -/
def fixed (n : Nat) : Codec (FixedBytes n) where
  encode value := .ok value.bytes
  decode bytes :=
    if enough : n ≤ bytes.length then
      .ok (⟨bytes.take n, List.length_take_of_le enough⟩, bytes.drop n)
    else .error (.tooShort n bytes.length)

/-- A natural number in `n` bytes, most significant first. -/
def word (n : Nat) : Codec Nat :=
  (fixed n).iso (fun value => ofBigEndian value.bytes) fun value =>
    ⟨bigEndian n value, length_bigEndian ..⟩

def byte : Codec UInt8 := (word 1).iso UInt8.ofNat UInt8.toNat

def uint64 : Codec UInt64 := (word 8).iso UInt64.ofNat UInt64.toNat

def int64 : Codec Int64 := uint64.iso UInt64.toInt64 Int64.toUInt64

def int32 : Codec Int32 :=
  (word 4).iso (fun value => (UInt32.ofNat value).toInt32) fun value => value.toUInt32.toNat

/-! ## Values -/

/-- One byte, zero or one. -/
def bool (field : String) : Codec Bool :=
  byte.refine
    (fun b =>
      if b = 0 then .ok false
      else if b = 1 then .ok true
      else .error (.invalidValue field (.notBoolean b)))
    (fun value => .ok (if value then 1 else 0))

def signature : Codec Signature := fixed 64

def publicKey : Codec PublicKey := fixed 32

/-- The twenty-five bytes of a well-formed address. -/
def address : Codec Address :=
  (fixed 25).refine (fun raw => (Address.ofRaw raw).mapError .invalidAddress)
    (fun a => (Address.toRaw a).mapError .invalidAddress)

def amount : Codec Amount := int64.iso Amount.mk Amount.units

/-- The byte that extends the sign of an amount. -/
def signByte (a : Amount) : UInt8 := if a.isNegative then 0xff else 0

/-- An amount in twelve bytes: four that extend its sign, and its own eight. -/
def extended (a : Amount) : FixedBytes 12 :=
  ⟨List.replicate 4 (signByte a) ++ bigEndian 8 a.units.toUInt64.toNat, by simp⟩

/-- The amount in the last eight of twelve bytes. -/
def lowAmount (raw : FixedBytes 12) : Amount :=
  ⟨(UInt64.ofNat (ofBigEndian (raw.bytes.drop 4))).toInt64⟩

/-- Twelve bytes that extend the sign of an amount. -/
def assetAmount : Codec Amount :=
  (fixed 12).refine
    (fun raw =>
      if raw = extended (lowAmount raw) then .ok (lowAmount raw)
      else .error (.amountOutOfRange raw.bytes))
    (fun a => .ok (extended a))

/-- The largest length that four bytes can declare. -/
def maxLength : Nat := 0x7fffffff

/-- A length or count of at most `max`. -/
def length (field : String) (max : Nat) : Codec Nat :=
  int32.refine
    (fun declared =>
      if declared < 0 then .error (.invalidValue field (.negativeLength declared))
      else if declared.toInt.toNat > max then
        .error (.sizeExceeded field declared.toInt.toNat max)
      else .ok declared.toInt.toNat)
    (fun size =>
      if size > max then .error (.sizeExceeded field size max)
      else if size > maxLength then .error (.sizeExceeded field size maxLength)
      else .ok (Int32.ofNat size))

/-- At most `max` bytes, after their number. -/
def sized (field : String) (max : Nat) : Codec Bytes where
  encode value := do
    let front ← (length field max).encode value.length
    return front ++ value
  decode bytes := do
    let (size, rest) ← (length field max).decode bytes
    take size rest

/-- A text of at most `max` bytes, after their number. -/
def text (field : String) (max : Nat) : Codec String :=
  (sized field max).refine
    (fun bytes =>
      match Text.ofBytes? bytes with
      | some value => .ok value
      | none => .error (.invalidUtf8 field))
    (fun value => .ok (Text.bytesOf value))

/-- Bytes after their number, which is bounded only by what is left of the input. -/
def sizedByRest (field : String) : Codec Bytes where
  encode := (sized field maxLength).encode
  decode bytes := (sized field bytes.length).decode bytes

/-- At most `max` values, after their number, which has to pass a check when read. -/
def counted (field : String) (max : Nat) (check : Nat → Except WireError Unit) (item : Codec α) :
    Codec (List α) where
  encode values := do
    let front ← (length field max).encode values.length
    let back ← encodeList item values
    return front ++ back
  decode bytes := do
    let (count, rest) ← (length field max).decode bytes
    check count
    decodeList item count rest

/-- A value after a flag that says whether there is one. -/
def optional (flag : String) (item : Codec α) : Codec (Option α) where
  encode
    | none => (bool flag).encode false
    | some value => do
      let front ← (bool flag).encode true
      let back ← item.encode value
      return front ++ back
  decode bytes := do
    let (present, rest) ← (bool flag).decode bytes
    if present then
      let (value, rest) ← item.decode rest
      return (some value, rest)
    else return (none, rest)

/-! ## The end of the input -/

/-- Nothing is left. -/
def finish (bytes : Bytes) : Except WireError Unit :=
  if bytes.isEmpty then .ok () else .error (.trailingBytes bytes.length)

/-- What is left is a signature, or nothing. -/
def lastSignature (bytes : Bytes) : Except WireError (Option Signature) :=
  if bytes.isEmpty then .ok none
  else
    match FixedBytes.ofBytes? bytes with
    | some s => .ok (some s)
    | none =>
      if bytes.length < 64 then .error (.tooShort 64 bytes.length)
      else .error (.trailingBytes (bytes.length - 64))

/-- A signature at the end, or nothing. -/
def encodeLastSignature : Option Signature → Bytes
  | none => []
  | some s => s.bytes

end Codec

end ChainLedger

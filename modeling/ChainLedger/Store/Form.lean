import ChainLedger.Amount
import ChainLedger.Ed25519
import ChainLedger.Text.Utf8

/-!
# The form of stored values

Every value has a byte form of its own: numbers in a fixed width with the least
significant byte first, lengths and counts in eight bytes, flags in one. A value is
read from the front of a byte string, and what follows it is handed on.
-/

namespace ChainLedger

/-- Why bytes are not the form of a value. -/
inductive FormFault
  | truncated
  | notBoolean (byte : UInt8)
  | notOption (byte : UInt8)
  | invalidUtf8
  | unknownVariant (index : Nat)
  | signatureLength (length : Nat)
deriving DecidableEq

def FormFault.message : FormFault → String
  | .truncated => "io error: unexpected end of file"
  | .notBoolean byte =>
    "invalid u8 while decoding bool, expected 0 or 1, found " ++ toString byte.toNat
  | .notOption byte => "tag for enum is not valid, found " ++ toString byte.toNat
  | .invalidUtf8 => "string is not valid utf8"
  | .unknownVariant index =>
    "invalid value: integer `" ++ toString index ++ "`, expected variant index 0 <= i < 9"
  | .signatureLength length => "signature must be 64 bytes, got " ++ toString length

/-- How values of a type are stored. -/
structure Form (α : Type) where
  write : α → Bytes
  read : Bytes → Except FormFault (α × Bytes)

namespace Form

variable {α β : Type}

/-! ## Combining forms -/

/-- Two values, one after the other. -/
def pair (first : Form α) (second : Form β) : Form (α × β) where
  write v := first.write v.1 ++ second.write v.2
  read bytes := do
    let (a, rest) ← first.read bytes
    let (b, rest) ← second.read rest
    return ((a, b), rest)

/-- A value in another representation, from which it may fail to be read. -/
def refine (form : Form α) (read : α → Except FormFault β) (write : β → α) : Form β where
  write b := form.write (write b)
  read bytes := do
    let (a, rest) ← form.read bytes
    return (← read a, rest)

/-- A value in another representation. -/
def iso (form : Form α) (read : α → β) (write : β → α) : Form β :=
  form.refine (fun a => .ok (read a)) write

/-- A given number of values, one after the other. -/
def readMany (form : Form α) : (count : Nat) → Bytes → Except FormFault (List α × Bytes)
  | 0, bytes => .ok ([], bytes)
  | count + 1, bytes => do
    let (a, rest) ← form.read bytes
    let (as, rest) ← readMany form count rest
    return (a :: as, rest)

/-! ## Bytes and words -/

/-- Splits off the first `count` bytes. -/
def take (count : Nat) (bytes : Bytes) : Except FormFault (Bytes × Bytes) :=
  if bytes.length < count then .error .truncated
  else .ok (bytes.take count, bytes.drop count)

/-- Exactly `n` bytes. -/
def fixed (n : Nat) : Form (FixedBytes n) where
  write value := value.bytes
  read bytes :=
    if enough : n ≤ bytes.length then
      .ok (⟨bytes.take n, List.length_take_of_le enough⟩, bytes.drop n)
    else .error .truncated

/-- A natural number in `n` bytes, least significant first. -/
def word (n : Nat) : Form Nat :=
  (fixed n).iso (fun value => ofLittleEndian value.bytes) fun value =>
    ⟨littleEndian n value, length_littleEndian ..⟩

def byte : Form UInt8 := (word 1).iso UInt8.ofNat UInt8.toNat

def int16 : Form Int16 :=
  (word 2).iso (fun value => (UInt16.ofNat value).toInt16) fun value => value.toUInt16.toNat

def uint32 : Form UInt32 := (word 4).iso UInt32.ofNat UInt32.toNat

def int32 : Form Int32 := uint32.iso UInt32.toInt32 Int32.toUInt32

def uint64 : Form UInt64 := (word 8).iso UInt64.ofNat UInt64.toNat

def int64 : Form Int64 := uint64.iso UInt64.toInt64 Int64.toUInt64

/-! ## Values -/

/-- One byte, zero or one. -/
def bool : Form Bool :=
  byte.refine
    (fun b =>
      if b = 0 then .ok false
      else if b = 1 then .ok true
      else .error (.notBoolean b))
    (fun value => if value then 1 else 0)

/-- A value after a byte that says whether there is one. -/
def option (form : Form α) : Form (Option α) where
  write
    | none => byte.write 0
    | some value => byte.write 1 ++ form.write value
  read bytes := do
    let (flag, rest) ← byte.read bytes
    if flag = 0 then return (none, rest)
    else if flag = 1 then
      let (value, rest) ← form.read rest
      return (some value, rest)
    else .error (.notOption flag)

/-- A length or a count. -/
def length : Form Nat := word 8

/-- Values after their number. -/
def list (form : Form α) : Form (List α) where
  write values := length.write values.length ++ values.flatMap form.write
  read bytes := do
    let (count, rest) ← length.read bytes
    readMany form count rest

/-- Bytes after their number. -/
def bytes : Form Bytes where
  write value := length.write value.length ++ value
  read input := do
    let (size, rest) ← length.read input
    take size rest

/-- A text, as its bytes. -/
def text : Form String :=
  bytes.refine
    (fun value =>
      match Text.ofBytes? value with
      | some text => .ok text
      | none => .error .invalidUtf8)
    Text.bytesOf

def publicKey : Form PublicKey := fixed 32

/-- A signature, as bytes after their number. -/
def signature : Form Signature :=
  bytes.refine
    (fun value =>
      match FixedBytes.ofBytes? value with
      | some s => .ok s
      | none => .error (.signatureLength value.length))
    FixedBytes.bytes

def amount : Form Amount := int64.iso Amount.mk Amount.units

end Form

end ChainLedger

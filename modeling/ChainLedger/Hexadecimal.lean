import ChainLedger.Bytes
import ChainLedger.Text.Quoted
import ChainLedger.Text.Utf8

/-!
# Bytes as hexadecimal text

Bytes are written as two lower-case digits each. Digits of either case are read;
an odd number of them is reported before any character that is no digit. Positions
count the bytes of the text, and a byte above 127 is named as the character with
that number.
-/

namespace ChainLedger.Hexadecimal

/-- The two digits of a byte. -/
def digitsOf (b : UInt8) : List Char :=
  [Nat.digitChar (b.toNat / 16), Nat.digitChar (b.toNat % 16)]

/-- The lower-case digits of a byte string. -/
def encode (bytes : Bytes) : String := String.ofList (bytes.flatMap digitsOf)

/-- Why a text is not a byte string in hexadecimal. -/
inductive Error
  | oddLength
  | invalidCharacter (character : Char) (position : Nat)
deriving DecidableEq

def Error.message : Error → String
  | .oddLength => "Odd number of digits"
  | .invalidCharacter c position =>
    "Invalid character " ++ Text.quotedChar c ++ " at position " ++ toString position

/-- The value of a digit, given as its byte. -/
def digitValue (b : UInt8) (position : Nat) : Except Error UInt8 :=
  if 48 ≤ b && b ≤ 57 then .ok (b - 48)
  else if 97 ≤ b && b ≤ 102 then .ok (b - 87)
  else if 65 ≤ b && b ≤ 70 then .ok (b - 55)
  else .error (.invalidCharacter (Char.ofNat b.toNat) position)

/-- Reads pairs of digits from the given position on. -/
def decodeFrom : (position : Nat) → (digits : Bytes) → Except Error Bytes
  | _, [] => .ok []
  | _, [_] => .error .oddLength
  | position, high :: low :: rest => do
    let high ← digitValue high position
    let low ← digitValue low (position + 1)
    let bytes ← decodeFrom (position + 2) rest
    return (16 * high + low) :: bytes

/-- The byte string that a text denotes. -/
def decode (text : String) : Except Error Bytes :=
  let digits := Text.bytesOf text
  if digits.length % 2 = 1 then .error .oddLength else decodeFrom 0 digits

end ChainLedger.Hexadecimal

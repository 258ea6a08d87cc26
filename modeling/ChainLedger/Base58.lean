import ChainLedger.Bytes
import ChainLedger.Text.Quoted

/-!
# Base 58

A byte string is written as the base-58 digits of the number it denotes, most
significant first, after one zero digit for each zero byte at its start. The
alphabet leaves out the letters and digits that look alike.
-/

namespace ChainLedger.Base58

def alphabet : List Char :=
  "123456789ABCDEFGHJKLMNPQRSTUVWXYZabcdefghijkmnopqrstuvwxyz".toList

/-! ## Digits of a number -/

/-- The digits of `n` in the given base, least significant first; none for zero. -/
def digits (base n : Nat) : List Nat :=
  if h : n = 0 ∨ base < 2 then []
  else
    have := Nat.div_lt_self (Nat.pos_of_ne_zero (not_or.mp h).1) (Nat.not_lt.mp (not_or.mp h).2)
    n % base :: digits base (n / base)
termination_by n

/-- The number with these digits, least significant first. -/
def ofDigits (base : Nat) (digits : List Nat) : Nat :=
  digits.foldr (fun digit value => digit + base * value) 0

/-! ## Writing -/

/-- The character of a digit. -/
def digitChar (digit : Nat) : Char := alphabet.getD digit '1'

/-- The characters of a byte string. -/
def encodeChars (bytes : Bytes) : List Char :=
  List.replicate (bytes.takeWhile (· == 0)).length '1' ++
    ((digits 58 (ofBigEndian bytes)).map digitChar).reverse

def encode (bytes : Bytes) : String := String.ofList (encodeChars bytes)

/-! ## Reading -/

/-- Why a text is not base 58: its first character outside the alphabet. -/
inductive Error
  | nonAscii (position : Nat)
  | invalidCharacter (character : Char) (position : Nat)
deriving DecidableEq

def Error.message : Error → String
  | .nonAscii position =>
    "provided string contained non-ascii character starting at byte " ++ toString position
  | .invalidCharacter c position =>
    "provided string contained invalid character " ++ Text.quotedChar c ++ " at byte " ++
      toString position

/-- The values of the characters, the first of which has the given position. -/
def valuesFrom : (position : Nat) → (chars : List Char) → Except Error (List Nat)
  | _, [] => .ok []
  | position, c :: rest =>
    if c.toNat > 127 then .error (.nonAscii position)
    else
      match alphabet.idxOf? c with
      | none => .error (.invalidCharacter c position)
      | some value => (valuesFrom (position + 1) rest).map (value :: ·)

/-- The byte string with the given digits, most significant first. -/
def ofValues (values : List Nat) : Bytes :=
  List.replicate (values.takeWhile (· == 0)).length 0 ++
    ((digits 256 (ofDigits 58 values.reverse)).map UInt8.ofNat).reverse

/-- The byte string that a text denotes. -/
def decode (text : String) : Except Error Bytes := (valuesFrom 0 text.toList).map ofValues

end ChainLedger.Base58

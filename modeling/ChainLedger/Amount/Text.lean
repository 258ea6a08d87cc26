import ChainLedger.Amount
import ChainLedger.Text.Quoted
import ChainLedger.Text.WhiteSpace

/-!
# Amounts as decimal text

An amount is printed with exactly eight fractional digits. It is read from an
optional minus sign, digits, and optionally a point and more digits; trailing zeros
of the fraction carry no precision, and the magnitude has to fit the positive half
of the 64-bit range. The three faults of a text that is not empty quote the text
without the white space around it.
-/

namespace ChainLedger

/-- Fractional digits of an amount. -/
def amountDecimals : Nat := 8

/-- Why a text is not an amount. -/
inductive AmountError
  | empty
  | invalidDigit (text : String)
  | tooPrecise (text : String)
  | outOfRange (text : String)
deriving DecidableEq

def AmountError.message : AmountError → String
  | .empty => "empty amount"
  | .invalidDigit text => "invalid digit in amount " ++ Text.quoted text
  | .tooPrecise text =>
    "amount " ++ Text.quoted text ++ " has more than " ++ toString amountDecimals ++
      " fractional digits"
  | .outOfRange text => "amount " ++ Text.quoted text ++ " is out of range"

/-! ## Decimal digits -/

/-- The last `width` decimal digits of `value`. -/
def lastDigits : (width value : Nat) → List Char
  | 0, _ => []
  | width + 1, value => lastDigits width (value / 10) ++ [Nat.digitChar (value % 10)]

/-- The value of a decimal digit. -/
def digitValue (c : Char) : Nat := c.toNat - '0'.toNat

/-- The number that decimal digits denote. -/
def ofDigits (digits : List Char) : Nat :=
  digits.foldl (fun value c => 10 * value + digitValue c) 0

/-- The digits without the zeros at their end. -/
def withoutTrailingZeros (digits : List Char) : List Char :=
  (digits.reverse.dropWhile (· == '0')).reverse

/-- The digits before the first point, and those after it. -/
def splitAtPoint : (chars : List Char) → List Char × List Char
  | [] => ([], [])
  | '.' :: rest => ([], rest)
  | c :: rest =>
    let (whole, fraction) := splitAtPoint rest
    (c :: whole, fraction)

namespace Amount

/-! ## Printing -/

/-- The characters of an amount: sign, whole coins, point and eight digits. -/
def toChars (a : Amount) : List Char :=
  let magnitude := a.toInt.natAbs
  let perCoin := Nat.pow 10 amountDecimals
  (if a.isNegative then ['-'] else []) ++ Nat.toDigits 10 (magnitude / perCoin) ++
    '.' :: lastDigits amountDecimals (magnitude % perCoin)

def toText (a : Amount) : String := String.ofList a.toChars

/-! ## Reading -/

/-- Units of a text's digits, its fraction already without trailing zeros. -/
def unitsOf (whole fraction : List Char) : Nat :=
  ofDigits whole * Nat.pow 10 amountDecimals +
    ofDigits fraction * Nat.pow 10 (amountDecimals - fraction.length)

/-- Reads an amount from characters without white space around them. -/
def ofTrimmed (chars : List Char) : Except AmountError Amount :=
  let text := String.ofList chars
  let (negative, digits) :=
    match chars with
    | '-' :: rest => (true, rest)
    | _ => (false, chars)
  let (whole, fraction) := splitAtPoint digits
  let fractionDigits := withoutTrailingZeros fraction
  if whole.isEmpty && fraction.isEmpty then .error .empty
  else if !(whole.all Char.isDigit && fraction.all Char.isDigit) then .error (.invalidDigit text)
  else if fractionDigits.length > amountDecimals then .error (.tooPrecise text)
  else
    match ofInt? (unitsOf whole fractionDigits) with
    | none => .error (.outOfRange text)
    | some magnitude => .ok (if negative then -magnitude else magnitude)

/-- Reads an amount from a text, white space at its ends aside. -/
def ofText (text : String) : Except AmountError Amount := ofTrimmed (Text.trimmed text.toList)

end Amount

end ChainLedger

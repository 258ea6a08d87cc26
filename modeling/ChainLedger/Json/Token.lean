/-!
# Tokens of JSON text

A number is kept as it is written. A text is given by its characters, if its escapes
of surrogates come in pairs.
-/

namespace ChainLedger.Json

inductive Token
  | openList
  | closeList
  | openObject
  | closeObject
  | comma
  | colon
  | null
  | bool (b : Bool)
  | number (written : List Char)
  | text (value : Option String)

/-! ## Texts -/

/-- What a text is made of. -/
inductive Piece
  | char (c : Char)
  | surrogate (unit : Nat)

/-- The value of a hexadecimal digit. -/
def hexValue? (c : Char) : Option Nat :=
  if c.isDigit then some (c.toNat - 48)
  else if 'a' ≤ c && c ≤ 'f' then some (c.toNat - 87)
  else if 'A' ≤ c && c ≤ 'F' then some (c.toNat - 55)
  else none

/-- The number of four hexadecimal digits. -/
def unitOf? (digits : List Char) : Option Nat :=
  (digits.mapM hexValue?).map fun values => values.foldl (fun n value => 16 * n + value) 0

/-- The character that a letter after a backslash stands for. -/
def escape? (c : Char) : Option Char :=
  match c with
  | '"' => some '"'
  | '\\' => some '\\'
  | '/' => some '/'
  | 'b' => some '\x08'
  | 'f' => some '\x0c'
  | 'n' => some '\n'
  | 'r' => some '\r'
  | 't' => some '\t'
  | _ => none

/-- The piece that a unit of UTF-16 is. -/
def pieceOf (unit : Nat) : Piece :=
  if 0xd800 ≤ unit && unit ≤ 0xdfff then .surrogate unit else .char (Char.ofNat unit)

/-- The pieces of a text up to its closing quote, and what follows it. -/
def scanText : List Char → Option (List Piece × List Char)
  | [] => none
  | '"' :: rest => some ([], rest)
  | '\\' :: 'u' :: a :: b :: c :: d :: rest => do
    let unit ← unitOf? [a, b, c, d]
    let (pieces, rest) ← scanText rest
    return (pieceOf unit :: pieces, rest)
  | '\\' :: c :: rest => do
    let char ← escape? c
    let (pieces, rest) ← scanText rest
    return (.char char :: pieces, rest)
  | c :: rest =>
    if c = '\\' || c.toNat < 0x20 then none
    else do
      let (pieces, rest) ← scanText rest
      return (.char c :: pieces, rest)

/-- The characters of a text, if each high surrogate is followed by a low one. -/
def joinPieces : List Piece → Option (List Char)
  | [] => some []
  | .char c :: rest => (joinPieces rest).map (c :: ·)
  | .surrogate high :: .surrogate low :: rest =>
    if high < 0xdc00 && 0xdc00 ≤ low then
      (joinPieces rest).map (Char.ofNat (0x10000 + (high - 0xd800) * 0x400 + (low - 0xdc00)) :: ·)
    else none
  | .surrogate _ :: _ => none

/-! ## Numbers -/

/-- One or more digits, and what follows them. -/
def scanDigits? (chars : List Char) : Option (List Char × List Char) :=
  let digits := chars.takeWhile Char.isDigit
  if digits.isEmpty then none else some (digits, chars.dropWhile Char.isDigit)

/-- Digits without a needless zero in front. -/
def scanWhole? : List Char → Option (List Char × List Char)
  | '0' :: rest => some (['0'], rest)
  | chars => scanDigits? chars

/-- A point and digits, if there is a point. -/
def scanFraction? : List Char → Option (List Char × List Char)
  | '.' :: rest => (scanDigits? rest).map fun (digits, rest) => ('.' :: digits, rest)
  | chars => some ([], chars)

/-- An exponent, if there is one. -/
def scanExponent? : List Char → Option (List Char × List Char)
  | e :: rest =>
    if e = 'e' || e = 'E' then
      match rest with
      | '+' :: rest => (scanDigits? rest).map fun (digits, rest) => (e :: '+' :: digits, rest)
      | '-' :: rest => (scanDigits? rest).map fun (digits, rest) => (e :: '-' :: digits, rest)
      | _ => (scanDigits? rest).map fun (digits, rest) => (e :: digits, rest)
    else some ([], e :: rest)
  | [] => some ([], [])

/-- A number and what follows it. -/
def scanNumber? (chars : List Char) : Option (List Char × List Char) := do
  let (sign, rest) := match chars with
    | '-' :: rest => (['-'], rest)
    | _ => ([], chars)
  let (whole, rest) ← scanWhole? rest
  let (fraction, rest) ← scanFraction? rest
  let (exponent, rest) ← scanExponent? rest
  return (sign ++ whole ++ fraction ++ exponent, rest)

/-! ## Token lists -/

/-- White space between tokens. -/
def isBlank (c : Char) : Bool := c = ' ' || c = '\n' || c = '\t' || c = '\r'

/-- The token at the front of characters that begin with no white space, and what follows it. -/
def scanToken : List Char → Option (Token × List Char)
  | [] => none
  | '[' :: rest => some (.openList, rest)
  | ']' :: rest => some (.closeList, rest)
  | '\x7b' :: rest => some (.openObject, rest)
  | '\x7d' :: rest => some (.closeObject, rest)
  | ',' :: rest => some (.comma, rest)
  | ':' :: rest => some (.colon, rest)
  | 'n' :: 'u' :: 'l' :: 'l' :: rest => some (.null, rest)
  | 't' :: 'r' :: 'u' :: 'e' :: rest => some (.bool true, rest)
  | 'f' :: 'a' :: 'l' :: 's' :: 'e' :: rest => some (.bool false, rest)
  | '"' :: rest =>
    (scanText rest).map fun (pieces, rest) =>
      (.text ((joinPieces pieces).map String.ofList), rest)
  | chars => (scanNumber? chars).map fun (written, rest) => (.number written, rest)

/-- At most so many tokens, if nothing but white space follows them. -/
def tokensWithin : (limit : Nat) → List Char → Option (List Token)
  | limit, chars =>
    match chars.dropWhile isBlank, limit with
    | [], _ => some []
    | _, 0 => none
    | front, limit + 1 => do
      let (token, rest) ← scanToken front
      let tokens ← tokensWithin limit rest
      return token :: tokens

/-- The tokens of a text. Each one takes a character, so that there are no more of them. -/
def tokens? (text : String) : Option (List Token) := tokensWithin text.length text.toList

end ChainLedger.Json

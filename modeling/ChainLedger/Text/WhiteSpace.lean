/-!
# White space and lines

White space is the Unicode property `White_Space`: twenty-five characters. A text
is trimmed of it at both ends. Lines are separated by a line feed; a text that
ends in one has no further line after it.
-/

namespace ChainLedger.Text

/-- The Unicode property `White_Space`. -/
def isWhiteSpace (c : Char) : Bool :=
  (0x9 ≤ c.toNat && c.toNat ≤ 0xd) || c.toNat == 0x20 || c.toNat == 0x85 || c.toNat == 0xa0 ||
    c.toNat == 0x1680 || (0x2000 ≤ c.toNat && c.toNat ≤ 0x200a) || c.toNat == 0x2028 ||
    c.toNat == 0x2029 || c.toNat == 0x202f || c.toNat == 0x205f || c.toNat == 0x3000

/-- The characters without the white space at either end. -/
def trimmed (chars : List Char) : List Char :=
  ((chars.dropWhile isWhiteSpace).reverse.dropWhile isWhiteSpace).reverse

/-- The text without the white space at either end. -/
def trim (text : String) : String := String.ofList (trimmed text.toList)

/-- The lines of a text, without their line feeds. -/
def linesOf : (chars : List Char) → List (List Char)
  | [] => []
  | '\n' :: rest => [] :: linesOf rest
  | c :: rest =>
    match linesOf rest with
    | [] => [[c]]
    | line :: lines => (c :: line) :: lines

end ChainLedger.Text

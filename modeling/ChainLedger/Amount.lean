/-!
# Amounts

Balances, fees and payments are exact decimals with eight fractional digits, held as
a 64-bit signed count of the smallest unit. The plain operations wrap around at the
ends of that range; the checked ones give no result there.
-/

namespace ChainLedger

/-- Units in one whole coin. -/
def unitsPerCoin : Int64 := 100000000

/-- An exact amount, as a count of 10⁻⁸ coins. -/
structure Amount where
  units : Int64
deriving DecidableEq

namespace Amount

/-- No units. -/
def zero : Amount := ⟨0⟩

/-- A number of whole coins. -/
def ofCoins (coins : Int64) : Amount := ⟨coins * unitsPerCoin⟩

/-- The count of units as an integer. -/
def toInt (a : Amount) : Int := a.units.toInt

/-- The amount of `n` units, if 64 bits hold it. -/
def ofInt? (n : Int) : Option Amount :=
  if Int64.minValue.toInt ≤ n ∧ n ≤ Int64.maxValue.toInt then some ⟨Int64.ofInt n⟩ else none

def isNegative (a : Amount) : Bool := a.units < 0

def isPositive (a : Amount) : Bool := a.units > 0

/-- A whole number of coins. -/
def isIntegral (a : Amount) : Bool := a.units % unitsPerCoin == 0

/-! ## Arithmetic -/

instance : Add Amount := ⟨fun a b => ⟨a.units + b.units⟩⟩
instance : Sub Amount := ⟨fun a b => ⟨a.units - b.units⟩⟩
instance : Neg Amount := ⟨fun a => ⟨-a.units⟩⟩

instance : LE Amount := ⟨fun a b => a.units ≤ b.units⟩
instance : LT Amount := ⟨fun a b => a.units < b.units⟩

instance (a b : Amount) : Decidable (a ≤ b) := inferInstanceAs (Decidable (a.units ≤ b.units))
instance (a b : Amount) : Decidable (a < b) := inferInstanceAs (Decidable (a.units < b.units))

instance : Ord Amount := ⟨fun a b => compare a.units b.units⟩

/-- The sum, if 64 bits hold it. -/
def checkedAdd (a b : Amount) : Option Amount := ofInt? (a.toInt + b.toInt)

/-- The difference, if 64 bits hold it. -/
def checkedSub (a b : Amount) : Option Amount := ofInt? (a.toInt - b.toInt)

/-- The sum of a list of amounts. -/
def sum (amounts : List Amount) : Amount := amounts.foldl (· + ·) zero

end Amount

end ChainLedger

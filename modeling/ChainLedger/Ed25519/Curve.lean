import ChainLedger.Bytes

/-!
# The twisted Edwards curve of Ed25519

Points of `-x² + y² = 1 + d x² y²` over the integers modulo `2²⁵⁵ - 19`, in extended
coordinates. One addition law serves for all pairs of points. A point is written as
its y coordinate, least significant byte first, with the parity of x in the top bit.
-/

namespace ChainLedger.Ed25519

/-! ## The field -/

/-- The order of the field: `2²⁵⁵ - 19`. -/
def prime : Nat := 0x7fffffffffffffffffffffffffffffffffffffffffffffffffffffffffffffed

instance : @NeZero Nat Zero.ofOfNat0 prime := ⟨by decide⟩

/-- Integers modulo the prime. -/
abbrev Field := Fin prime

/-- A power, by repeated squaring. -/
def power (base : Field) (exponent : Nat) : Field :=
  if exponent = 0 then 1
  else
    let rest := power (base * base) (exponent / 2)
    if exponent % 2 = 1 then base * rest else rest
termination_by exponent
decreasing_by omega

/-- The multiplicative inverse; zero for zero. -/
def inverse (a : Field) : Field := power a (prime - 2)

/-- A square root of -1. -/
def sqrtMinusOne : Field := power 2 ((prime - 1) / 4)

/-- A square root of `u / v`, if there is one. -/
def sqrtRatio? (u v : Field) : Option Field :=
  let v3 := v * v * v
  let root := u * v3 * power (u * v3 * v3 * v) ((prime - 5) / 8)
  let check := v * root * root
  if check = u then some root
  else if check = -u then some (root * sqrtMinusOne)
  else none

/-! ## Points -/

/-- The constant of the curve equation. -/
def d : Field := -(121665 * inverse 121666)

/-- A point in extended coordinates: `x = X / Z`, `y = Y / Z`, `x y = T / Z`. -/
structure Point where
  x : Field
  y : Field
  z : Field
  t : Field

namespace Point

/-- The neutral element. -/
def identity : Point := ⟨0, 1, 1, 0⟩

/-- The sum of two points. -/
def add (p q : Point) : Point :=
  let a := (p.y - p.x) * (q.y - q.x)
  let b := (p.y + p.x) * (q.y + q.x)
  let c := 2 * d * p.t * q.t
  let e := 2 * p.z * q.z
  ⟨(b - a) * (e - c), (e + c) * (b + a), (e - c) * (e + c), (b - a) * (b + a)⟩

/-- The opposite point. -/
def neg (p : Point) : Point := ⟨-p.x, p.y, p.z, -p.t⟩

/-- A point added to itself a number of times, by repeated doubling. -/
def times (n : Nat) (p : Point) : Point :=
  if n = 0 then identity
  else
    let rest := times (n / 2) (p.add p)
    if n % 2 = 1 then p.add rest else rest
termination_by n
decreasing_by omega

/-- The point with the given y coordinate and parity of x, if there is one. Where x is
zero, either parity names it. -/
def ofY? (y : Field) (odd : Bool) : Option Point := do
  let x ← sqrtRatio? (y * y - 1) (d * y * y + 1)
  let x := if (x.val % 2 == 1) == odd then x else -x
  return ⟨x, y, 1, x * y⟩

/-- The base point, of y coordinate `4 / 5` and even x. -/
def base : Point := (ofY? (4 * inverse 5) false).getD identity

/-! ## Points as bytes -/

/-- The value of the top bit of thirty-two bytes: `2²⁵⁵`. -/
def topBit : Nat := 0x8000000000000000000000000000000000000000000000000000000000000000

/-- The thirty-two bytes of a point. -/
def encode (p : Point) : FixedBytes 32 :=
  let zInverse := inverse p.z
  let x := p.x * zInverse
  let y := p.y * zInverse
  ⟨littleEndian 32 (y.val + x.val % 2 * topBit), length_littleEndian ..⟩

/-- The point that bytes denote; a y coordinate of the prime or more is reduced. -/
def decode? (bytes : FixedBytes 32) : Option Point :=
  let value := ofLittleEndian bytes.bytes
  ofY? (Fin.ofNat prime (value % topBit)) (value / topBit == 1)

end Point

end ChainLedger.Ed25519

import ChainLedger.Amount

/-!
# Arithmetic of amounts

The plain operations on amounts wrap around at the ends of the 64-bit range. Taking and
giving back the same amount makes no difference all the same. Where an operation stays
in the range it is exact: it gives the amount that the operation on integers gives.
-/

namespace ChainLedger.Amount

@[ext] theorem ext {a b : Amount} (units : a.units = b.units) : a = b := by
  cases a; cases b; simp_all

/-- What is taken away and given back makes no difference, even where it wraps around. -/
@[simp] theorem add_neg_add (a b : Amount) : a + -b + b = a := by
  apply ext
  change a.units + -b.units + b.units = a.units
  grind

@[simp] theorem add_add_neg (a b : Amount) : a + b + -b = a := by
  apply ext
  change a.units + b.units + -b.units = a.units
  grind

/-- In which order amounts are added makes no difference, even where a sum wraps around. -/
theorem add_right_comm (a b c : Amount) : a + b + c = a + c + b := by
  apply ext
  change a.units + b.units + c.units = a.units + c.units + b.units
  grind

/-! ## Exact operations -/

/-- The largest amount, in units. -/
def largest : Int := Int64.maxValue.toInt

/-- The sum does not wrap around. -/
def AddsExactly (a b : Amount) : Prop := (a + b).toInt = a.toInt + b.toInt

/-- The negation does not wrap around. -/
def NegatesExactly (a : Amount) : Prop := (-a).toInt = -a.toInt

theorem toInt_le_largest (a : Amount) : a.toInt ≤ largest := Int64.toInt_le a.units

@[simp] theorem toInt_zero : zero.toInt = 0 := rfl

theorem isPositive_iff {a : Amount} : a.isPositive = true ↔ 0 < a.toInt := by
  have order := Int64.lt_iff_toInt_lt (x := 0) (y := a.units)
  simpa [isPositive, toInt] using order

theorem isNegative_iff {a : Amount} : a.isNegative = true ↔ a.toInt < 0 := by
  have order := Int64.lt_iff_toInt_lt (x := a.units) (y := 0)
  simpa [isNegative, toInt] using order

theorem isNegative_eq_false_iff {a : Amount} : a.isNegative = false ↔ 0 ≤ a.toInt := by
  have order := Int64.le_iff_toInt_le (x := 0) (y := a.units)
  simpa [isNegative, toInt] using order

/-- Units between zero and the largest amount are those of an amount. -/
theorem isSome_ofInt? {n : Int} (low : 0 ≤ n) (high : n ≤ largest) :
    (ofInt? n).isSome = true := by
  have least : Int64.minValue.toInt ≤ 0 := by decide
  rw [ofInt?, if_pos ⟨Int.le_trans least low, high⟩]
  rfl

/-- A sum no further from zero than the largest amount is exact. -/
theorem addsExactly_of_within {a b : Amount} (low : -largest ≤ a.toInt + b.toInt)
    (high : a.toInt + b.toInt ≤ largest) : a.AddsExactly b := by
  have bound : largest = 2 ^ 63 - 1 := rfl
  change (a.units + b.units).toInt = a.units.toInt + b.units.toInt
  change -largest ≤ a.units.toInt + b.units.toInt at low
  change a.units.toInt + b.units.toInt ≤ largest at high
  rw [Int64.toInt_add]
  apply Int.bmod_eq_of_le <;> omega

/-- A sum between zero and the largest amount is exact. -/
theorem addsExactly_of_range {a b : Amount} (low : 0 ≤ a.toInt + b.toInt)
    (high : a.toInt + b.toInt ≤ largest) : a.AddsExactly b :=
  addsExactly_of_within (by omega) high

/-- What is not negative can be negated. -/
theorem negatesExactly_of_nonneg {a : Amount} (nonneg : 0 ≤ a.toInt) : a.NegatesExactly := by
  have bound := Int64.toInt_lt a.units
  change (-a.units).toInt = -a.units.toInt
  change 0 ≤ a.units.toInt at nonneg
  rw [Int64.toInt_neg]
  apply Int.bmod_eq_of_le <;> omega

/-- What is covered can be taken away. -/
theorem addsExactly_neg {a b : Amount} (nonneg : 0 ≤ b.toInt) (covered : b.toInt ≤ a.toInt) :
    a.AddsExactly (-b) := by
  have negated : (-b).toInt = -b.toInt := negatesExactly_of_nonneg nonneg
  have most := a.toInt_le_largest
  apply addsExactly_of_range <;> rw [negated] <;> omega

/-! ## Checked operations -/

/-- A number of units is that of an amount if 64 bits hold it, and of no other amount. -/
theorem ofInt?_eq_some_iff {n : Int} {a : Amount} : ofInt? n = some a ↔ a.toInt = n := by
  constructor
  · intro found
    unfold ofInt? at found
    split at found
    next within =>
      cases found
      exact Int64.toInt_ofInt_of_le within.1 (Int.lt_add_one_of_le within.2)
    next => cases found
  · rintro rfl
    rw [ofInt?, if_pos ⟨Int64.minValue_le_toInt a.units, Int64.toInt_le a.units⟩]
    exact congrArg some (ext (Int64.ofInt_toInt a.units))

theorem checkedAdd_eq_some_iff {a b c : Amount} :
    a.checkedAdd b = some c ↔ c.toInt = a.toInt + b.toInt :=
  ofInt?_eq_some_iff

theorem checkedSub_eq_some_iff {a b c : Amount} :
    a.checkedSub b = some c ↔ c.toInt = a.toInt - b.toInt :=
  ofInt?_eq_some_iff

/-- Units tell amounts apart. -/
theorem toInt_inj {a b : Amount} : a.toInt = b.toInt ↔ a = b :=
  ⟨fun same => ext (Int64.toInt_inj.mp same), congrArg toInt⟩

/-- Taking an amount or not, checked. -/
theorem subIf_eq_some_iff {taken : Prop} [Decidable taken] {a b c : Amount} :
    (if taken then a.checkedSub b else some a) = some c ↔
      c.toInt = a.toInt + if taken then -b.toInt else 0 := by
  split
  next => rw [checkedSub_eq_some_iff, Int.sub_eq_add_neg]
  next => rw [Option.some.injEq, Int.add_zero, eq_comm, toInt_inj]

/-- Giving an amount or not, checked. -/
theorem addIf_eq_some_iff {given : Prop} [Decidable given] {a b c : Amount} :
    (if given then a.checkedAdd b else some a) = some c ↔
      c.toInt = a.toInt + if given then b.toInt else 0 := by
  split
  next => rw [checkedAdd_eq_some_iff]
  next => rw [Option.some.injEq, Int.add_zero, eq_comm, toInt_inj]

/-- Units no further from zero than the largest amount are those of an amount. -/
theorem exists_toInt_eq {n : Int} (low : -largest ≤ n) (high : n ≤ largest) :
    ∃ a : Amount, a.toInt = n := by
  have least : Int64.minValue.toInt ≤ -largest := by decide
  exact ⟨_, ofInt?_eq_some_iff.mp (if_pos ⟨Int.le_trans least low, high⟩)⟩

end ChainLedger.Amount

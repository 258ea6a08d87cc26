import ChainLedger.Amount.Text
import ChainLedger.Proofs.Amount
import ChainLedger.Proofs.Text.WhiteSpace
import Mathlib.Algebra.Ring.Nat

/-!
# Amounts and their texts

A numeral is a sign, digits, and perhaps a point and more digits. A text falls into such
parts in one way only (`Decimal.eq_of_chars`), whether they are digits or not, and what
it is read as is told by them: the numerals that are read are those with no digit but
zeros behind the eighth of the fraction and with no more units than the largest amount.

An amount is printed as a numeral with eight fractional digits. It is read back unless it
is the least amount, whose magnitude is one unit more than the largest.
-/

namespace ChainLedger

/-! ## Numerals -/

/-- The parts of a decimal numeral: whether a minus sign is in front, the digits before the
point and, if there is a point, those behind it. -/
structure Decimal where
  isNegative : Bool
  whole : List Char
  fraction? : Option (List Char)

namespace Decimal

variable {d e : Decimal}

/-- What stands behind the point, if there is one. -/
def fraction (d : Decimal) : List Char := d.fraction?.getD []

/-- What stands before the point and behind it. -/
def digits (d : Decimal) : List Char := d.whole ++ d.fraction

/-- The characters behind the sign. -/
def unsigned (d : Decimal) : List Char :=
  match d.fraction? with
  | none => d.whole
  | some fraction => d.whole ++ '.' :: fraction

def chars (d : Decimal) : List Char := if d.isNegative then '-' :: d.unsigned else d.unsigned

def text (d : Decimal) : String := String.ofList d.chars

/-- There is a digit, and nothing but digits. -/
structure IsNumeral (d : Decimal) : Prop where
  nonempty : d.digits ≠ []
  isDigit : ∀ c ∈ d.digits, c.isDigit = true

/-- At most eight digits of the fraction are left without the zeros at its end: behind the
eighth there are only zeros. -/
def IsPrecise (d : Decimal) : Prop := ∀ c ∈ d.fraction.drop 8, c = '0'

/-- The units that a precise numeral denotes, its sign aside: eight decimal places, the last
of them zeros where the fraction is shorter. -/
def units (d : Decimal) : Nat :=
  Nat.ofDigitChars 10 d.whole 0 * 10 ^ 8 +
    Nat.ofDigitChars 10 ((d.fraction.take 8).rightpad 8 '0') 0

/-- The units with their sign. -/
def value (d : Decimal) : Int := if d.isNegative then -d.units else d.units

/-! ## The parts of a text -/

/-- The point is the first one and a minus sign at the start is the sign, so that these are
the parts into which their text falls. -/
structure IsSplit (d : Decimal) : Prop where
  point : '.' ∉ d.whole
  sign : d.isNegative = false → d.unsigned.head? ≠ some '-'

theorem splitAtPoint_of_notMem {chars : List Char} (free : '.' ∉ chars) :
    splitAtPoint chars = (chars, []) := by
  induction chars with
  | nil => rfl
  | cons c rest ih =>
    obtain ⟨other, freeRest⟩ : '.' ≠ c ∧ '.' ∉ rest := by simpa using free
    rw [splitAtPoint, ih freeRest]
    exact fun same => other same.symm

theorem splitAtPoint_append {whole : List Char} (free : '.' ∉ whole) (fraction : List Char) :
    splitAtPoint (whole ++ '.' :: fraction) = (whole, fraction) := by
  induction whole with
  | nil => rfl
  | cons c rest ih =>
    obtain ⟨other, freeRest⟩ : '.' ≠ c ∧ '.' ∉ rest := by simpa using free
    rw [List.cons_append, splitAtPoint, ih freeRest]
    exact fun same => other same.symm

theorem splitAtPoint_unsigned (free : '.' ∉ d.whole) :
    splitAtPoint d.unsigned = (d.whole, d.fraction) := by
  unfold unsigned fraction
  cases d.fraction? with
  | none => exact splitAtPoint_of_notMem free
  | some fraction => exact splitAtPoint_append free fraction

theorem exists_unsigned (isNegative : Bool) (chars : List Char) :
    ∃ d : Decimal, d.isNegative = isNegative ∧ '.' ∉ d.whole ∧ d.unsigned = chars := by
  by_cases pointed : '.' ∈ chars
  · obtain ⟨whole, fraction, rfl, free⟩ := List.eq_append_cons_of_mem pointed
    exact ⟨⟨isNegative, whole, some fraction⟩, rfl, free, rfl⟩
  · exact ⟨⟨isNegative, chars, none⟩, rfl, pointed, rfl⟩

/-- Every text falls into parts. -/
theorem exists_chars (chars : List Char) : ∃ d : Decimal, d.IsSplit ∧ d.chars = chars := by
  by_cases negative : chars.head? = some '-'
  · obtain ⟨rest, rfl⟩ := List.head?_eq_some_iff.mp negative
    obtain ⟨d, sign, free, rfl⟩ := exists_unsigned true rest
    exact ⟨d, ⟨free, fun plain => by simp [sign] at plain⟩, if_pos sign⟩
  · obtain ⟨d, sign, free, rfl⟩ := exists_unsigned false chars
    exact ⟨d, ⟨free, fun _ => negative⟩, if_neg (by simp [sign])⟩

theorem isNegative_iff (split : d.IsSplit) : d.isNegative = true ↔ d.chars.head? = some '-' := by
  unfold chars
  cases sign : d.isNegative with
  | true => simp
  | false => simpa using split.sign sign

/-- A text falls into parts in one way. -/
theorem eq_of_chars (split : d.IsSplit) (split' : e.IsSplit) (same : d.chars = e.chars) :
    d = e := by
  have signs : d.isNegative = e.isNegative := by
    rw [Bool.eq_iff_iff, isNegative_iff split, isNegative_iff split', same]
  have unsigneds : d.unsigned = e.unsigned := by
    unfold chars at same
    rw [signs] at same
    split at same
    · exact (List.cons.inj same).2
    · exact same
  have wholes := splitAtPoint_unsigned split.point
  rw [unsigneds, splitAtPoint_unsigned split'.point] at wholes
  obtain ⟨sign, whole, fraction?⟩ := d
  obtain ⟨sign', whole', fraction?'⟩ := e
  obtain ⟨rfl, -⟩ := Prod.mk.inj wholes
  cases signs
  cases fraction? <;> cases fraction?' <;> simp_all [unsigned]

theorem eq_of_text (split : d.IsSplit) (split' : e.IsSplit) (same : d.text = e.text) : d = e :=
  eq_of_chars split split' (String.ofList_injective same)

theorem isSplit_bare (isNegative : Bool) {fraction? : Option (List Char)}
    (bare : fraction? = none ∨ fraction? = some []) : IsSplit ⟨isNegative, [], fraction?⟩ := by
  refine ⟨List.not_mem_nil, fun _ => ?_⟩
  rcases bare with rfl | rfl <;> simp [unsigned]

/-- With nothing beside the sign and the point a text is one of four. -/
theorem digits_eq_nil_iff (split : d.IsSplit) :
    d.digits = [] ↔ d.text ∈ ["", "-", ".", "-."] := by
  constructor
  · intro nothing
    obtain ⟨isNegative, whole, fraction?⟩ := d
    obtain ⟨rfl, bare⟩ := List.append_eq_nil_iff.mp nothing
    cases fraction? with
    | none => cases isNegative <;> decide
    | some fraction =>
      cases bare
      cases isNegative <;> decide
  · intro blank
    simp only [List.mem_cons, List.not_mem_nil, or_false] at blank
    rcases blank with same | same | same | same
    · rw [eq_of_text split (isSplit_bare false (.inl rfl)) same]
      rfl
    · rw [eq_of_text split (isSplit_bare true (.inl rfl)) same]
      rfl
    · rw [eq_of_text split (isSplit_bare false (.inr rfl)) same]
      rfl
    · rw [eq_of_text split (isSplit_bare true (.inr rfl)) same]
      rfl

theorem mem_digits_of_unsigned {c : Char} (inside : c ∈ d.unsigned) : c ∈ d.digits ∨ c = '.' := by
  obtain ⟨isNegative, whole, fraction?⟩ := d
  cases fraction? with
  | none => exact .inl (List.mem_append_left _ inside)
  | some fraction =>
    rcases List.mem_append.mp inside with before | pointed
    · exact .inl (List.mem_append_left _ before)
    · rcases List.mem_cons.mp pointed with point | behind
      · exact .inr point
      · exact .inl (List.mem_append_right _ behind)

theorem IsNumeral.isSplit (numeral : d.IsNumeral) : d.IsSplit where
  point pointed := by
    have digit := numeral.isDigit '.' (List.mem_append_left _ pointed)
    exact absurd digit (by decide)
  sign _ first := by
    rcases mem_digits_of_unsigned (List.mem_of_head? first) with digit | point
    · exact absurd (numeral.isDigit '-' digit) (by decide)
    · exact absurd point (by decide)

/-! ## Digits and what they denote -/

theorem exists_eq_append_zeros (digits : List Char) :
    ∃ zeros, digits = withoutTrailingZeros digits ++ List.replicate zeros '0' := by
  obtain ⟨⟨back, split, zeros⟩, -⟩ :=
    rdropWhile_eq_iff.mp (rfl : digits.rdropWhile (· == '0') = withoutTrailingZeros digits)
  have same : back = List.replicate back.length '0' :=
    List.eq_replicate_iff.mpr ⟨rfl, fun c member => by simpa using zeros c member⟩
  exact ⟨back.length, same ▸ split⟩

theorem getLast?_withoutTrailingZeros (digits : List Char) :
    (withoutTrailingZeros digits).getLast? ≠ some '0' := by
  obtain ⟨-, last⟩ :=
    rdropWhile_eq_iff.mp (rfl : digits.rdropWhile (· == '0') = withoutTrailingZeros digits)
  exact fun zero => by simpa using last '0' zero

/-- No more than `count` digits are left without the zeros at the end exactly if only zeros
stand behind the first `count`. -/
theorem length_withoutTrailingZeros_le_iff {digits : List Char} {count : Nat} :
    (withoutTrailingZeros digits).length ≤ count ↔ ∀ c ∈ digits.drop count, c = '0' := by
  obtain ⟨zeros, split⟩ := exists_eq_append_zeros digits
  have last := getLast?_withoutTrailingZeros digits
  generalize withoutTrailingZeros digits = kept at split last
  subst split
  rw [List.drop_append]
  constructor
  · intro short c member
    rw [List.drop_eq_nil_of_le short, List.nil_append] at member
    exact List.eq_of_mem_replicate (List.mem_of_mem_drop member)
  · intro onlyZeros
    by_contra long
    -- The last digit that is kept stands behind the first ones.
    have final : (kept.drop count).getLast? = kept.getLast? := by
      rw [List.getLast?_drop, if_neg (by omega)]
    cases ended : kept.getLast? with
    | none => simp [List.getLast?_eq_none_iff.mp ended] at long
    | some c =>
      have member := List.mem_of_getLast? (final.trans ended)
      rw [onlyZeros c (List.mem_append_left _ member)] at ended
      exact last ended

theorem isPrecise_iff : d.IsPrecise ↔ (withoutTrailingZeros d.fraction).length ≤ amountDecimals :=
  length_withoutTrailingZeros_le_iff.symm

theorem ofDigits_append_zeros (digits : List Char) (zeros : Nat) :
    Nat.ofDigitChars 10 (digits ++ List.replicate zeros '0') 0 = ofDigits digits * 10 ^ zeros := by
  rw [Nat.ofDigitChars_append, Nat.ofDigitChars_replicate_zero, Nat.mul_comm]
  rfl

/-- The units of a precise numeral are told by the digits without the zeros at the end. -/
theorem unitsOf_eq (precise : d.IsPrecise) :
    Amount.unitsOf d.whole (withoutTrailingZeros d.fraction) = d.units := by
  have short : (withoutTrailingZeros d.fraction).length ≤ 8 := isPrecise_iff.mp precise
  obtain ⟨zeros, split⟩ := exists_eq_append_zeros d.fraction
  generalize withoutTrailingZeros d.fraction = kept at split short
  have padded : (d.fraction.take 8).rightpad 8 '0' =
      kept ++ List.replicate (8 - kept.length) '0' := by
    rw [split, List.take_append, List.take_of_length_le short, List.take_replicate, List.rightpad,
      List.append_assoc, List.replicate_append_replicate, List.length_append,
      List.length_replicate]
    congr 2
    omega
  rw [units, padded, ofDigits_append_zeros]
  rfl

end Decimal

namespace Amount

variable {d : Decimal}

/-! ## Reading -/

theorem ofInt?_natCast (n : Nat) :
    (largest < n ∧ ofInt? n = none) ∨ (n ≤ largest ∧ ∃ a, ofInt? n = some a ∧ a.toInt = n) := by
  cases found : ofInt? n with
  | some a =>
    have units := ofInt?_eq_some_iff.mp found
    exact .inr ⟨units ▸ a.toInt_le_largest, a, rfl, units⟩
  | none =>
    refine .inl ⟨Int.not_le.mp fun within => ?_, rfl⟩
    have some := isSome_ofInt? (Int.natCast_nonneg n) within
    rw [found] at some
    cases some

/-- The five things that a text can be read as, told by its parts. -/
inductive ReadsAs (d : Decimal) : Except AmountError Amount → Prop
  | empty : d.digits = [] → ReadsAs d (.error .empty)
  | invalidDigit : d.digits ≠ [] → ¬d.IsNumeral → ReadsAs d (.error (.invalidDigit d.text))
  | tooPrecise : d.IsNumeral → ¬d.IsPrecise → ReadsAs d (.error (.tooPrecise d.text))
  | outOfRange : d.IsNumeral → d.IsPrecise → largest < d.units →
    ReadsAs d (.error (.outOfRange d.text))
  | ok {a : Amount} : d.IsNumeral → d.IsPrecise → d.units ≤ largest → a.toInt = d.value →
    ReadsAs d (.ok a)

/-- The sign is put on a magnitude without wrapping around. -/
theorem toInt_signed {magnitude : Amount} (units : magnitude.toInt = d.units) :
    (if d.isNegative then -magnitude else magnitude).toInt = d.value := by
  unfold Decimal.value
  split
  · have negated : (-magnitude).toInt = -magnitude.toInt :=
      negatesExactly_of_nonneg (units ▸ Int.natCast_nonneg _)
    rw [negated, units]
  · exact units

/-- What is read off the start of a text is its sign, and what stands behind it. -/
theorem signed_of_chars (split : d.IsSplit) {negative : Bool} {unsigned : List Char}
    (told : (match d.chars with
      | '-' :: rest => (true, rest)
      | _ => (false, d.chars)) = (negative, unsigned)) :
    negative = d.isNegative ∧ unsigned = d.unsigned := by
  split at told
  next rest minus =>
    cases told
    have sign := (Decimal.isNegative_iff split).mpr (by rw [minus]; rfl)
    rw [Decimal.chars, if_pos sign] at minus
    exact ⟨sign.symm, (List.cons.inj minus).2.symm⟩
  next plain =>
    cases told
    have sign : ¬d.isNegative = true := fun sign => plain _ (if_pos sign)
    exact ⟨(Bool.eq_false_iff.mpr sign).symm, if_neg sign⟩

theorem readsAs_ofTrimmed (split : d.IsSplit) : ReadsAs d (ofTrimmed d.chars) := by
  unfold ofTrimmed
  split
  next negative unsigned told =>
    obtain ⟨rfl, rfl⟩ := signed_of_chars split told
    split
    next whole fraction told' =>
      have parts := (Decimal.splitAtPoint_unsigned split.point).symm.trans told'
      obtain ⟨rfl, rfl⟩ := Prod.mk.inj parts
      dsimp only
      split
      next nothing => exact .empty (by simpa [Decimal.digits] using nothing)
      next something =>
        have nonempty : d.digits ≠ [] := by simpa [Decimal.digits] using something
        split
        next odd =>
          refine .invalidDigit nonempty fun numeral => ?_
          have digits := List.all_eq_true.mpr numeral.isDigit
          rw [Decimal.digits, List.all_append] at digits
          simp [digits] at odd
        next digits =>
          have numeral : d.IsNumeral :=
            ⟨nonempty, List.all_eq_true.mp (by simpa [Decimal.digits] using digits)⟩
          split
          next long =>
            exact .tooPrecise numeral (mt Decimal.isPrecise_iff.mp (Nat.not_le.mpr long))
          next short =>
            have precise := Decimal.isPrecise_iff.mpr (Nat.not_lt.mp short)
            rw [Decimal.unitsOf_eq precise]
            rcases ofInt?_natCast d.units with ⟨large, none⟩ | ⟨small, magnitude, found, units⟩
            · rw [none]
              exact .outOfRange numeral precise large
            · rw [found]
              exact .ok numeral precise small (toInt_signed units)

theorem exists_readsAs (text : String) :
    ∃ d : Decimal, d.IsSplit ∧ d.text = Text.trim text ∧ ReadsAs d (ofText text) := by
  obtain ⟨d, split, chars⟩ := Decimal.exists_chars (Text.trimmed text.toList)
  have reads := readsAs_ofTrimmed split
  rw [chars] at reads
  exact ⟨d, split, congrArg String.ofList chars, reads⟩

/-- **What a text is read as.** White space at its ends aside, it is read as an amount exactly if it
is a precise numeral of no more units than the largest amount, and then as those units with the
sign. Otherwise it is empty but for a sign and a point, or it is no numeral, or a numeral that is
not precise, or one that is precise but too large, and the fault says which. -/
theorem ofText_outcome (text : String) :
    Text.IsTrimmedTo text.toList (Text.trim text).toList ∧
    (∀ a, ofText text = .ok a ↔ ∃ d : Decimal, d.text = Text.trim text ∧ d.IsNumeral ∧
      d.IsPrecise ∧ d.units ≤ largest ∧ a.toInt = d.value) ∧
    (ofText text = .error .empty ↔ Text.trim text ∈ ["", "-", ".", "-."]) ∧
    (∀ quoted, ofText text = .error (.invalidDigit quoted) ↔ quoted = Text.trim text ∧
      Text.trim text ∉ ["", "-", ".", "-."] ∧
      ¬∃ d : Decimal, d.text = Text.trim text ∧ d.IsNumeral) ∧
    (∀ quoted, ofText text = .error (.tooPrecise quoted) ↔ quoted = Text.trim text ∧
      ∃ d : Decimal, d.text = Text.trim text ∧ d.IsNumeral ∧ ¬d.IsPrecise) ∧
    (∀ quoted, ofText text = .error (.outOfRange quoted) ↔ quoted = Text.trim text ∧
      ∃ d : Decimal, d.text = Text.trim text ∧ d.IsNumeral ∧ d.IsPrecise ∧ largest < d.units) := by
  obtain ⟨d, split, spelled, reads⟩ := exists_readsAs text
  have only : ∀ property : Decimal → Prop,
      (∃ e : Decimal, e.text = Text.trim text ∧ e.IsNumeral ∧ property e) ↔
        d.IsNumeral ∧ property d := by
    refine fun property => ⟨?_, fun holds => ⟨d, spelled, holds⟩⟩
    rintro ⟨e, same, numeral, holds⟩
    obtain rfl := Decimal.eq_of_text numeral.isSplit split (same.trans spelled.symm)
    exact ⟨numeral, holds⟩
  have numeral : (∃ e : Decimal, e.text = Text.trim text ∧ e.IsNumeral) ↔ d.IsNumeral := by
    simpa using only fun _ => True
  have blank := Decimal.digits_eq_nil_iff split
  rw [spelled] at blank
  refine ⟨?_, ?_⟩
  · rw [Text.trim, String.toList_ofList]
    exact Text.trimmed_eq_iff.mp rfl
  simp only [only, numeral, ← blank]
  rw [← spelled]
  generalize ofText text = outcome at reads
  cases reads with
  | empty nothing =>
    have other : ¬d.IsNumeral := fun numeral => numeral.nonempty nothing
    simp [nothing, other]
  | invalidDigit something other => simp [something, other, eq_comm]
  | tooPrecise numeral imprecise => simp [numeral, numeral.nonempty, imprecise, eq_comm]
  | outOfRange numeral precise large =>
    simp [numeral, numeral.nonempty, precise, large, Int.not_le.mpr large, eq_comm]
  | ok numeral precise small units =>
    simp [numeral, numeral.nonempty, precise, small, Int.not_lt.mpr small, ← units, toInt_inj,
      eq_comm]

/-! ## Printing -/

theorem length_lastDigits (width value : Nat) : (lastDigits width value).length = width := by
  induction width generalizing value with
  | zero => rfl
  | succ width ih => simp [lastDigits, ih]

theorem isDigit_of_mem_lastDigits {width value : Nat} :
    ∀ c ∈ lastDigits width value, c.isDigit = true := by
  induction width generalizing value with
  | zero => simp [lastDigits]
  | succ width ih =>
    have last : (Nat.digitChar (value % 10)).isDigit = true := by
      simpa using Nat.mod_lt value (by decide : 10 > 0)
    rw [lastDigits]
    exact List.forall_mem_append.mpr ⟨ih, by simpa using last⟩

theorem ofDigitChars_lastDigits (width value : Nat) :
    Nat.ofDigitChars 10 (lastDigits width value) 0 = value % 10 ^ width := by
  induction width generalizing value with
  | zero => simp [lastDigits, Nat.mod_one]
  | succ width ih =>
    have digit : value % 10 < 10 := Nat.mod_lt value (by decide)
    rw [lastDigits, Nat.ofDigitChars_append, ih, Nat.ofDigitChars_cons_digitChar_of_lt_ten digit,
      Nat.ofDigitChars_nil, Nat.pow_succ', Nat.mod_mul, Nat.add_comm]

/-- The numeral that an amount is printed as. -/
def decimal (a : Amount) : Decimal where
  isNegative := a.isNegative
  whole := Nat.toDigits 10 (a.toInt.natAbs / 10 ^ 8)
  fraction? := some (lastDigits 8 (a.toInt.natAbs % 10 ^ 8))

theorem text_decimal (a : Amount) : a.decimal.text = a.toText := by
  unfold toText toChars Decimal.text Decimal.chars
  cases sign : a.isNegative <;> simp [decimal, Decimal.unsigned, sign] <;> rfl

theorem isNumeral_decimal (a : Amount) : a.decimal.IsNumeral where
  nonempty := by simp [Decimal.digits, decimal]
  isDigit := List.forall_mem_append.mpr
    ⟨fun _ => Nat.isDigit_of_mem_toDigits (by decide) (by decide), isDigit_of_mem_lastDigits⟩

theorem length_fraction_decimal (a : Amount) : a.decimal.fraction.length = 8 :=
  length_lastDigits ..

theorem isPrecise_decimal (a : Amount) : a.decimal.IsPrecise := by
  rw [Decimal.IsPrecise, List.drop_eq_nil_of_le (a.length_fraction_decimal).le]
  simp

theorem units_decimal (a : Amount) : a.decimal.units = a.toInt.natAbs := by
  have fraction : (a.decimal.fraction.take 8).rightpad 8 '0' =
      lastDigits 8 (a.toInt.natAbs % 10 ^ 8) := by
    rw [List.take_of_length_le (a.length_fraction_decimal).le, List.rightpad,
      a.length_fraction_decimal, Nat.sub_self, List.replicate_zero, List.append_nil]
    rfl
  rw [Decimal.units, fraction, ofDigitChars_lastDigits, Nat.mod_mod]
  change Nat.ofDigitChars 10 (Nat.toDigits 10 _) 0 * 10 ^ 8 + _ = _
  rw [Nat.ofDigitChars_ten_toDigits, Nat.div_add_mod']

theorem value_decimal (a : Amount) : a.decimal.value = a.toInt := by
  rw [Decimal.value, units_decimal]
  change (if a.isNegative = true then _ else _) = _
  split
  next negative =>
    have below : ¬0 ≤ a.toInt := fun nonneg => by
      simp [isNegative_eq_false_iff.mpr nonneg] at negative
    omega
  next plain =>
    have nonneg := isNegative_eq_false_iff.mp (Bool.eq_false_iff.mpr plain)
    omega

/-! ## Printing and reading -/

theorem isWhiteSpace_of_isDigit {c : Char} (digit : c.isDigit = true) :
    Text.isWhiteSpace c = false := by
  have range : 48 ≤ c.toNat ∧ c.toNat ≤ 57 := Char.isDigit_iff_toNat.mp digit
  simp only [Text.isWhiteSpace, Bool.or_eq_false_iff, Bool.and_eq_false_iff, decide_eq_false_iff_not,
    beq_eq_false_iff_ne]
  omega

/-- There is no white space in a numeral. -/
theorem trimmed_numeral (numeral : d.IsNumeral) : Text.trimmed d.chars = d.chars := by
  have unsigned : ∀ c ∈ d.unsigned, Text.isWhiteSpace c = false := by
    intro c member
    rcases Decimal.mem_digits_of_unsigned member with digit | rfl
    · exact isWhiteSpace_of_isDigit (numeral.isDigit c digit)
    · rfl
  apply Text.trimmed_of_forall
  unfold Decimal.chars
  split
  · exact List.forall_mem_cons.mpr ⟨rfl, unsigned⟩
  · exact unsigned

theorem readsAs_ofText (numeral : d.IsNumeral) : ReadsAs d (ofText d.text) := by
  have reads := readsAs_ofTrimmed numeral.isSplit
  rwa [ofText, Decimal.text, String.toList_ofList, trimmed_numeral numeral]

/-- Only the least amount has more units than the largest, its sign aside. -/
theorem largest_lt_natAbs_iff {a : Amount} :
    largest < a.toInt.natAbs ↔ a.units = Int64.minValue := by
  have least : Int64.minValue.toInt ≤ a.toInt := Int64.minValue_le_toInt a.units
  have most := a.toInt_le_largest
  have bounds : largest = 2 ^ 63 - 1 ∧ Int64.minValue.toInt = -2 ^ 63 := ⟨rfl, rfl⟩
  rw [← Int64.toInt_inj]
  change _ ↔ a.toInt = _
  omega

theorem ofText_toText (a : Amount) : ofText a.toText =
    if a.units = Int64.minValue then .error (.outOfRange a.toText) else .ok a := by
  have numeral := a.isNumeral_decimal
  have reads := readsAs_ofText numeral
  rw [← text_decimal]
  generalize ofText a.decimal.text = outcome at reads ⊢
  cases reads with
  | empty nothing => exact absurd nothing numeral.nonempty
  | invalidDigit _ other => exact absurd numeral other
  | tooPrecise _ imprecise => exact absurd a.isPrecise_decimal imprecise
  | outOfRange _ _ large =>
    rw [units_decimal, largest_lt_natAbs_iff] at large
    rw [if_pos large]
  | @ok b _ _ small units =>
    rw [units_decimal, ← Int.not_lt, largest_lt_natAbs_iff] at small
    rw [if_neg small, toInt_inj.mp (units.trans a.value_decimal)]

/-- **Amounts are printed exactly, and all but the least are read back.** The text of an amount is
a numeral with eight fractional digits that denotes the amount. -/
theorem toText_faithful (a : Amount) :
    (∃ d : Decimal, d.text = a.toText ∧ d.IsNumeral ∧ d.whole ≠ [] ∧ d.value = a.toInt ∧
      ∃ fraction, d.fraction? = some fraction ∧ fraction.length = 8) ∧
    ofText a.toText =
      if a.units = Int64.minValue then .error (.outOfRange a.toText) else .ok a :=
  ⟨⟨a.decimal, a.text_decimal, a.isNumeral_decimal, Nat.toDigits_ne_nil, a.value_decimal,
    _, rfl, a.length_fraction_decimal⟩, ofText_toText a⟩

/-- The least amount is printed, and what is printed is not read. -/
theorem least_unreadable :
    toText ⟨Int64.minValue⟩ = "-92233720368.54775808" ∧
      ofText (toText ⟨Int64.minValue⟩) = .error (.outOfRange "-92233720368.54775808") ∧
      ofText (toText ⟨Int64.minValue⟩) ≠ .ok ⟨Int64.minValue⟩ := by
  decide +kernel

end Amount

end ChainLedger

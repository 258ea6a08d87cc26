import ChainLedger.Proofs.Amount
import ChainLedger.Proofs.Wire.Codec

/-!
# Amounts as integers of twelve bytes

A byte string of a fixed length denotes an integer in two's complement, and no other string
of that length denotes it. Bytes that repeat the sign in front of a string keep its integer,
so that an amount is written as the twelve bytes that denote its units. Of all twelve bytes
those are read that denote the units of some amount: to compare the four in front with the
sign of the eight behind them is to compare the integer of all twelve with the least and the
largest amount.
-/

namespace ChainLedger

theorem ofBigEndian_replicate_zero (count : Nat) : ofBigEndian (List.replicate count 0) = 0 := by
  induction count with
  | zero => rfl
  | succ count ih =>
    rw [List.replicate_succ', ofBigEndian_append, ih]
    rfl

theorem ofBigEndian_replicate_max (count : Nat) :
    ofBigEndian (List.replicate count 0xff) + 1 = wordValues count := by
  induction count with
  | zero => rfl
  | succ count ih =>
    rw [List.replicate_succ', ofBigEndian_append, wordValues, ← ih]
    change 256 * _ + 255 + 1 = _
    omega

/-! ## Two's complement -/

namespace FixedBytes

variable {m n : Nat} {raw raw' : FixedBytes n}

/-- The integer that bytes denote in two's complement, most significant first. -/
def toInt (raw : FixedBytes n) : Int := (BitVec.ofNat (8 * n) (ofBigEndian raw.bytes)).toInt

theorem ofBigEndian_inj : ofBigEndian raw.bytes = ofBigEndian raw'.bytes ↔ raw = raw' := by
  constructor
  · intro same
    apply ext
    rw [← bigEndian_ofBigEndian raw.bytes, ← bigEndian_ofBigEndian raw'.bytes, same,
      length_bytes, length_bytes]
  · rintro rfl
    rfl

/-- The bits of a byte string hold its number. -/
theorem toNat_bits (raw : FixedBytes n) :
    (BitVec.ofNat (8 * n) (ofBigEndian raw.bytes)).toNat = ofBigEndian raw.bytes := by
  have below := ofBigEndian_lt raw.bytes
  rw [length_bytes, Base58.wordValues_eq] at below
  apply Nat.mod_eq_of_lt
  rwa [Nat.pow_mul]

theorem toInt_eq (raw : FixedBytes n) : raw.toInt =
    if 2 * ofBigEndian raw.bytes < wordValues n then (ofBigEndian raw.bytes : Int)
    else ofBigEndian raw.bytes - wordValues n := by
  have values : 2 ^ (8 * n) = wordValues n := by rw [Base58.wordValues_eq, Nat.pow_mul]
  rw [toInt, BitVec.toInt_eq_toNat_cond, toNat_bits, values]

theorem toInt_neg_iff : raw.toInt < 0 ↔ wordValues n ≤ 2 * ofBigEndian raw.bytes := by
  have small := ofBigEndian_lt raw.bytes
  rw [length_bytes] at small
  rw [toInt_eq]
  split <;> omega

/-- Bytes of one length that denote one integer are the same. -/
theorem toInt_inj : raw.toInt = raw'.toInt ↔ raw = raw' := by
  rw [toInt, toInt, BitVec.toInt_inj, ← BitVec.toNat_inj, toNat_bits, toNat_bits, ofBigEndian_inj]

/-- Bytes that repeat the sign in front of others make no difference. -/
theorem toInt_eq_of_repeats {longer : FixedBytes m} {count : Nat}
    (repeats : longer.bytes =
      List.replicate count (if raw.toInt < 0 then 0xff else 0) ++ raw.bytes) :
    longer.toInt = raw.toInt := by
  have sizes : m = count + n := by rw [← longer.length_eq, repeats]; simp
  have values : wordValues m =
      wordValues n * ofBigEndian (List.replicate count 0xff) + wordValues n := by
    rw [sizes, wordValues_add, ← ofBigEndian_replicate_max, Nat.add_one_mul, Nat.mul_comm]
  -- What the front adds to the number of a negative integer is what the modulus grows by.
  rw [toInt_eq longer, toInt_eq raw, repeats, ofBigEndian_append, length_bytes, values]
  by_cases negative : raw.toInt < 0
  · have upper := toInt_neg_iff.mp negative
    rw [if_pos negative, if_neg (by omega), if_neg (by omega)]
    omega
  · have lower := Nat.not_le.mp (mt toInt_neg_iff.mpr negative)
    rw [if_neg negative, ofBigEndian_replicate_zero, Nat.mul_zero, Nat.zero_add,
      if_pos (by omega), if_pos lower]

end FixedBytes

/-! ## Amounts in twelve bytes -/

namespace Codec

variable {raw : FixedBytes 12} {a : Amount}

theorem signByte_eq (a : Amount) : signByte a = if a.toInt < 0 then 0xff else 0 := by
  simp only [signByte, Amount.isNegative_iff]

theorem bytes_extended (a : Amount) : (extended a).bytes =
    List.replicate 4 (signByte a) ++ bigEndian 8 a.units.toUInt64.toNat := rfl

/-- The eight bytes of an amount denote its units. -/
theorem toInt_bigEndian (a : Amount) :
    (⟨bigEndian 8 a.units.toUInt64.toNat, length_bigEndian ..⟩ : FixedBytes 8).toInt = a.toInt := by
  have small : a.units.toUInt64.toNat < wordValues 8 := a.units.toUInt64.toNat_lt
  rw [FixedBytes.toInt, ofBigEndian_bigEndian, Nat.mod_eq_of_lt small]
  exact congrArg BitVec.toInt (BitVec.ofNat_toNat ..)

/-- So do the twelve in which it is written. -/
theorem toInt_extended (a : Amount) : (extended a).toInt = a.toInt := by
  rw [← toInt_bigEndian a]
  apply FixedBytes.toInt_eq_of_repeats
  rw [toInt_bigEndian, ← signByte_eq, bytes_extended]

theorem eq_extended_iff : raw = extended a ↔ raw.toInt = a.toInt := by
  rw [← toInt_extended, FixedBytes.toInt_inj]

/-- The amount in the last eight bytes is written as these. -/
theorem bytes_extended_lowAmount (raw : FixedBytes 12) : (extended (lowAmount raw)).bytes =
    List.replicate 4 (signByte (lowAmount raw)) ++ raw.bytes.drop 4 := by
  have sized : (raw.bytes.drop 4).length = 8 := by simp
  have small := ofBigEndian_lt (raw.bytes.drop 4)
  have digits := bigEndian_ofBigEndian (raw.bytes.drop 4)
  rw [sized] at small digits
  have number : (lowAmount raw).units.toUInt64.toNat = ofBigEndian (raw.bytes.drop 4) := by
    rw [lowAmount, UInt64.toUInt64_toInt64, UInt64.toNat_ofNat_of_lt' small]
  rw [bytes_extended, number, digits]

/-- Whether twelve bytes extend the amount in the last eight is seen from the first four. -/
theorem eq_extended_lowAmount_iff : raw = extended (lowAmount raw) ↔
    raw.bytes.take 4 = List.replicate 4 (signByte (lowAmount raw)) := by
  rw [FixedBytes.ext_iff, bytes_extended_lowAmount]
  nth_rewrite 1 [← List.take_append_drop 4 raw.bytes]
  exact List.append_left_inj _

/-- The first four bytes repeat the sign of the last eight just where all twelve denote an integer
that 64 bits hold. -/
theorem repeats_iff_within :
    raw.bytes.take 4 = List.replicate 4 (signByte (lowAmount raw)) ↔
      -2 ^ 63 ≤ raw.toInt ∧ raw.toInt < 2 ^ 63 := by
  rw [← eq_extended_lowAmount_iff]
  constructor
  · intro whole
    rw [eq_extended_iff.mp whole]
    exact ⟨Int64.le_toInt _, Int64.toInt_lt _⟩
  · rintro ⟨least, most⟩
    -- Some amount has these units, and no other bytes denote them than those it is written as.
    have units : (Amount.mk (Int64.ofInt raw.toInt)).toInt = raw.toInt :=
      Int64.toInt_ofInt_of_le least most
    have whole := eq_extended_iff.mpr units.symm
    rw [whole, lowAmount_extended]

/-- Twelve bytes are read by a test of the first four. -/
theorem assetAmount_decode (raw : FixedBytes 12) (rest : Bytes) :
    assetAmount.decode (raw.bytes ++ rest) =
      if raw.bytes.take 4 = List.replicate 4 (signByte (lowAmount raw)) then
        .ok (lowAmount raw, rest)
      else .error (.amountOutOfRange raw.bytes) := by
  have front : (fixed 12).decode (raw.bytes ++ rest) = .ok (raw, rest) :=
    fixed_decode_eq_ok.mpr rfl
  rw [assetAmount, refine_decode front]
  simp only [← eq_extended_lowAmount_iff]
  split <;> rfl

/-- **Amounts in twelve bytes are integers of 96 bits that 64 bits hold.** Twelve bytes are read as
the amount whose units they denote in two's complement, if there is one, and refused otherwise. An
amount is written as the only twelve bytes that are read as it. -/
theorem assetAmount_twosComplement :
    (∀ (raw : FixedBytes 12) (rest : Bytes),
      (-2 ^ 63 ≤ raw.toInt ∧ raw.toInt < 2 ^ 63 → ∃ a : Amount, a.toInt = raw.toInt ∧
        assetAmount.decode (raw.bytes ++ rest) = .ok (a, rest)) ∧
      (¬(-2 ^ 63 ≤ raw.toInt ∧ raw.toInt < 2 ^ 63) →
        assetAmount.decode (raw.bytes ++ rest) = .error (.amountOutOfRange raw.bytes))) ∧
    ∀ a : Amount, ∃ written : FixedBytes 12,
      assetAmount.encode a = .ok written.bytes ∧ written.toInt = a.toInt ∧
      ∀ (raw : FixedBytes 12) (rest : Bytes),
        assetAmount.decode (raw.bytes ++ rest) = .ok (a, rest) ↔ raw = written := by
  constructor
  · intro raw rest
    rw [assetAmount_decode]
    constructor
    · intro within
      have repeats := repeats_iff_within.mpr within
      have units := eq_extended_iff.mp (eq_extended_lowAmount_iff.mpr repeats)
      exact ⟨lowAmount raw, units.symm, if_pos repeats⟩
    · intro outside
      exact if_neg (mt repeats_iff_within.mp outside)
  · intro a
    refine ⟨extended a, rfl, toInt_extended a, fun raw rest => ?_⟩
    constructor
    · intro read
      obtain ⟨-, front, wrote, same⟩ := assetAmount_lawful.canonical read
      cases wrote
      exact FixedBytes.ext (List.append_cancel_right same)
    · rintro rfl
      exact assetAmount_lawful.readsBack rest trivial rfl

/-- The least amount in twelve bytes. -/
def leastBytes : FixedBytes 12 := ⟨[255, 255, 255, 255, 128, 0, 0, 0, 0, 0, 0, 0], rfl⟩

/-- One unit above the largest amount. The last eight bytes alone denote the least. -/
def beyondBytes : FixedBytes 12 := ⟨[0, 0, 0, 0, 128, 0, 0, 0, 0, 0, 0, 0], rfl⟩

theorem assetAmount_twosComplement_atBounds :
    (leastBytes.toInt = -2 ^ 63 ∧ ∃ a : Amount, a.toInt = -2 ^ 63 ∧
      assetAmount.decode (leastBytes.bytes ++ [9]) = .ok (a, [9])) ∧
    beyondBytes.toInt = 2 ^ 63 ∧
      assetAmount.decode (beyondBytes.bytes ++ [9]) =
        .error (.amountOutOfRange beyondBytes.bytes) := by
  have least : leastBytes.toInt = -2 ^ 63 := by decide
  have beyond : beyondBytes.toInt = 2 ^ 63 := by decide
  obtain ⟨reads, -⟩ := assetAmount_twosComplement
  have found := (reads leastBytes [9]).1 (by rw [least]; decide)
  have refused := (reads beyondBytes [9]).2 (by rw [beyond]; decide)
  rw [least] at found
  exact ⟨⟨least, found⟩, beyond, refused⟩

end Codec

end ChainLedger

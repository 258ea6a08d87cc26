import ChainLedger.Hexadecimal
import ChainLedger.Proofs.Outcome
import Mathlib.Tactic.IntervalCases

/-!
# Bytes and their digits

The text that bytes are written as is read as those bytes: every digit is one byte of
the text, and has the value that it was written for.
-/

namespace ChainLedger.Hexadecimal

/-- The digit of a value below sixteen, as it stands in a text. -/
def digitByte (value : Nat) : UInt8 := (Nat.digitChar value).val.toUInt8

theorem utf8EncodeChar_digitChar :
    ∀ value < 16, String.utf8EncodeChar (Nat.digitChar value) = [digitByte value] := by
  decide

theorem digitValue_digitByte {value : Nat} (below : value < 16) (position : Nat) :
    digitValue (digitByte value) position = .ok (UInt8.ofNat value) := by
  interval_cases value <;> rfl

/-- The digits of bytes, as they stand in a text. -/
def digitBytes (bytes : Bytes) : Bytes :=
  bytes.flatMap fun b => [digitByte (b.toNat / 16), digitByte (b.toNat % 16)]

theorem bytesOf_encode (bytes : Bytes) : Text.bytesOf (encode bytes) = digitBytes bytes := by
  rw [Text.bytesOf, encode, String.toByteArray_ofList, List.utf8Encode, List.data_toByteArray,
    List.toList_toArray]
  induction bytes with
  | nil => rfl
  | cons b rest ih =>
    have bound := b.toNat_lt
    have high := utf8EncodeChar_digitChar (b.toNat / 16) (by omega)
    have low := utf8EncodeChar_digitChar (b.toNat % 16) (by omega)
    rw [List.flatMap_cons, List.flatMap_append, ih, digitsOf, List.flatMap_cons, high,
      List.flatMap_singleton, low]
    rfl

theorem length_digitBytes (bytes : Bytes) : (digitBytes bytes).length = 2 * bytes.length := by
  induction bytes with
  | nil => rfl
  | cons b rest ih =>
    rw [digitBytes, List.flatMap_cons] at *
    simp only [List.length_append, List.length_cons, List.length_nil]
    omega

/-- Two digits make up the byte that they were written for. -/
theorem byte_of_digits (b : UInt8) :
    16 * UInt8.ofNat (b.toNat / 16) + UInt8.ofNat (b.toNat % 16) = b := by
  apply UInt8.toNat_inj.mp
  have bound := b.toNat_lt
  have sixteen : (16 : UInt8).toNat = 16 := rfl
  simp only [UInt8.toNat_add, UInt8.toNat_mul, UInt8.toNat_ofNat', sixteen]
  omega

theorem decodeFrom_digitBytes (position : Nat) (bytes : Bytes) :
    decodeFrom position (digitBytes bytes) = .ok bytes := by
  induction bytes generalizing position with
  | nil => rfl
  | cons b rest ih =>
    have bound := b.toNat_lt
    have high : digitValue (digitByte (b.toNat / 16)) position = _ :=
      digitValue_digitByte (by omega) position
    have low : digitValue (digitByte (b.toNat % 16)) (position + 1) = _ :=
      digitValue_digitByte (by omega) (position + 1)
    have front : digitBytes (b :: rest) =
        digitByte (b.toNat / 16) :: digitByte (b.toNat % 16) :: digitBytes rest := rfl
    rw [front, decodeFrom, high, low]
    simp only [Except.bind_eq_ok_iff, Except.pure_eq_ok_iff]
    exact ⟨_, rfl, _, rfl, rest, ih (position + 2), by rw [byte_of_digits]⟩

/-- **The text that bytes are written as is read as those bytes.** -/
theorem decode_encode (bytes : Bytes) : decode (encode bytes) = .ok bytes := by
  have even : ¬2 * bytes.length % 2 = 1 := by omega
  simp only [decode, bytesOf_encode, length_digitBytes]
  rw [if_neg even, decodeFrom_digitBytes]

end ChainLedger.Hexadecimal

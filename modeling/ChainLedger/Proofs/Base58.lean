import ChainLedger.Base58
import Mathlib.Data.List.GetD
import Mathlib.Data.List.TakeWhile
import Mathlib.Data.Nat.Digits.Lemmas

/-!
# Base 58 is a bijection

A byte string and its base-58 text are two numerals of the same number, each with
as many zero digits in front as the other. `convert` is that change of base, and it
is its own inverse on numerals of either base, however many zeros they begin with.
Reading therefore undoes writing on every byte string, and a text that can be read
is the text that is written.
-/

namespace ChainLedger.Base58

/-! ## Digits of a number -/

theorem digits_eq {base : Nat} (atLeastTwo : 2 ≤ base) (n : Nat) :
    digits base n = Nat.digits base n := by
  induction n using Nat.strongRecOn with
  | ind n ih =>
    rw [digits]
    by_cases zero : n = 0
    · subst zero
      simp
    · have positive := Nat.pos_of_ne_zero zero
      rw [dif_neg (by omega), Nat.digits_of_two_le_of_pos atLeastTwo positive,
        ih _ (Nat.div_lt_self positive atLeastTwo)]

theorem ofDigits_eq (base : Nat) (digits : List Nat) :
    ofDigits base digits = Nat.ofDigits base digits := by
  rw [ofDigits, Nat.ofDigits_eq_foldr]
  rfl

theorem ofLittleEndian_eq (bytes : Bytes) :
    ofLittleEndian bytes = Nat.ofDigits 256 (bytes.map UInt8.toNat) := by
  induction bytes with
  | nil => rfl
  | cons byte rest ih => simp [ofLittleEndian, ih, Nat.ofDigits_cons]

/-! ## Changing the base of a numeral -/

/-- The zeros at the front of a numeral, most significant digit first. -/
def leadingZeros (numeral : List Nat) : Nat := (numeral.takeWhile (· == 0)).length

/-- The numeral of the same number in another base, with the same zeros at its front. -/
def convert (base target : Nat) (numeral : List Nat) : List Nat :=
  List.replicate (leadingZeros numeral) 0 ++
    (Nat.digits target (Nat.ofDigits base numeral.reverse)).reverse

/-- The digits of a number do not begin with a zero. -/
theorem takeWhile_digits (base n : Nat) :
    (Nat.digits base n).reverse.takeWhile (· == 0) = [] := by
  by_cases zero : n = 0
  · subst zero
    simp
  · have nonempty : Nat.digits base n ≠ [] := Nat.digits_ne_nil_iff_ne_zero.mpr zero
    have last := Nat.getLast_digit_ne_zero base zero
    rw [← List.dropLast_append_getLast nonempty, List.reverse_append]
    simp [last]

theorem leadingZeros_convert (base target : Nat) (numeral : List Nat) :
    leadingZeros (convert base target numeral) = leadingZeros numeral := by
  rw [leadingZeros, convert, List.takeWhile_append_of_pos (by simp),
    takeWhile_digits]
  simp

theorem ofDigits_convert (base target : Nat) (numeral : List Nat) :
    Nat.ofDigits target (convert base target numeral).reverse =
      Nat.ofDigits base numeral.reverse := by
  simp [convert, Nat.ofDigits_append_replicate_zero, Nat.ofDigits_digits]

/-- A numeral is its zeros in front and the digits of its number. -/
theorem convert_self {base : Nat} (atLeastTwo : 2 ≤ base) {numeral : List Nat}
    (below : ∀ digit ∈ numeral, digit < base) : convert base base numeral = numeral := by
  have zeros : numeral.takeWhile (· == 0) = List.replicate (leadingZeros numeral) 0 := by
    refine List.eq_replicate_iff.mpr ⟨rfl, fun digit member => ?_⟩
    simpa using List.mem_takeWhile_imp member
  have split : List.replicate (leadingZeros numeral) 0 ++ numeral.dropWhile (· == 0) = numeral := by
    rw [← zeros, List.takeWhile_append_dropWhile]
  generalize tailEq : numeral.dropWhile (· == 0) = tail at split
  have number : Nat.ofDigits base numeral.reverse = Nat.ofDigits base tail.reverse := by
    rw [← split, List.reverse_append, List.reverse_replicate, Nat.ofDigits_append_replicate_zero]
  have belowTail : ∀ digit ∈ tail.reverse, digit < base := by
    intro digit member
    refine below digit (split ▸ List.mem_append_right _ ?_)
    simpa using member
  have lastNonzero : ∀ nonempty : tail.reverse ≠ [], tail.reverse.getLast nonempty ≠ 0 := by
    intro nonempty
    have nonempty' : numeral.dropWhile (· == 0) ≠ [] := by simpa [tailEq] using nonempty
    have head := List.head_dropWhile_not (· == 0) nonempty'
    simpa [tailEq] using head
  rw [convert, number, Nat.digits_ofDigits base (by omega) _ belowTail lastNonzero,
    List.reverse_reverse, split]

theorem convert_convert {base : Nat} (atLeastTwo : 2 ≤ base) (target : Nat) {numeral : List Nat}
    (below : ∀ digit ∈ numeral, digit < base) :
    convert target base (convert base target numeral) = numeral := by
  rw [convert, leadingZeros_convert, ofDigits_convert]
  exact convert_self atLeastTwo below

theorem convert_lt {base target : Nat} (atLeastTwo : 2 ≤ target) (numeral : List Nat) :
    ∀ digit ∈ convert base target numeral, digit < target := by
  intro digit member
  rcases List.mem_append.mp member with zero | significant
  · rw [List.eq_of_mem_replicate zero]
    omega
  · exact Nat.digits_lt_base (by omega) (List.mem_reverse.mp significant)

/-! ## Characters and their values -/

/-- The alphabet is ASCII and no character stands in it twice. -/
theorem digitChar_spec : ∀ value < 58,
    (digitChar value).toNat ≤ 127 ∧ alphabet.idxOf? (digitChar value) = some value := by
  decide

theorem digitChar_of_idxOf? {c : Char} {value : Nat} (found : alphabet.idxOf? c = some value) :
    value < 58 ∧ digitChar value = c := by
  obtain ⟨inside, same, -⟩ := List.idxOf?_eq_some_iff.mp found
  exact ⟨inside, by rw [digitChar, List.getD_eq_getElem _ _ inside, same]⟩

theorem valuesFrom_map_digitChar {values : List Nat} (below : ∀ value ∈ values, value < 58)
    (position : Nat) : valuesFrom position (values.map digitChar) = .ok values := by
  induction values generalizing position with
  | nil => rfl
  | cons value rest ih =>
    obtain ⟨ascii, found⟩ := digitChar_spec value (below value List.mem_cons_self)
    rw [List.map_cons, valuesFrom, if_neg (Nat.not_lt.mpr ascii), found]
    simp [ih (fun v member => below v (List.mem_cons_of_mem _ member)), Except.map]

theorem eq_map_digitChar {position : Nat} {chars : List Char} {values : List Nat}
    (read : valuesFrom position chars = .ok values) :
    chars = values.map digitChar ∧ ∀ value ∈ values, value < 58 := by
  induction chars generalizing position values with
  | nil =>
    cases read
    simp
  | cons c rest ih =>
    rw [valuesFrom] at read
    split at read
    · cases read
    · split at read
      · cases read
      next value found =>
        obtain ⟨inside, same⟩ := digitChar_of_idxOf? found
        cases tail : valuesFrom (position + 1) rest with
        | error => simp [tail, Except.map] at read
        | ok others =>
          obtain ⟨restEq, below⟩ := ih tail
          simp only [tail, Except.map, Except.ok.injEq] at read
          subst read
          simp [restEq, same, inside]
          simpa using below

/-! ## Reading and writing -/

theorem encodeChars_eq (bytes : Bytes) :
    encodeChars bytes = (convert 256 58 (bytes.map UInt8.toNat)).map digitChar := by
  have zeros : (bytes.takeWhile (· == 0)).length = leadingZeros (bytes.map UInt8.toNat) := by
    rw [leadingZeros, List.takeWhile_map, List.length_map]
    congr 2
    funext byte
    simp [Bool.beq_eq_decide_eq, ← UInt8.toNat_inj]
  rw [encodeChars, zeros, digits_eq (by omega), ofBigEndian, ofLittleEndian_eq, convert,
    List.map_append, List.map_replicate, List.map_reverse, List.map_reverse]
  rfl

theorem ofValues_eq (values : List Nat) :
    ofValues values = (convert 58 256 values).map UInt8.ofNat := by
  rw [ofValues, digits_eq (by omega), ofDigits_eq, convert, List.map_append, List.map_replicate,
    List.map_reverse]
  rfl

theorem map_ofNat_toNat (bytes : Bytes) : (bytes.map UInt8.toNat).map UInt8.ofNat = bytes := by
  simp [Function.comp_def]

theorem map_toNat_ofNat {values : List Nat} (below : ∀ value ∈ values, value < 256) :
    (values.map UInt8.ofNat).map UInt8.toNat = values := by
  rw [List.map_map]
  refine (List.map_congr_left fun value member => ?_).trans (List.map_id values)
  exact UInt8.toNat_ofNat_of_lt' (below value member)

/-- Every byte string is read back from its text. -/
theorem decode_encode (bytes : Bytes) : decode (encode bytes) = .ok bytes := by
  have below : ∀ digit ∈ bytes.map UInt8.toNat, digit < 256 := by
    intro digit member
    rcases List.mem_map.mp member with ⟨byte, -, rfl⟩
    exact byte.toNat_lt
  rw [decode, encode, String.toList_ofList, encodeChars_eq,
    valuesFrom_map_digitChar (convert_lt (by omega) _)]
  rw [Except.map, ofValues_eq, convert_convert (by omega) _ below, map_ofNat_toNat]

/-- A text that can be read is the text of what it is read as. -/
theorem encode_of_decode {text : String} {bytes : Bytes} (read : decode text = .ok bytes) :
    encode bytes = text := by
  rw [decode] at read
  cases values : valuesFrom 0 text.toList with
  | error => simp [values, Except.map] at read
  | ok digits =>
    obtain ⟨chars, below⟩ := eq_map_digitChar values
    simp only [values, Except.map, Except.ok.injEq] at read
    rw [← read, encode, encodeChars_eq, ofValues_eq,
      map_toNat_ofNat (convert_lt (by omega) digits),
      convert_convert (by omega) _ below, ← chars, String.ofList_toList]

/-! ## Sizes -/

theorem wordValues_eq (width : Nat) : wordValues width = 256 ^ width := by
  induction width with
  | zero => rfl
  | succ width ih => rw [wordValues, ih, Nat.pow_succ, Nat.mul_comm]

/-- A byte takes at most two characters, and a zero at the start another one. -/
theorem length_encodeChars_le (bytes : Bytes) :
    (encodeChars bytes).length ≤ 3 * bytes.length := by
  have zeros : (bytes.takeWhile (· == 0)).length ≤ bytes.length :=
    (List.takeWhile_sublist _).length_le
  have number : ofBigEndian bytes < 58 ^ (2 * bytes.length) := by
    have below := ofBigEndian_lt bytes
    rw [wordValues_eq] at below
    refine Nat.lt_of_lt_of_le below ?_
    rw [Nat.pow_mul]
    exact Nat.pow_le_pow_left (by decide) _
  have significant := (Nat.digits_length_le_iff (by omega) _).mpr number
  rw [encodeChars, digits_eq (by omega), List.length_append, List.length_replicate,
    List.length_reverse, List.length_map]
  omega

/-- A character takes at most four bytes. -/
theorem utf8ByteSize_ofList_le (chars : List Char) :
    (String.ofList chars).utf8ByteSize ≤ 4 * chars.length := by
  induction chars with
  | nil => decide
  | cons c rest ih =>
    have first := c.utf8Size_le_four
    rw [String.ofList_cons, String.utf8ByteSize_append, String.utf8ByteSize_singleton,
      List.length_cons]
    omega

theorem size_encode_le (bytes : Bytes) : (encode bytes).utf8ByteSize ≤ 12 * bytes.length := by
  have chars := length_encodeChars_le bytes
  have size := utf8ByteSize_ofList_le (encodeChars bytes)
  change (String.ofList (encodeChars bytes)).utf8ByteSize ≤ _
  omega

end ChainLedger.Base58

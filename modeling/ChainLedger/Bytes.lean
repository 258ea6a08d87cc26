/-!
# Bytes and fixed-width words

Byte strings are lists of bytes. A `FixedBytes n` carries its length in its type,
and a word is written as its `n` base-256 digits, most significant first
(`bigEndian`) or least significant first (`littleEndian`). Both writers keep only
the low `n` digits of a number; both readers accept any number of digits.
-/

namespace ChainLedger

/-- A byte string. -/
abbrev Bytes := List UInt8

/-! ## Byte strings of a fixed length -/

/-- A byte string of exactly `n` bytes. -/
structure FixedBytes (n : Nat) where
  bytes : Bytes
  length_eq : bytes.length = n
deriving DecidableEq

namespace FixedBytes

variable {n : Nat}

/-- The byte string as a value of length `n`, if that is its length. -/
def ofBytes? (bytes : Bytes) : Option (FixedBytes n) :=
  if length_eq : bytes.length = n then some ⟨bytes, length_eq⟩ else none

/-- The byte `b` repeated `n` times. -/
def fill (b : UInt8) : FixedBytes n :=
  ⟨List.replicate n b, List.length_replicate⟩

/-- The `n` zero bytes. -/
def zero : FixedBytes n := fill 0

@[ext] theorem ext {a b : FixedBytes n} (bytes : a.bytes = b.bytes) : a = b := by
  cases a; cases b; simp_all

@[simp] theorem length_bytes (a : FixedBytes n) : a.bytes.length = n := a.length_eq

@[simp] theorem ofBytes?_bytes (a : FixedBytes n) : ofBytes? a.bytes = some a := by
  simp [ofBytes?]

theorem ofBytes?_eq_some_iff {bytes : Bytes} {a : FixedBytes n} :
    ofBytes? bytes = some a ↔ bytes = a.bytes := by
  constructor
  · intro h
    unfold ofBytes? at h
    split at h
    · cases h; rfl
    · cases h
  · rintro rfl
    exact ofBytes?_bytes a

instance : Inhabited (FixedBytes n) := ⟨zero⟩

end FixedBytes

/-! ## Base-256 digits -/

/-- The low `width` base-256 digits of `value`, least significant first. -/
def littleEndian : (width value : Nat) → Bytes
  | 0, _ => []
  | width + 1, value => UInt8.ofNat value :: littleEndian width (value / 256)

/-- The number whose base-256 digits are `bytes`, least significant first. -/
def ofLittleEndian : (bytes : Bytes) → Nat
  | [] => 0
  | digit :: rest => digit.toNat + 256 * ofLittleEndian rest

/-- The low `width` base-256 digits of `value`, most significant first. -/
def bigEndian (width value : Nat) : Bytes := (littleEndian width value).reverse

/-- The number whose base-256 digits are `bytes`, most significant first. -/
def ofBigEndian (bytes : Bytes) : Nat := ofLittleEndian bytes.reverse

/-- The number of values of a word: one more than the largest. -/
def wordValues : (width : Nat) → Nat
  | 0 => 1
  | width + 1 => 256 * wordValues width

@[simp] theorem length_littleEndian (width value : Nat) :
    (littleEndian width value).length = width := by
  induction width generalizing value with
  | zero => rfl
  | succ width ih => simp [littleEndian, ih]

@[simp] theorem length_bigEndian (width value : Nat) : (bigEndian width value).length = width := by
  simp [bigEndian]

/-- Reading digits gives back the number they were written from, up to the width. -/
theorem ofLittleEndian_littleEndian (width value : Nat) :
    ofLittleEndian (littleEndian width value) = value % wordValues width := by
  induction width generalizing value with
  | zero => simp [littleEndian, ofLittleEndian, wordValues, Nat.mod_one]
  | succ width ih =>
    have byte : (UInt8.ofNat value).toNat = value % 256 := UInt8.toNat_ofNat'
    rw [littleEndian, ofLittleEndian, ih, byte, wordValues, Nat.mod_mul]

/-- Writing the number that digits denote gives back the digits. -/
theorem littleEndian_ofLittleEndian (bytes : Bytes) :
    littleEndian bytes.length (ofLittleEndian bytes) = bytes := by
  induction bytes with
  | nil => rfl
  | cons digit rest ih =>
    have low : UInt8.ofNat (digit.toNat + 256 * ofLittleEndian rest) = digit := by
      apply UInt8.toNat_inj.mp
      have bound := digit.toNat_lt
      rw [UInt8.toNat_ofNat']
      omega
    have high : (digit.toNat + 256 * ofLittleEndian rest) / 256 = ofLittleEndian rest := by
      have := digit.toNat_lt
      omega
    simp [littleEndian, ofLittleEndian, low, high, ih]

theorem ofLittleEndian_lt (bytes : Bytes) : ofLittleEndian bytes < wordValues bytes.length := by
  induction bytes with
  | nil => simp [ofLittleEndian, wordValues]
  | cons digit rest ih =>
    have := digit.toNat_lt
    simp only [ofLittleEndian, List.length_cons, wordValues]
    omega

theorem ofBigEndian_bigEndian (width value : Nat) :
    ofBigEndian (bigEndian width value) = value % wordValues width := by
  simp [ofBigEndian, bigEndian, ofLittleEndian_littleEndian]

theorem bigEndian_ofBigEndian (bytes : Bytes) :
    bigEndian bytes.length (ofBigEndian bytes) = bytes := by
  have h := littleEndian_ofLittleEndian bytes.reverse
  rw [List.length_reverse] at h
  simp [ofBigEndian, bigEndian, h]

theorem ofBigEndian_lt (bytes : Bytes) : ofBigEndian bytes < wordValues bytes.length := by
  simpa [ofBigEndian] using ofLittleEndian_lt bytes.reverse

theorem wordValues_add (width width' : Nat) :
    wordValues (width + width') = wordValues width * wordValues width' := by
  induction width with
  | zero => simp [wordValues]
  | succ width ih => rw [Nat.succ_add, wordValues, wordValues, ih, Nat.mul_assoc]

theorem ofLittleEndian_append (low high : Bytes) :
    ofLittleEndian (low ++ high) =
      ofLittleEndian low + wordValues low.length * ofLittleEndian high := by
  induction low with
  | nil => simp [ofLittleEndian, wordValues]
  | cons digit rest ih =>
    simp only [List.cons_append, ofLittleEndian, ih, List.length_cons, wordValues]
    rw [Nat.mul_add, Nat.mul_assoc, Nat.add_assoc]

theorem ofBigEndian_append (high low : Bytes) :
    ofBigEndian (high ++ low) = wordValues low.length * ofBigEndian high + ofBigEndian low := by
  simp [ofBigEndian, ofLittleEndian_append, Nat.add_comm]

/-! ## Cutting a byte string into pieces -/

/-- The consecutive pieces of `size` bytes; the last one may be shorter. -/
def chunks (size : Nat) (bytes : Bytes) : List Bytes :=
  if nothing : bytes = [] ∨ size = 0 then []
  else
    have := List.length_pos_iff.mpr (not_or.mp nothing).1
    bytes.take size :: chunks size (bytes.drop size)
termination_by bytes.length
decreasing_by simp only [List.length_drop]; omega

end ChainLedger

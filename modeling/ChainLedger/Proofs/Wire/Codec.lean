import ChainLedger.Proofs.Address
import ChainLedger.Proofs.Outcome
import ChainLedger.Wire.Codec

/-!
# Laws of codecs

A codec is lawful on a domain of values if it reads back every value of the domain
that it can write, whatever follows the bytes, and if it reads nothing but a value of
the domain from the very bytes that it writes for it. Both laws pass from codecs to
the codecs that are built from them, so that a layout has them as soon as its fields
do.

The two codecs that look beyond their own fields are the count of a list, which has
to pass a check when it is read, and bytes that are bounded by what is left of the
input. The first is lawful on lists whose count passes; the bound of the second is
never smaller than what was written.
-/

namespace ChainLedger.Codec

variable {α β : Type}

/-- The codec and its values determine the bytes, and the bytes the values. -/
structure LawfulOn (codec : Codec α) (domain : α → Prop) : Prop where
  /-- A written value of the domain is read back, whatever follows it. -/
  readsBack : ∀ {value bytes} (rest : Bytes), domain value → codec.encode value = .ok bytes →
    codec.decode (bytes ++ rest) = .ok (value, rest)
  /-- A value that is read is one of the domain, and was read from the bytes it is written as. -/
  canonical : ∀ {bytes value rest}, codec.decode bytes = .ok (value, rest) →
    domain value ∧ ∃ front, codec.encode value = .ok front ∧ bytes = front ++ rest

/-- The codec is lawful on all its values. -/
abbrev Lawful (codec : Codec α) : Prop := codec.LawfulOn fun _ => True

/-! ## Combining codecs -/

/-- Two pieces are written one after the other, if both can be written. -/
theorem append_eq_ok_iff {first second : Except WireError Bytes} {bytes : Bytes} :
    (do let front ← first; let back ← second; return front ++ back) = .ok bytes ↔
      ∃ front back, first = .ok front ∧ second = .ok back ∧ bytes = front ++ back := by
  simp only [Except.bind_eq_ok_iff, Except.pure_eq_ok_iff]
  constructor
  · intro holds
    rcases holds with ⟨front, wroteFront, back, wroteBack, rfl⟩
    exact ⟨front, back, wroteFront, wroteBack, rfl⟩
  · intro holds
    rcases holds with ⟨front, back, wroteFront, wroteBack, rfl⟩
    exact ⟨front, wroteFront, back, wroteBack, rfl⟩

theorem pair_encode_eq_ok {first : Codec α} {second : Codec β} {value : α × β} {bytes : Bytes} :
    (first.pair second).encode value = .ok bytes ↔
      ∃ front back, first.encode value.1 = .ok front ∧ second.encode value.2 = .ok back ∧
        bytes = front ++ back :=
  append_eq_ok_iff

/-- What two codecs write is written by their pair. -/
theorem encode_pair {first : Codec α} {second : Codec β} {a : α} {b : β} {front back : Bytes}
    (wrote : first.encode a = .ok front) (wrote' : second.encode b = .ok back) :
    (first.pair second).encode (a, b) = .ok (front ++ back) :=
  pair_encode_eq_ok.mpr ⟨front, back, wrote, wrote', rfl⟩

theorem pair_decode_eq_ok {first : Codec α} {second : Codec β} {value : α × β}
    {bytes rest : Bytes} :
    (first.pair second).decode bytes = .ok (value, rest) ↔
      ∃ middle, first.decode bytes = .ok (value.1, middle) ∧
        second.decode middle = .ok (value.2, rest) := by
  simp only [pair, Except.bind_eq_ok_iff, Except.pure_eq_ok_iff, Prod.exists]
  constructor
  · intro holds
    rcases holds with ⟨a, middle, readFirst, b, last, readSecond, same⟩
    cases same
    exact ⟨middle, readFirst, readSecond⟩
  · intro holds
    rcases holds with ⟨middle, readFirst, readSecond⟩
    exact ⟨_, middle, readFirst, _, rest, readSecond, rfl⟩

theorem LawfulOn.pair {first : Codec α} {second : Codec β} {domain : α → Prop}
    {domain' : β → Prop} (law : first.LawfulOn domain) (law' : second.LawfulOn domain') :
    (first.pair second).LawfulOn fun value => domain value.1 ∧ domain' value.2 where
  readsBack rest inside wrote := by
    rcases pair_encode_eq_ok.mp wrote with ⟨front, back, wroteFront, wroteBack, rfl⟩
    refine pair_decode_eq_ok.mpr ⟨back ++ rest, ?_, law'.readsBack rest inside.2 wroteBack⟩
    rw [List.append_assoc]
    exact law.readsBack _ inside.1 wroteFront
  canonical read := by
    rcases pair_decode_eq_ok.mp read with ⟨middle, readFirst, readSecond⟩
    obtain ⟨inside, front, wroteFront, rfl⟩ := law.canonical readFirst
    obtain ⟨inside', back, wroteBack, rfl⟩ := law'.canonical readSecond
    exact ⟨⟨inside, inside'⟩, front ++ back,
      pair_encode_eq_ok.mpr ⟨front, back, wroteFront, wroteBack, rfl⟩,
      (List.append_assoc ..).symm⟩

theorem refine_encode_eq_ok {codec : Codec α} {read : α → Except WireError β}
    {write : β → Except WireError α} {value : β} {bytes : Bytes} :
    (codec.refine read write).encode value = .ok bytes ↔
      ∃ a, write value = .ok a ∧ codec.encode a = .ok bytes := by
  simp only [refine, Except.bind_eq_ok_iff]

theorem encode_iso {codec : Codec α} {read : α → β} {write : β → α} {b : β} {bytes : Bytes}
    (wrote : codec.encode (write b) = .ok bytes) : (codec.iso read write).encode b = .ok bytes :=
  refine_encode_eq_ok.mpr ⟨_, rfl, wrote⟩

theorem refine_decode_eq_ok {codec : Codec α} {read : α → Except WireError β}
    {write : β → Except WireError α} {value : β} {bytes rest : Bytes} :
    (codec.refine read write).decode bytes = .ok (value, rest) ↔
      ∃ a, codec.decode bytes = .ok (a, rest) ∧ read a = .ok value := by
  simp only [refine, Except.bind_eq_ok_iff, Except.pure_eq_ok_iff, Prod.exists]
  constructor
  · intro holds
    rcases holds with ⟨a, last, readBytes, b, readValue, same⟩
    cases same
    exact ⟨a, readBytes, readValue⟩
  · intro holds
    rcases holds with ⟨a, readBytes, readValue⟩
    exact ⟨a, rest, readBytes, value, readValue, rfl⟩

/-- What was read is converted, and a failure to convert it is one to read. -/
theorem refine_decode {codec : Codec α} {read : α → Except WireError β}
    {write : β → Except WireError α} {a : α} {bytes rest : Bytes}
    (found : codec.decode bytes = .ok (a, rest)) :
    (codec.refine read write).decode bytes = (read a).map fun b => (b, rest) := by
  simp only [refine, found]
  change (read a >>= fun b => pure (b, rest)) = _
  cases read a <;> rfl

/-- Conversions that undo each other, where they succeed, keep a codec lawful. -/
theorem LawfulOn.refine {codec : Codec α} {domain : α → Prop} {domain' : β → Prop}
    {read : α → Except WireError β} {write : β → Except WireError α}
    (law : codec.LawfulOn domain)
    (readWritten : ∀ {a b}, domain' b → write b = .ok a → domain a ∧ read a = .ok b)
    (writeRead : ∀ {a b}, domain a → read a = .ok b → domain' b ∧ write b = .ok a) :
    (codec.refine read write).LawfulOn domain' where
  readsBack rest inside wrote := by
    rcases refine_encode_eq_ok.mp wrote with ⟨a, written, wroteBytes⟩
    obtain ⟨inside', readBack⟩ := readWritten inside written
    exact refine_decode_eq_ok.mpr ⟨a, law.readsBack rest inside' wroteBytes, readBack⟩
  canonical found := by
    rcases refine_decode_eq_ok.mp found with ⟨a, readBytes, readValue⟩
    obtain ⟨inside, front, wroteFront, rfl⟩ := law.canonical readBytes
    obtain ⟨inside', written⟩ := writeRead inside readValue
    exact ⟨inside', front, refine_encode_eq_ok.mpr ⟨a, written, wroteFront⟩, rfl⟩

theorem LawfulOn.iso {codec : Codec α} {domain : α → Prop} {domain' : β → Prop} {read : α → β}
    {write : β → α} (law : codec.LawfulOn domain)
    (readWritten : ∀ {b}, domain' b → domain (write b) ∧ read (write b) = b)
    (writeRead : ∀ {a}, domain a → domain' (read a) ∧ write (read a) = a) :
    (codec.iso read write).LawfulOn domain' := by
  refine law.refine ?_ ?_
  · rintro _ b inside ⟨⟩
    exact ⟨(readWritten inside).1, by rw [(readWritten inside).2]⟩
  · rintro a _ inside ⟨⟩
    exact ⟨(writeRead inside).1, by rw [(writeRead inside).2]⟩

/-! ## Lists -/

theorem encodeList_cons_eq_ok {item : Codec α} {a : α} {as : List α} {bytes : Bytes} :
    encodeList item (a :: as) = .ok bytes ↔
      ∃ front back, item.encode a = .ok front ∧ encodeList item as = .ok back ∧
        bytes = front ++ back :=
  append_eq_ok_iff

theorem decodeList_succ_eq_ok {item : Codec α} {count : Nat} {values : List α}
    {bytes rest : Bytes} :
    decodeList item (count + 1) bytes = .ok (values, rest) ↔
      ∃ a as middle, values = a :: as ∧ item.decode bytes = .ok (a, middle) ∧
        decodeList item count middle = .ok (as, rest) := by
  simp only [decodeList, Except.bind_eq_ok_iff, Except.pure_eq_ok_iff, Prod.exists]
  constructor
  · intro holds
    rcases holds with ⟨a, middle, readHead, as, last, readTail, same⟩
    cases same
    exact ⟨a, as, middle, rfl, readHead, readTail⟩
  · intro holds
    rcases holds with ⟨a, as, middle, rfl, readHead, readTail⟩
    exact ⟨a, middle, readHead, as, rest, readTail, rfl⟩

theorem Lawful.decodeList_encodeList {item : Codec α} (law : item.Lawful) {values : List α}
    {bytes : Bytes} (rest : Bytes) (wrote : encodeList item values = .ok bytes) :
    decodeList item values.length (bytes ++ rest) = .ok (values, rest) := by
  induction values generalizing bytes with
  | nil =>
    cases wrote
    rfl
  | cons a as ih =>
    rcases encodeList_cons_eq_ok.mp wrote with ⟨front, back, wroteFront, wroteBack, rfl⟩
    refine decodeList_succ_eq_ok.mpr ⟨a, as, back ++ rest, rfl, ?_, ih wroteBack⟩
    rw [List.append_assoc]
    exact law.readsBack _ trivial wroteFront

theorem Lawful.encodeList_decodeList {item : Codec α} (law : item.Lawful) {count : Nat}
    {values : List α} {bytes rest : Bytes}
    (read : decodeList item count bytes = .ok (values, rest)) :
    values.length = count ∧
      ∃ front, encodeList item values = .ok front ∧ bytes = front ++ rest := by
  induction count generalizing bytes values with
  | zero =>
    cases read
    exact ⟨rfl, [], rfl, rfl⟩
  | succ count ih =>
    rcases decodeList_succ_eq_ok.mp read with ⟨a, as, middle, rfl, readHead, readTail⟩
    obtain ⟨-, front, wroteFront, rfl⟩ := law.canonical readHead
    obtain ⟨counted, back, wroteBack, rfl⟩ := ih readTail
    exact ⟨by rw [List.length_cons, counted], front ++ back,
      encodeList_cons_eq_ok.mpr ⟨front, back, wroteFront, wroteBack, rfl⟩,
      (List.append_assoc ..).symm⟩

/-! ## Bytes and words -/

theorem take_eq_ok_iff {count : Nat} {bytes value rest : Bytes} :
    take count bytes = .ok (value, rest) ↔ value.length = count ∧ bytes = value ++ rest := by
  rw [take]
  split
  next short =>
    constructor
    · intro h
      cases h
    · intro holds
      rcases holds with ⟨sized, rfl⟩
      rw [List.length_append] at short
      omega
  next enough =>
    rw [Except.ok.injEq, Prod.mk.injEq]
    constructor
    · intro holds
      rcases holds with ⟨rfl, rfl⟩
      exact ⟨List.length_take_of_le (by omega), (List.take_append_drop ..).symm⟩
    · intro holds
      rcases holds with ⟨rfl, rfl⟩
      exact ⟨List.take_left, List.drop_left⟩

theorem fixed_decode_eq_ok {n : Nat} {value : FixedBytes n} {bytes rest : Bytes} :
    (fixed n).decode bytes = .ok (value, rest) ↔ bytes = value.bytes ++ rest := by
  simp only [fixed]
  split
  next enough =>
    rw [Except.ok.injEq, Prod.mk.injEq, FixedBytes.ext_iff]
    constructor
    · intro holds
      rcases holds with ⟨front, rfl⟩
      rw [← front, List.take_append_drop]
    · rintro rfl
      exact ⟨List.take_left' value.length_eq, List.drop_left' value.length_eq⟩
  next short =>
    constructor
    · intro h
      cases h
    · rintro rfl
      simp at short

theorem fixed_lawful (n : Nat) : (fixed n).Lawful where
  readsBack rest _ wrote := by
    cases wrote
    exact fixed_decode_eq_ok.mpr rfl
  canonical read := ⟨trivial, _, rfl, fixed_decode_eq_ok.mp read⟩

theorem signature_lawful : signature.Lawful := fixed_lawful 64

theorem publicKey_lawful : publicKey.Lawful := fixed_lawful 32

/-- A word is lawful on the numbers that its bytes can hold. -/
theorem word_lawful (n : Nat) : (word n).LawfulOn fun value => value < wordValues n := by
  refine (fixed_lawful n).iso ?_ ?_
  · intro value small
    exact ⟨trivial, by rw [ofBigEndian_bigEndian, Nat.mod_eq_of_lt small]⟩
  · intro raw _
    have small := ofBigEndian_lt raw.bytes
    have digits := bigEndian_ofBigEndian raw.bytes
    rw [raw.length_eq] at small digits
    exact ⟨small, FixedBytes.ext digits⟩

theorem byte_lawful : byte.Lawful := by
  refine (word_lawful 1).iso ?_ ?_
  · intro value _
    exact ⟨value.toNat_lt, UInt8.ofNat_toNat⟩
  · intro value small
    exact ⟨trivial, UInt8.toNat_ofNat_of_lt' small⟩

theorem uint64_lawful : uint64.Lawful := by
  refine (word_lawful 8).iso ?_ ?_
  · intro value _
    exact ⟨value.toNat_lt, UInt64.ofNat_toNat⟩
  · intro value small
    exact ⟨trivial, UInt64.toNat_ofNat_of_lt' small⟩

theorem int64_lawful : int64.Lawful :=
  uint64_lawful.iso (fun _ => ⟨trivial, by simp⟩) (fun _ => ⟨trivial, by simp⟩)

theorem int32_lawful : int32.Lawful := by
  refine (word_lawful 4).iso ?_ ?_
  · intro value _
    exact ⟨value.toUInt32.toNat_lt, by simp⟩
  · intro value small
    exact ⟨trivial, UInt32.toNat_ofNat_of_lt' small⟩

/-! ## Values -/

theorem bool_lawful (field : String) : (bool field).Lawful := by
  refine byte_lawful.refine ?_ ?_
  · rintro _ value - ⟨⟩
    cases value <;> exact ⟨trivial, rfl⟩
  · intro flag value _ read
    split at read
    next zero =>
      cases read
      exact ⟨trivial, by rw [zero]; rfl⟩
    next nonzero =>
      split at read
      next one =>
        cases read
        exact ⟨trivial, by rw [one]; rfl⟩
      next => cases read

theorem address_lawful : address.Lawful := by
  refine (fixed_lawful 25).refine ?_ ?_
  · intro raw a _ wrote
    have found := Except.mapError_eq_ok_iff.mp wrote
    exact ⟨trivial, Except.mapError_eq_ok_iff.mpr (Address.ofRaw_of_toRaw found)⟩
  · intro raw a _ read
    have checked := Except.mapError_eq_ok_iff.mp read
    exact ⟨trivial, Except.mapError_eq_ok_iff.mpr (Address.toRaw_of_ofRaw checked)⟩

theorem amount_lawful : amount.Lawful :=
  int64_lawful.iso (fun _ => ⟨trivial, rfl⟩) (fun _ => ⟨trivial, rfl⟩)

theorem lowAmount_extended (a : Amount) : lowAmount (extended a) = a := by
  have low : (extended a).bytes.drop 4 = bigEndian 8 a.units.toUInt64.toNat :=
    List.drop_left' (List.length_replicate ..)
  have small : a.units.toUInt64.toNat < wordValues 8 := a.units.toUInt64.toNat_lt
  rw [lowAmount, low, ofBigEndian_bigEndian, Nat.mod_eq_of_lt small, UInt64.ofNat_toNat,
    Int64.toInt64_toUInt64]

/-- Of the twelve-byte strings, only the one that extends an amount is read as it. -/
theorem assetAmount_lawful : assetAmount.Lawful := by
  refine (fixed_lawful 12).refine ?_ ?_
  · rintro _ a - ⟨⟩
    exact ⟨trivial, by rw [if_pos (by rw [lowAmount_extended]), lowAmount_extended]⟩
  · intro raw a _ read
    split at read
    next extends_ =>
      cases read
      exact ⟨trivial, by rw [← extends_]⟩
    next => cases read

/-! ## Lengths -/

theorem length_encode_eq_ok {field : String} {max size : Nat} {bytes : Bytes} :
    (length field max).encode size = .ok bytes ↔
      size ≤ max ∧ size ≤ maxLength ∧ int32.encode (Int32.ofNat size) = .ok bytes := by
  rw [length, refine_encode_eq_ok]
  by_cases bounded : size > max
  · simp [bounded, Nat.not_le.mpr bounded]
  · by_cases representable : size > maxLength
    · simp [bounded, representable, Nat.not_le.mpr representable]
    · simp [bounded, representable, Nat.not_lt.mp bounded, Nat.not_lt.mp representable]

theorem length_lawful (field : String) (max : Nat) : (length field max).Lawful := by
  refine int32_lawful.refine ?_ ?_
  · intro declared size _ wrote
    split at wrote
    · cases wrote
    next bounded =>
      split at wrote
      · cases wrote
      next representable =>
        cases wrote
        have value : (Int32.ofNat size).toInt = size :=
          Int32.toInt_ofNat_of_lt (Nat.lt_succ_of_le (Nat.not_lt.mp representable))
        have nonnegative : ¬Int32.ofNat size < 0 := by
          rw [Int32.lt_iff_toInt_lt, value]
          exact Int.not_lt.mpr (Int.natCast_nonneg size)
        exact ⟨trivial, by rw [if_neg nonnegative, value, Int.toNat_natCast, if_neg bounded]⟩
  · intro declared size _ read
    split at read
    · cases read
    next nonnegative =>
      split at read
      · cases read
      next bounded =>
        cases read
        have representable : ¬declared.toInt.toNat > maxLength :=
          Nat.not_lt.mpr (Nat.le_of_lt_succ declared.toNatClampNeg_lt)
        rw [if_neg bounded, if_neg representable, Int32.toNat_toInt,
          Int32.ofNat_toNatClampNeg _ (Int32.not_lt.mp nonnegative)]
        exact ⟨trivial, rfl⟩

theorem sized_encode_eq_ok {field : String} {max : Nat} {value bytes : Bytes} :
    (sized field max).encode value = .ok bytes ↔
      ∃ front, (length field max).encode value.length = .ok front ∧ bytes = front ++ value := by
  simp only [sized, Except.bind_eq_ok_iff, Except.pure_eq_ok_iff]
  exact exists_congr fun front => and_congr_right fun _ => eq_comm

theorem sized_decode_eq_ok {field : String} {max : Nat} {value bytes rest : Bytes} :
    (sized field max).decode bytes = .ok (value, rest) ↔
      (length field max).decode bytes = .ok (value.length, value ++ rest) := by
  simp only [sized, Except.bind_eq_ok_iff, Prod.exists]
  constructor
  · intro holds
    rcases holds with ⟨size, middle, readSize, taken⟩
    rcases take_eq_ok_iff.mp taken with ⟨rfl, rfl⟩
    exact readSize
  · intro readSize
    exact ⟨_, _, readSize, take_eq_ok_iff.mpr ⟨rfl, rfl⟩⟩

theorem sized_lawful (field : String) (max : Nat) : (sized field max).Lawful where
  readsBack rest _ wrote := by
    rcases sized_encode_eq_ok.mp wrote with ⟨front, wroteLength, rfl⟩
    rw [sized_decode_eq_ok, List.append_assoc]
    exact (length_lawful field max).readsBack _ trivial wroteLength
  canonical read := by
    obtain ⟨-, front, wroteLength, rfl⟩ :=
      (length_lawful field max).canonical (sized_decode_eq_ok.mp read)
    exact ⟨trivial, _, sized_encode_eq_ok.mpr ⟨front, wroteLength, rfl⟩,
      (List.append_assoc ..).symm⟩

/-- A bound that the value keeps does not show in its bytes. -/
theorem sized_encode_of_le {field : String} {max other : Nat} {value bytes : Bytes}
    (bounded : value.length ≤ other) (wrote : (sized field max).encode value = .ok bytes) :
    (sized field other).encode value = .ok bytes := by
  rcases sized_encode_eq_ok.mp wrote with ⟨front, wroteLength, rfl⟩
  rcases length_encode_eq_ok.mp wroteLength with ⟨-, representable, wroteWord⟩
  exact sized_encode_eq_ok.mpr
    ⟨front, length_encode_eq_ok.mpr ⟨bounded, representable, wroteWord⟩, rfl⟩

theorem text_lawful (field : String) (max : Nat) : (text field max).Lawful := by
  refine (sized_lawful field max).refine ?_ ?_
  · rintro _ value - ⟨⟩
    exact ⟨trivial, by rw [Text.ofBytes?_bytesOf]⟩
  · intro bytes value _ read
    split at read
    next found valid =>
      cases read
      exact ⟨trivial, by rw [Text.bytesOf_of_ofBytes? valid]⟩
    next => cases read

/-- What is left of the input is never shorter than what was written to it. -/
theorem sizedByRest_lawful (field : String) : (sizedByRest field).Lawful where
  readsBack {value bytes} rest _ wrote := by
    rcases sized_encode_eq_ok.mp wrote with ⟨front, -, split⟩
    have room : value.length ≤ (bytes ++ rest).length := by
      rw [split]
      simp only [List.length_append]
      omega
    exact (sized_lawful field _).readsBack rest trivial (sized_encode_of_le room wrote)
  canonical read := by
    obtain ⟨-, front, wrote, split⟩ := (sized_lawful field _).canonical read
    rcases sized_encode_eq_ok.mp wrote with ⟨_, wroteLength, -⟩
    have representable := (length_encode_eq_ok.mp wroteLength).2.1
    exact ⟨trivial, front, sized_encode_of_le representable wrote, split⟩

/-! ## Counted lists and optional values -/

theorem counted_encode_eq_ok {field : String} {max : Nat} {check : Nat → Except WireError Unit}
    {item : Codec α} {values : List α} {bytes : Bytes} :
    (counted field max check item).encode values = .ok bytes ↔
      ∃ front back, (length field max).encode values.length = .ok front ∧
        encodeList item values = .ok back ∧ bytes = front ++ back :=
  append_eq_ok_iff

theorem counted_decode_eq_ok {field : String} {max : Nat} {check : Nat → Except WireError Unit}
    {item : Codec α} {values : List α} {bytes rest : Bytes} :
    (counted field max check item).decode bytes = .ok (values, rest) ↔
      ∃ count middle, (length field max).decode bytes = .ok (count, middle) ∧
        check count = .ok () ∧ decodeList item count middle = .ok (values, rest) := by
  simp only [counted, Except.bind_eq_ok_iff, Prod.exists]
  exact exists_congr fun count => exists_congr fun middle => and_congr_right fun _ =>
    ⟨fun ⟨(), checked, read⟩ => ⟨checked, read⟩, fun ⟨checked, read⟩ => ⟨(), checked, read⟩⟩

/-- A counted list is lawful where its count passes the check that reading makes. -/
theorem Lawful.counted {item : Codec α} (law : item.Lawful) (field : String) (max : Nat)
    (check : Nat → Except WireError Unit) :
    (counted field max check item).LawfulOn fun values => check values.length = .ok () where
  readsBack rest checked wrote := by
    rcases counted_encode_eq_ok.mp wrote with ⟨front, back, wroteCount, wroteItems, rfl⟩
    refine counted_decode_eq_ok.mpr ⟨_, back ++ rest, ?_, checked,
      law.decodeList_encodeList rest wroteItems⟩
    rw [List.append_assoc]
    exact (length_lawful field max).readsBack _ trivial wroteCount
  canonical read := by
    rcases counted_decode_eq_ok.mp read with ⟨count, middle, readCount, checked, readItems⟩
    obtain ⟨-, front, wroteCount, rfl⟩ := (length_lawful field max).canonical readCount
    obtain ⟨rfl, back, wroteItems, rfl⟩ := law.encodeList_decodeList readItems
    exact ⟨checked, front ++ back,
      counted_encode_eq_ok.mpr ⟨front, back, wroteCount, wroteItems, rfl⟩,
      (List.append_assoc ..).symm⟩

theorem Lawful.optional {item : Codec α} (law : item.Lawful) (flag : String) :
    (optional flag item).Lawful where
  readsBack {value bytes} rest _ wrote := by
    simp only [Codec.optional, Except.bind_eq_ok_iff, Prod.exists]
    cases value with
    | none =>
      exact ⟨false, rest, (bool_lawful flag).readsBack rest trivial wrote, rfl⟩
    | some value =>
      rcases append_eq_ok_iff.mp wrote with ⟨front, back, wroteFlag, wroteValue, rfl⟩
      rw [List.append_assoc]
      refine ⟨true, back ++ rest, (bool_lawful flag).readsBack _ trivial wroteFlag, ?_⟩
      rw [if_pos rfl, law.readsBack rest trivial wroteValue]
      rfl
  canonical {bytes value rest} read := by
    simp only [Codec.optional, Except.bind_eq_ok_iff, Prod.exists] at read
    obtain ⟨present, middle, readFlag, readValue⟩ := read
    obtain ⟨-, front, wroteFlag, rfl⟩ := (bool_lawful flag).canonical readFlag
    cases present with
    | false =>
      cases readValue
      exact ⟨trivial, front, wroteFlag, rfl⟩
    | true =>
      simp only [if_true, Except.bind_eq_ok_iff, Except.pure_eq_ok_iff, Prod.exists] at readValue
      obtain ⟨held, last, readItem, same⟩ := readValue
      cases same
      obtain ⟨-, back, wroteItem, rfl⟩ := law.canonical readItem
      exact ⟨trivial, front ++ back, append_eq_ok_iff.mpr ⟨front, back, wroteFlag, wroteItem, rfl⟩,
        (List.append_assoc ..).symm⟩

end ChainLedger.Codec

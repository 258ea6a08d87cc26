import ChainLedger.Proofs.Wire.Separation
import ChainLedger.Wire.Field

/-!
# Streams of typed fields

Every codec of a field reads back what it writes and nothing else, and so do the fields of
a stream one after the other: `stream fields` is lawful on the values that fill `fields`.
What a lawful codec writes cannot be cut short, for a value read from the front of it would
be the value that was written, and leave nothing.
-/

namespace ChainLedger

/-- Nothing is read from bytes that are cut from those of a value. -/
theorem Codec.LawfulOn.error_of_cut {α : Type} {codec : Codec α} {domain : α → Prop} {value : α}
    {front extra : Bytes} (law : codec.LawfulOn domain) (inside : domain value)
    (wrote : codec.encode value = .ok (front ++ extra)) (more : extra ≠ []) :
    ∃ error, codec.decode front = .error error := by
  cases read : codec.decode front with
  | error error => exact ⟨error, rfl⟩
  | ok found =>
    obtain ⟨other, rest⟩ := found
    obtain ⟨inside', bytes, wrote', rfl⟩ := law.canonical read
    have same : bytes ++ rest ++ extra ++ [] = bytes ++ (rest ++ extra) := by simp
    have nothing := (law.separates inside inside' wrote wrote' same).2
    exact absurd (List.append_eq_nil_iff.mp nothing.symm).2 more

namespace Field

variable {f : Field} {fields : List Field} {value : f.Value} {values : List Filled}
  {bytes rest : Bytes}

/-! ## One field -/

theorem codec_lawful (f : Field) : f.codec.Lawful := by
  cases f with
  | int32 => exact Codec.int32_lawful
  | int64 => exact Codec.int64_lawful
  | uint64 => exact Codec.uint64_lawful
  | byte => exact Codec.byte_lawful
  | bool name => exact Codec.bool_lawful name
  | signature => exact Codec.signature_lawful
  | publicKey => exact Codec.publicKey_lawful
  | address => exact Codec.address_lawful
  | amount => exact Codec.amount_lawful
  | assetAmount => exact Codec.assetAmount_lawful
  | sized name max => exact Codec.sized_lawful name max
  | text name max => exact Codec.text_lawful name max
  | count name max => exact Codec.length_lawful name max
  | leg => exact Codec.leg_lawful

/-! ## One field after the other -/

theorem encodeAll_cons_eq_ok : encodeAll (⟨f, value⟩ :: values) = .ok bytes ↔
    ∃ front back, f.codec.encode value = .ok front ∧ encodeAll values = .ok back ∧
      bytes = front ++ back :=
  Codec.append_eq_ok_iff

theorem decodeAll_cons_eq_ok : decodeAll (f :: fields) bytes = .ok (values, rest) ↔
    ∃ value others middle, values = ⟨f, value⟩ :: others ∧
      f.codec.decode bytes = .ok (value, middle) ∧
      decodeAll fields middle = .ok (others, rest) := by
  simp only [decodeAll, Except.bind_eq_ok_iff, Except.pure_eq_ok_iff, Prod.exists]
  constructor
  · rintro ⟨value, middle, readField, others, last, readOthers, same⟩
    cases same
    exact ⟨value, others, middle, rfl, readField, readOthers⟩
  · rintro ⟨value, others, middle, rfl, readField, readOthers⟩
    exact ⟨value, middle, readField, others, rest, readOthers, rfl⟩

/-- The fields of a stream as one codec. -/
def stream (fields : List Field) : Codec (List Filled) where
  encode := encodeAll
  decode := decodeAll fields

theorem stream_lawful (fields : List Field) :
    (stream fields).LawfulOn fun values => values.map Sigma.fst = fields where
  readsBack {values bytes} rest filled wrote := by
    change decodeAll fields (bytes ++ rest) = .ok (values, rest)
    change encodeAll values = .ok bytes at wrote
    subst filled
    induction values generalizing bytes with
    | nil =>
      cases wrote
      rfl
    | cons first others ih =>
      obtain ⟨f, value⟩ := first
      obtain ⟨front, back, wroteField, wroteOthers, rfl⟩ := encodeAll_cons_eq_ok.mp wrote
      refine decodeAll_cons_eq_ok.mpr ⟨value, others, back ++ rest, rfl, ?_, ih wroteOthers⟩
      rw [List.append_assoc]
      exact f.codec_lawful.readsBack _ trivial wroteField
  canonical {bytes values rest} read := by
    change decodeAll fields bytes = .ok (values, rest) at read
    change _ ∧ ∃ front, encodeAll values = .ok front ∧ bytes = front ++ rest
    induction fields generalizing bytes values with
    | nil =>
      cases read
      exact ⟨rfl, [], rfl, rfl⟩
    | cons f fields ih =>
      obtain ⟨value, others, middle, rfl, readField, readOthers⟩ := decodeAll_cons_eq_ok.mp read
      obtain ⟨-, front, wroteField, rfl⟩ := f.codec_lawful.canonical readField
      obtain ⟨filled, back, wroteOthers, rfl⟩ := ih readOthers
      exact ⟨congrArg (f :: ·) filled, front ++ back,
        encodeAll_cons_eq_ok.mpr ⟨front, back, wroteField, wroteOthers, rfl⟩,
        (List.append_assoc ..).symm⟩

/-- **Streams are read back, and only whole.** What fields are written as is read by the same
fields as the values that were written, whatever follows, and no proper front of it is read. -/
theorem decodeAll_encodeAll (wrote : encodeAll values = .ok bytes) :
    (∀ rest, decodeAll (values.map Sigma.fst) (bytes ++ rest) = .ok (values, rest)) ∧
      ∀ front, front <+: bytes → front ≠ bytes →
        ∃ error, decodeAll (values.map Sigma.fst) front = .error error := by
  have law := stream_lawful (values.map Sigma.fst)
  refine ⟨fun rest => law.readsBack rest rfl wrote, ?_⟩
  rintro front ⟨extra, rfl⟩ apart
  exact law.error_of_cut rfl wrote (by simpa using apart)

/-- Eleven kinds of fields, those with a bound filled up to it. -/
def sampleStream : List Filled :=
  [⟨.int32, -2⟩, ⟨.int64, -3⟩, ⟨.uint64, 7⟩, ⟨.bool "flag", true⟩,
    ⟨.address, Address.Sample.account⟩, ⟨.amount, ⟨-5⟩⟩, ⟨.assetAmount, ⟨-5⟩⟩,
    ⟨.sized "blob" 3, [1, 2, 3]⟩, ⟨.text "text" 4, "née"⟩, ⟨.count "count" 2, 2⟩,
    ⟨.leg, ⟨Address.Sample.account, 1, ⟨3⟩⟩⟩]

def sampleBytes : Bytes :=
  [255, 255, 255, 254] ++ [255, 255, 255, 255, 255, 255, 255, 253] ++ [0, 0, 0, 0, 0, 0, 0, 7] ++
    [1] ++ Address.Sample.accountBytes ++ [255, 255, 255, 255, 255, 255, 255, 251] ++
    [255, 255, 255, 255, 255, 255, 255, 255, 255, 255, 255, 251] ++ [0, 0, 0, 3, 1, 2, 3] ++
    [0, 0, 0, 4, 110, 195, 169, 101] ++ [0, 0, 0, 2] ++ Address.Sample.accountBytes ++
    [0, 0, 0, 0, 0, 0, 0, 1] ++ [0, 0, 0, 0, 0, 0, 0, 0, 0, 0, 0, 3]

theorem encodeAll_sampleStream : encodeAll sampleStream = .ok sampleBytes := by
  have account := Record.encode_sampleAccount
  have leg : Codec.leg.encode ⟨Address.Sample.account, 1, ⟨3⟩⟩ = .ok (Address.Sample.accountBytes ++
      ([0, 0, 0, 0, 0, 0, 0, 1] ++ [0, 0, 0, 0, 0, 0, 0, 0, 0, 0, 0, 3])) :=
    Codec.encode_iso (Codec.encode_pair account (Codec.encode_pair rfl rfl))
  simp only [sampleStream, encodeAll, codec, account, leg]
  rfl

/-- It is read back before two more bytes, and not from its first sixty. -/
theorem decodeAll_encodeAll_sampleStream :
    encodeAll sampleStream = .ok sampleBytes ∧
      decodeAll (sampleStream.map Sigma.fst) (sampleBytes ++ [9, 9]) =
        .ok (sampleStream, [9, 9]) ∧
      sampleBytes.take 60 <+: sampleBytes ∧ sampleBytes.take 60 ≠ sampleBytes ∧
      ∃ error, decodeAll (sampleStream.map Sigma.fst) (sampleBytes.take 60) = .error error := by
  obtain ⟨whole, cut⟩ := decodeAll_encodeAll encodeAll_sampleStream
  have shorter : sampleBytes.take 60 ≠ sampleBytes := by decide
  exact ⟨encodeAll_sampleStream, whole [9, 9], List.take_prefix .., shorter,
    cut _ (List.take_prefix ..) shorter⟩

end Field

end ChainLedger

import ChainLedger.Proofs.Wire.Codec
import ChainLedger.Record.Wire

/-!
# What can be written

A codec cannot write every value: a text may be too long for its field, and not every
text is an address. A record can be written as soon as the fields of its action can.
-/

namespace ChainLedger

namespace Codec

variable {α β : Type}

/-- The codec can write the value. -/
def Writes (codec : Codec α) (value : α) : Prop := ∃ bytes, codec.encode value = .ok bytes

theorem Writes.pair {first : Codec α} {second : Codec β} {a : α} {b : β} (front : first.Writes a)
    (back : second.Writes b) : (first.pair second).Writes (a, b) := by
  obtain ⟨bytes, wrote⟩ := front
  obtain ⟨bytes', wrote'⟩ := back
  exact ⟨bytes ++ bytes', encode_pair wrote wrote'⟩

theorem Writes.iso {codec : Codec α} {read : α → β} {write : β → α} {b : β}
    (inner : codec.Writes (write b)) : (codec.iso read write).Writes b := by
  obtain ⟨bytes, wrote⟩ := inner
  exact ⟨bytes, encode_iso wrote⟩

theorem writes_fixed {n : Nat} (value : FixedBytes n) : (fixed n).Writes value := ⟨_, rfl⟩

theorem writes_word (n value : Nat) : (word n).Writes value := .iso (writes_fixed _)

theorem writes_int32 (value : Int32) : int32.Writes value := .iso (writes_word 4 _)

theorem writes_uint64 (value : UInt64) : uint64.Writes value := .iso (writes_word 8 _)

theorem writes_int64 (value : Int64) : int64.Writes value := .iso (writes_uint64 _)

theorem writes_amount (value : Amount) : amount.Writes value := .iso (writes_int64 _)

theorem writes_bool (field : String) (value : Bool) : (bool field).Writes value := by
  obtain ⟨bytes, wrote⟩ : byte.Writes (if value then 1 else 0) := .iso (writes_word 1 _)
  exact ⟨bytes, refine_encode_eq_ok.mpr ⟨_, rfl, wrote⟩⟩

theorem writes_assetAmount (value : Amount) : assetAmount.Writes value := ⟨_, rfl⟩

/-- A length can be written that is no more than its field takes and four bytes can say. -/
theorem writes_length (field : String) {max size : Nat} (within : size ≤ max)
    (small : max ≤ maxLength) : (length field max).Writes size := by
  obtain ⟨bytes, wrote⟩ := writes_int32 (Int32.ofNat size)
  exact ⟨bytes, length_encode_eq_ok.mpr ⟨within, Nat.le_trans within small, wrote⟩⟩

theorem writes_sized {field : String} {max : Nat} {value : Bytes} (within : value.length ≤ max)
    (small : max ≤ maxLength) : (sized field max).Writes value := by
  obtain ⟨front, wroteLength⟩ := writes_length field within small
  exact ⟨front ++ value, sized_encode_eq_ok.mpr ⟨front, wroteLength, rfl⟩⟩

theorem writes_text {field : String} {max : Nat} {value : String} (within : Text.size value ≤ max)
    (small : max ≤ maxLength) : (text field max).Writes value := by
  have bytes : (sized field max).Writes (Text.bytesOf value) := writes_sized within small
  obtain ⟨wrote, done⟩ := bytes
  exact ⟨wrote, refine_encode_eq_ok.mpr ⟨_, rfl, done⟩⟩

/-- A valid address can be written. -/
theorem writes_address {value : Address} (valid : Address.isValid value = true) :
    address.Writes value := by
  unfold Address.isValid at valid
  split at valid
  next raw read =>
    have known : (Address.toRaw value).mapError WireError.invalidAddress = .ok raw := by
      rw [read]
      rfl
    exact ⟨raw.bytes, refine_encode_eq_ok.mpr ⟨raw, known, rfl⟩⟩
  next => cases valid

theorem writes_leg {value : Leg} (valid : Address.isValid value.recipient = true) :
    leg.Writes value :=
  .iso (.pair (writes_address valid) (.pair (writes_uint64 _) (writes_assetAmount _)))

/-- Values can be written one after the other if each of them can be. -/
theorem exists_encodeList {item : Codec α} {values : List α}
    (each : ∀ value ∈ values, item.Writes value) :
    ∃ bytes, encodeList item values = .ok bytes := by
  induction values with
  | nil => exact ⟨[], rfl⟩
  | cons value rest ih =>
    rcases List.forall_mem_cons.mp each with ⟨⟨front, wrote⟩, others⟩
    obtain ⟨back, wroteRest⟩ := ih others
    exact ⟨front ++ back, encodeList_cons_eq_ok.mpr ⟨front, back, wrote, wroteRest, rfl⟩⟩

theorem writes_counted {field : String} {max : Nat} {check : Nat → Except WireError Unit}
    {item : Codec α} {values : List α} (each : ∀ value ∈ values, item.Writes value)
    (within : values.length ≤ max) (small : max ≤ maxLength) :
    (counted field max check item).Writes values := by
  obtain ⟨front, wroteCount⟩ := writes_length field within small
  obtain ⟨back, wroteItems⟩ := exists_encodeList each
  exact ⟨front ++ back, counted_encode_eq_ok.mpr ⟨front, back, wroteCount, wroteItems, rfl⟩⟩

end Codec

open Codec

/-- An allocation to a valid address has bytes. -/
theorem Genesis.exists_encode {g : Genesis} (valid : Address.isValid g.recipient = true) :
    ∃ bytes, g.encode = .ok bytes := by
  obtain ⟨tag, wroteTag⟩ := writes_int32 Kind.genesis.tag
  have inGenesis : codec.Writes g :=
    .iso (.pair (writes_int64 _) (.pair (writes_address valid) (writes_amount _)))
  obtain ⟨fields, wroteFields⟩ := inGenesis
  exact ⟨tag ++ fields, append_eq_ok_iff.mpr ⟨tag, fields, wroteTag, wroteFields, rfl⟩⟩

/-- It has a signature, which is derived from them. -/
theorem Genesis.exists_signature {g : Genesis} (valid : Address.isValid g.recipient = true) :
    ∃ signature, (Record.genesis g).signature? = some signature := by
  obtain ⟨bytes, wrote⟩ := exists_encode valid
  exact ⟨Signature.derive bytes, by rw [Record.signature?, Record.genesisSignature?, wrote]⟩

/-- The signature of an allocation is one hash twice. -/
theorem Genesis.halves_of_signature {g : Genesis} {signature : Signature}
    (signed : (Record.genesis g).signature? = some signature) :
    signature.bytes.take 32 = signature.bytes.drop 32 := by
  rw [Record.signature?, Record.genesisSignature?] at signed
  split at signed
  next =>
    cases signed
    rw [Signature.derive, List.take_left' (by simp), List.drop_left' (by simp)]
  next => cases signed

/-- A record whose fields can be written can be written up to its signature. -/
theorem Record.exists_encodeUnsigned {params : ChainParams} {envelope : Envelope} {action : Action}
    {reference : Signature} {fields : Bytes}
    (wrote : action.encode (Layout.atTime params envelope.timestamp) reference = .ok fields) :
    ∃ bytes, encodeUnsigned params envelope action reference = .ok bytes := by
  obtain ⟨tag, wroteTag⟩ := writes_int32 action.kind.tag
  have inEnvelope : Envelope.codec.Writes (envelope.timestamp, envelope.reference) :=
    .pair (writes_int64 _) (writes_fixed _)
  obtain ⟨header, wroteHeader⟩ := inEnvelope
  obtain ⟨fee, wroteFee⟩ := writes_amount envelope.fee
  refine ⟨tag ++ header ++ fields ++ fee, ?_⟩
  simp only [encodeUnsigned, Except.bind_eq_ok_iff, Except.pure_eq_ok_iff]
  exact ⟨tag, wroteTag, header, wroteHeader, fields, wrote, fee, wroteFee, rfl⟩

end ChainLedger

import ChainLedger.Proofs.Wire.Signing

/-!
# Where records end

Nothing on the wire says how long a record is. Its tag, its header, the fields of its action
and its fee end by themselves, and only what is left behind the fee is told by its length:
nothing, or a signature. So if the bytes of one record begin those of another, the second is
the first with a signature, and no part of what is written of an unsigned record is a record.
-/

namespace ChainLedger

/-- Where one end of a record goes on as another, it has no signature and the other has one. -/
theorem Codec.eq_none_of_append {first second : Option Signature} {extra : Bytes}
    (same : encodeLastSignature first ++ extra = encodeLastSignature second) (more : extra ≠ []) :
    first = none ∧ ∃ signature, second = some signature ∧ extra = signature.bytes := by
  cases first with
  | none =>
    cases second with
    | none => exact absurd same more
    | some signature => exact ⟨rfl, signature, rfl, same⟩
  | some signature =>
    -- Nothing is longer than a signature.
    have longer : 0 < extra.length := List.length_pos_iff.mpr more
    have lengths := congrArg List.length same
    cases second <;> simp only [encodeLastSignature, List.length_append, FixedBytes.length_bytes,
      List.length_nil] at lengths <;> omega

/-- What the wire form carries wholly has nothing from processing. -/
theorem Action.Transmissible.withoutDerived_eq {action : Action} (whole : action.Transmissible) :
    action.withoutDerived = action := by
  cases action with
  | voteOnPoll b =>
    obtain ⟨voter, poll, option, _⟩ := b
    cases whole
    rfl
  | issueAsset i =>
    obtain ⟨issuer, owner, name, description, quantity, isDivisible, _⟩ := i
    cases whole
    rfl
  | deployAt d =>
    obtain ⟨creator, name, description, atType, tags, creationBytes, amount, _⟩ := d
    cases whole
    rfl
  | payment | createPoll | transferAsset | multiPayment | settleAt => rfl

namespace Record

variable {params : ChainParams} {envelope envelope' : Envelope} {action action' : Action}
  {r r' : Record} {bytes extra : Bytes}

theorem Transmissible.withoutDerived_eq (whole : r.Transmissible) : r.withoutDerived = r := by
  cases r with
  | genesis g => rfl
  | standard envelope action => exact congrArg _ (Action.Transmissible.withoutDerived_eq whole)

/-! ## Bytes of records -/

/-- The parts of which the bytes of a record are made, one after the other. -/
theorem exists_parts (wrote : encode params (.standard envelope action) = .ok bytes) :
    ∃ fields,
      action.encode (Layout.atTime params envelope.timestamp) envelope.assetReference = .ok fields ∧
      bytes = action.kind.tagBytes ++ (envelope.headerBytes ++ (fields ++
        (envelope.feeBytes ++ Codec.encodeLastSignature envelope.signature))) := by
  obtain ⟨body, wroteBody, rfl⟩ := encode_standard_eq_ok.mp wrote
  rw [encodeUnsigned_eq_map] at wroteBody
  obtain ⟨fields, wroteFields, rfl⟩ := Except.map_eq_ok_iff.mp wroteBody
  exact ⟨fields, wroteFields, by simp⟩

/-- The bytes of a record begin with its tag. -/
theorem exists_tagged (wrote : encode params r = .ok bytes) :
    ∃ rest, bytes = r.kind.tagBytes ++ rest := by
  cases r with
  | genesis g =>
    obtain ⟨tag, fields, wroteTag, -, rfl⟩ := encode_genesis_eq_ok.mp wrote
    rw [Kind.encode_tag] at wroteTag
    cases wroteTag
    exact ⟨fields, rfl⟩
  | standard envelope action =>
    obtain ⟨fields, -, rfl⟩ := exists_parts wrote
    exact ⟨_, rfl⟩

/-! ## Bytes that go on -/

/-- The bytes of an allocation do not go on as another allocation. -/
theorem eq_nil_of_genesis {g g' : Genesis} (wrote : encode params (.genesis g) = .ok bytes)
    (wrote' : encode params (.genesis g') = .ok (bytes ++ extra)) : extra = [] := by
  obtain ⟨_, fields, ⟨⟩, wroteFields, rfl⟩ := encode_genesis_eq_ok.mp wrote
  obtain ⟨_, fields', ⟨⟩, wroteFields', same⟩ := encode_genesis_eq_ok.mp wrote'
  rw [List.append_assoc] at same
  have tail : fields ++ extra = fields' ++ [] := by
    rw [List.append_nil]
    exact List.append_cancel_left same
  exact (Genesis.codec_lawful.separates trivial trivial wroteFields wroteFields' tail).2

/-- Where the bytes of a record go on as those of another, all but the end is the same. -/
theorem same_of_append (wrote : encode params (.standard envelope action) = .ok bytes)
    (wrote' : encode params (.standard envelope' action') = .ok (bytes ++ extra)) :
    envelope'.timestamp = envelope.timestamp ∧ envelope'.reference = envelope.reference ∧
      envelope'.fee = envelope.fee ∧ action'.withoutDerived = action.withoutDerived ∧
      Codec.encodeLastSignature envelope.signature ++ extra =
        Codec.encodeLastSignature envelope'.signature := by
  obtain ⟨fields, wroteFields, rfl⟩ := exists_parts wrote
  obtain ⟨fields', wroteFields', same⟩ := exists_parts wrote'
  simp only [List.append_assoc] at same
  obtain ⟨kinds, afterTag⟩ := Kind.eq_of_tagBytes same
  obtain ⟨header, afterHeader⟩ := envelope_lawful.separates trivial trivial envelope.encode_header
    envelope'.encode_header afterTag
  obtain ⟨times, references⟩ := Prod.mk.inj header
  rw [← times] at wroteFields'
  obtain ⟨actions, afterAction⟩ := Action.separates kinds wroteFields wroteFields' afterHeader
  obtain ⟨fees, ends⟩ := Codec.amount_lawful.separates trivial trivial envelope.encode_fee
    envelope'.encode_fee afterAction
  exact ⟨times.symm, references.symm, fees.symm, actions.symm, ends⟩

/-- **Bytes of a record that go on as another's** are those of an unsigned record, and go on as a
signature of it. -/
theorem signed_of_append (wrote : encode params r = .ok bytes)
    (wrote' : encode params r' = .ok (bytes ++ extra)) (more : extra ≠ []) :
    r.kind ≠ .genesis ∧ r.unsigned = r ∧ r'.unsigned ≠ r' ∧ ∃ signature : Signature,
      extra = signature.bytes ∧
        r'.withoutDerived = r.withoutDerived.withSignature (some signature) := by
  obtain ⟨rest, tagged⟩ := exists_tagged wrote
  obtain ⟨rest', tagged'⟩ := exists_tagged wrote'
  rw [tagged, List.append_assoc] at tagged'
  obtain ⟨kinds, -⟩ := Kind.eq_of_tagBytes tagged'
  cases r with
  | genesis g =>
    cases r' with
    | genesis g' => exact absurd (eq_nil_of_genesis wrote wrote') more
    | standard envelope' action' => cases action' <;> cases kinds
  | standard envelope action =>
    cases r' with
    | genesis g' => cases action <;> cases kinds
    | standard envelope' action' =>
      obtain ⟨times, references, fees, actions, ends⟩ := same_of_append wrote wrote'
      obtain ⟨bare, signature, signed, tail⟩ := Codec.eq_none_of_append ends more
      refine ⟨by cases action <;> simp [kind, Action.kind], ?_, ?_, signature, tail, ?_⟩
      · rw [unsigned, withSignature, ← bare]
      · intro unsigned
        have none := congrArg Envelope.signature (standard.inj unsigned).1
        exact absurd (none.trans signed) (by simp)
      · rw [withoutDerived, withoutDerived, withSignature, actions, ← times, ← references, ← fees,
          ← signed]

/-- **Records cannot be cut or extended.** If the bytes of a record begin those of another, the
second is the first with a signature, which is all that follows. In particular nothing that is cut
from the bytes of an unsigned record is a record. -/
theorem unsigned_of_cut (params : ChainParams) :
    (∀ front bytes r r', front <+: bytes → front ≠ bytes → decode params front = .ok r →
      decode params bytes = .ok r' →
        r.kind ≠ .genesis ∧ r.unsigned = r ∧ bytes.length = front.length + 64 ∧
          ∃ signature : Signature, bytes = front ++ signature.bytes ∧
            r' = r.withSignature (some signature)) ∧
      ∀ r bytes, r.unsigned = r → encode params r = .ok bytes →
        ∀ front, front <+: bytes → front ≠ bytes → ∃ error, decode params front = .error error := by
  refine ⟨?_, ?_⟩
  · rintro front _ r r' ⟨extra, rfl⟩ apart read read'
    have more : extra ≠ [] := by simpa using apart
    obtain ⟨whole, wrote⟩ := encode_of_decode read
    obtain ⟨whole', wrote'⟩ := encode_of_decode read'
    obtain ⟨other, unsigned, -, signature, rfl, same⟩ := signed_of_append wrote wrote' more
    rw [whole.withoutDerived_eq, whole'.withoutDerived_eq] at same
    exact ⟨other, unsigned, by simp, signature, rfl, same⟩
  · rintro r _ unsigned wrote front ⟨extra, rfl⟩ apart
    have more : extra ≠ [] := by simpa using apart
    cases read : decode params front with
    | error error => exact ⟨error, rfl⟩
    | ok cut =>
      -- Then what was cut from could only be a signed record.
      obtain ⟨-, wroteFront⟩ := encode_of_decode read
      obtain ⟨-, -, signed, -⟩ := signed_of_append wroteFront wrote more
      exact absurd unsigned signed

/-- Under a signature of zeros `legacyIssue` embeds what it embeds under none. -/
theorem exists_encode_zeroSigned :
    ∃ form, encode .mainChain legacyIssue.unsigned = .ok form ∧
      encode .mainChain (legacyIssue.unsigned.withSignature (some .zero)) =
        .ok (form ++ (.zero : Signature).bytes) := by
  cases wrote : encode .mainChain legacyIssue.unsigned with
  | error fault =>
    have signs := (writes_iff_signs legacyIssue).mp ⟨_, encode_legacyIssue⟩
    obtain ⟨_, wrote'⟩ := (writes_iff_signs legacyIssue.unsigned).mpr signs
    rw [wrote] at wrote'
    cases wrote'
  | ok form =>
    refine ⟨form, rfl, ?_⟩
    rw [legacyIssue, encode_unsigned] at wrote
    exact encode_standard_eq_ok.mpr ⟨form, wrote, rfl⟩

/-- The one and the other denote their records, and what is cut from the first denotes none. -/
theorem unsigned_of_cut_legacyIssue :
    ∃ form error, encode .mainChain legacyIssue.unsigned = .ok form ∧
      form ≠ form ++ (.zero : Signature).bytes ∧
      decode .mainChain form = .ok legacyIssue.unsigned ∧
      decode .mainChain (form ++ (.zero : Signature).bytes) =
        .ok (legacyIssue.unsigned.withSignature (some .zero)) ∧
      legacyIssue.unsigned.kind ≠ .genesis ∧ form.take 60 <+: form ∧ form.take 60 ≠ form ∧
      decode .mainChain (form.take 60) = .error error := by
  obtain ⟨form, wrote, wrote'⟩ := exists_encode_zeroSigned
  obtain ⟨extended, cut⟩ := unsigned_of_cut .mainChain
  have read : decode .mainChain form = .ok legacyIssue.unsigned :=
    decode_encode_standard rfl wrote
  have read' : decode .mainChain (form ++ (.zero : Signature).bytes) =
      .ok (legacyIssue.unsigned.withSignature (some .zero)) :=
    decode_encode_standard rfl wrote'
  have apart : form ≠ form ++ (.zero : Signature).bytes := by
    simpa using List.ne_nil_of_length_eq_add_one (FixedBytes.length_eq (.zero : Signature))
  have shorter : form.take 60 ≠ form := by
    obtain ⟨fields, -, parts⟩ := exists_parts wrote
    intro same
    have lengths := congrArg List.length same
    simp only [parts, List.length_take, List.length_append, Kind.length_tagBytes,
      Envelope.length_headerBytes] at lengths
    omega
  obtain ⟨other, -⟩ := extended _ _ _ _ (List.prefix_append ..) apart read read'
  obtain ⟨error, failed⟩ := cut _ _ rfl wrote _ (List.take_prefix 60 form) shorter
  exact ⟨form, error, wrote, apart, read, read', other, List.take_prefix 60 form, shorter, failed⟩

end Record

end ChainLedger

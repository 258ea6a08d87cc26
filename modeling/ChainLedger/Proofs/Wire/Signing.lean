import ChainLedger.Proofs.Wire.Separation
import ChainLedger.Record.Parties

/-!
# What is signed

The signing bytes of a record are its bytes without a signature, but for two kinds of
older records: a poll creation is signed under the tag of a name registration, and a
multi-payment by its last payment and its fee alone. A third kind of older record, the
asset issue, is signed like any other, but embeds its signature in what is signed.

In all layouts but the second, signing bytes tell the record that is signed, up to its
signature and what is only known once it is processed. The tags tell the kinds apart,
and the two forms without header have lengths that no other form has.
-/

namespace ChainLedger

/-! ## The frame of what is signed -/

namespace Kind

/-- The bytes of a tag. -/
def tagBytes (kind : Kind) : Bytes := bigEndian 4 kind.tag.toUInt32.toNat

@[simp] theorem length_tagBytes (kind : Kind) : kind.tagBytes.length = 4 := length_bigEndian ..

theorem encode_tag (kind : Kind) : Codec.int32.encode kind.tag = .ok kind.tagBytes := rfl

theorem tag_injective {kind kind' : Kind} (same : kind.tag = kind'.tag) : kind = kind' := by
  have found := ofTag?_tag kind
  rw [same, ofTag?_tag] at found
  exact (Option.some.inj found).symm

/-- Tags tell kinds apart. -/
theorem eq_of_tagBytes {kind kind' : Kind} {rest rest' : Bytes}
    (same : kind.tagBytes ++ rest = kind'.tagBytes ++ rest') : kind = kind' ∧ rest = rest' := by
  obtain ⟨tags, rests⟩ :=
    Codec.int32_lawful.separates trivial trivial kind.encode_tag kind'.encode_tag same
  exact ⟨tag_injective tags, rests⟩

end Kind

namespace Envelope

/-- The bytes between the tag and the action. -/
def headerBytes (envelope : Envelope) : Bytes :=
  bigEndian 8 envelope.timestamp.toUInt64.toNat ++ envelope.reference.bytes

@[simp] theorem length_headerBytes (envelope : Envelope) : envelope.headerBytes.length = 72 := by
  simp [headerBytes]

theorem encode_header (envelope : Envelope) :
    Envelope.codec.encode (envelope.timestamp, envelope.reference) = .ok envelope.headerBytes :=
  rfl

/-- The bytes after the action. -/
def feeBytes (envelope : Envelope) : Bytes := bigEndian 8 envelope.fee.units.toUInt64.toNat

@[simp] theorem length_feeBytes (envelope : Envelope) : envelope.feeBytes.length = 8 :=
  length_bigEndian ..

theorem encode_fee (envelope : Envelope) :
    Codec.amount.encode envelope.fee = .ok envelope.feeBytes :=
  rfl

end Envelope

/-- A multi-payment ends with its last payment. -/
theorem MultiPayment.exists_last {m : MultiPayment} {leg : Leg} {bytes : Bytes}
    (wrote : codec.encode m = .ok bytes) (last : m.legs.getLast? = some leg) :
    ∃ front payment, Codec.leg.encode leg = .ok payment ∧ bytes = front ++ payment := by
  obtain ⟨before, legs⟩ := List.getLast?_eq_some_iff.mp last
  have wroteParts : (Codec.publicKey.pair (Codec.counted "payments count" Limits.payments
      (fun _ => .ok ()) Codec.leg)).encode (m.sender, m.legs) = .ok bytes := wrote
  rcases Codec.pair_encode_eq_ok.mp wroteParts with ⟨key, list, -, wroteList, rfl⟩
  rcases Codec.counted_encode_eq_ok.mp wroteList with ⟨count, items, -, wroteItems, rfl⟩
  have wroteLegs : Codec.encodeList Codec.leg (before ++ [leg]) = .ok items := legs ▸ wroteItems
  rcases Codec.encodeList_append_eq_ok.mp wroteLegs with ⟨firsts, rest, -, wroteRest, rfl⟩
  rcases Codec.encodeList_cons_eq_ok.mp wroteRest with ⟨payment, _, wrotePayment, ⟨⟩, rfl⟩
  exact ⟨key ++ (count ++ firsts), payment, wrotePayment, by simp⟩

namespace Record

variable {params : ChainParams} {envelope : Envelope} {action : Action} {reference : Signature}

/-- The frame can always be written, so that a record fails to be written as its fields do. -/
theorem encodeUnsigned_eq_map :
    encodeUnsigned params envelope action reference =
      (action.encode (Layout.atTime params envelope.timestamp) reference).map fun fields =>
        action.kind.tagBytes ++ envelope.headerBytes ++ fields ++ envelope.feeBytes := by
  rw [encodeUnsigned, Kind.encode_tag, Envelope.encode_header, Envelope.encode_fee]
  cases action.encode (Layout.atTime params envelope.timestamp) reference <;> rfl

theorem encode_standard_eq_map :
    (standard envelope action).encode params =
      (encodeUnsigned params envelope action envelope.assetReference).map
        (· ++ Codec.encodeLastSignature envelope.signature) := by
  rw [encode]
  cases encodeUnsigned params envelope action envelope.assetReference <;> rfl

/-- What is written of a record without its signature. -/
theorem encode_unsigned :
    (standard envelope action).unsigned.encode params =
      encodeUnsigned params envelope action noAssetReference := by
  have bare : (standard envelope action).unsigned.encode params =
      (encodeUnsigned params envelope action noAssetReference).map (· ++ []) :=
    encode_standard_eq_map
  rw [bare]
  cases encodeUnsigned params envelope action noAssetReference <;> simp [Except.map]

/-! ## Older records -/

/-- The record is a poll creation that is signed under the tag of a name registration. -/
def signsOtherTag (params : ChainParams) : Record → Bool
  | .standard envelope (.createPoll _) => params.isLegacyCreatePoll envelope.timestamp
  | _ => false

/-- The record is a multi-payment that is signed by its last payment and fee alone. -/
def signsEndOnly (params : ChainParams) : Record → Bool
  | .standard envelope (.multiPayment _) => params.isLegacyMultiPayment envelope.timestamp
  | _ => false

/-- The record is an asset issue that embeds its signature before the fee. -/
def embedsSignature (params : ChainParams) : Record → Bool
  | .standard envelope (.issueAsset _) => params.isLegacyIssueAsset envelope.timestamp
  | _ => false

/-- What is signed of a record that has a given form without its signature. -/
def Covers (params : ChainParams) (r : Record) (form message : Bytes) : Prop :=
  if r.signsOtherTag params then
    ∃ rest, form = r.kind.tagBytes ++ rest ∧ message = Kind.registerName.tagBytes ++ rest
  else if r.signsEndOnly params then message.length = lastPaymentSize ∧ message <:+ form
  else message = form

/-- What is written before the signature of a record that has a given form without it. -/
def Carries (params : ChainParams) (r : Record) (signature : Signature) (form body : Bytes) :
    Prop :=
  if r.embedsSignature params then
    ∃ front fee, Codec.amount.encode r.fee = .ok fee ∧
      form = front ++ noAssetReference.bytes ++ fee ∧ body = front ++ signature.bytes ++ fee
  else body = form

/-! ## What signatures cover -/

/-- The part of the form without signature that is signed. -/
def signedPart (params : ChainParams) (r : Record) (form : Bytes) : Bytes :=
  if r.signsOtherTag params then Kind.registerName.tagBytes ++ form.drop 4
  else if r.signsEndOnly params then form.drop (form.length - lastPaymentSize)
  else form

theorem signingBytes_eq_map (params : ChainParams) (r : Record) :
    r.signingBytes params = (r.unsigned.encode params).map (r.signedPart params) := by
  cases r with
  | genesis g =>
    have written : (genesis g).unsigned.encode params = g.encode := rfl
    rw [written, signingBytes]
    cases g.encode <;> rfl
  | standard envelope action =>
    rw [encode_unsigned, signingBytes]
    cases encodeUnsigned params envelope action noAssetReference with
    | error => rfl
    | ok form =>
      cases action with
      | createPoll c =>
        cases legacy : params.isLegacyCreatePoll envelope.timestamp <;>
          simp [bind, pure, Except.bind, Except.pure, Except.map, signedPart, signsOtherTag,
            signsEndOnly, legacy, Kind.encode_tag]
      | multiPayment m =>
        cases legacy : params.isLegacyMultiPayment envelope.timestamp <;>
          simp [Except.map, signedPart, signsOtherTag, signsEndOnly, legacy]
      | payment | voteOnPoll | issueAsset | transferAsset | deployAt | settleAt => rfl

theorem covers_signedPart {r : Record} {form : Bytes}
    (wrote : r.unsigned.encode params = .ok form) :
    r.Covers params form (r.signedPart params form) := by
  cases r with
  | genesis g => rfl
  | standard envelope action =>
    rw [encode_unsigned, encodeUnsigned_eq_map, Except.map_eq_ok_iff] at wrote
    obtain ⟨fields, -, rfl⟩ := wrote
    rw [Covers, signedPart]
    split
    · refine ⟨envelope.headerBytes ++ fields ++ envelope.feeBytes, by simp [kind], ?_⟩
      simp
    · split
      · refine ⟨?_, List.drop_suffix ..⟩
        simp [lastPaymentSize]
        omega
      · rfl

/-- A signature is of the same bytes whatever signature the record carries. -/
theorem signingBytes_withSignature (signature : Option Signature) (r : Record) :
    (r.withSignature signature).signingBytes params = r.signingBytes params := by
  cases r <;> rfl

/-- A signature is of the same bytes before and after the record is processed. -/
theorem signingBytes_withoutDerived (r : Record) :
    r.withoutDerived.signingBytes params = r.signingBytes params := by
  cases r with
  | genesis g => rfl
  | standard envelope action => cases action <;> rfl

theorem encode_withoutDerived (r : Record) :
    r.withoutDerived.encode params = r.encode params := by
  cases r with
  | genesis g => rfl
  | standard envelope action => cases action <;> rfl

/-- Only an asset issue of the older layout has an asset reference. -/
theorem encode_reference (plain : (standard envelope action).embedsSignature params = false) :
    action.encode (Layout.atTime params envelope.timestamp) reference =
      action.encode (Layout.atTime params envelope.timestamp) noAssetReference := by
  cases action with
  | issueAsset i =>
    have none : (Layout.atTime params envelope.timestamp).assetReference = false := plain
    simp only [Action.encode, none, Bool.false_eq_true, if_false]
  | payment | createPoll | voteOnPoll | transferAsset | multiPayment | deployAt | settleAt => rfl

/-- The asset reference stands before the fee, if it is written at all. -/
theorem exists_encodeUnsigned_eq_map (params : ChainParams) (envelope : Envelope)
    (action : Action) :
    ∃ front : Except WireError Bytes, ∀ reference,
      encodeUnsigned params envelope action reference = front.map fun bytes => bytes ++
        (if (standard envelope action).embedsSignature params then reference.bytes else []) ++
          envelope.feeBytes := by
  cases embeds : (standard envelope action).embedsSignature params with
  | false =>
    refine ⟨(action.encode (Layout.atTime params envelope.timestamp) noAssetReference).map
      (action.kind.tagBytes ++ envelope.headerBytes ++ ·), fun reference => ?_⟩
    rw [encodeUnsigned_eq_map, encode_reference embeds]
    cases action.encode (Layout.atTime params envelope.timestamp) noAssetReference <;>
      simp [Except.map]
  | true =>
    cases action with
    | issueAsset i =>
      refine ⟨(AssetIssue.codec.encode i).map
        (Kind.issueAsset.tagBytes ++ envelope.headerBytes ++ ·), fun reference => ?_⟩
      have legacy : (Layout.atTime params envelope.timestamp).assetReference = true := embeds
      have fields : (AssetIssue.codec.pair Codec.signature).encode (i, reference) =
          (AssetIssue.codec.encode i).map (· ++ reference.bytes) := by
        simp only [Codec.pair]
        cases AssetIssue.codec.encode i <;> rfl
      rw [encodeUnsigned_eq_map, Action.encode, if_pos legacy, fields]
      cases AssetIssue.codec.encode i <;> simp [Except.map, Action.kind]
    | payment | createPoll | voteOnPoll | transferAsset | multiPayment | deployAt | settleAt =>
      cases embeds

/-- What a signed record is written as, before its signature. -/
theorem exists_carried {signature : Signature} (signed : envelope.signature = some signature)
    {form : Bytes} (wrote : (standard envelope action).unsigned.encode params = .ok form) :
    ∃ body, (standard envelope action).encode params = .ok (body ++ signature.bytes) ∧
      (standard envelope action).Carries params signature form body := by
  obtain ⟨front, written⟩ := exists_encodeUnsigned_eq_map params envelope action
  rw [encode_unsigned, written, Except.map_eq_ok_iff] at wrote
  obtain ⟨bytes, rfl, rfl⟩ := wrote
  have carried : envelope.assetReference = signature := by rw [Envelope.assetReference, signed]; rfl
  have whole : (standard envelope action).encode params =
      (encodeUnsigned params envelope action envelope.assetReference).map
        (· ++ Codec.encodeLastSignature envelope.signature) := encode_standard_eq_map
  rw [written, signed, carried] at whole
  refine ⟨_, whole, ?_⟩
  rw [Carries]
  split
  · exact ⟨bytes, envelope.feeBytes, envelope.encode_fee, rfl, rfl⟩
  · rfl

/-- A record has signing bytes if it can be written. -/
theorem writes_iff_signs (r : Record) :
    (∃ bytes, r.encode params = .ok bytes) ↔ ∃ message, r.signingBytes params = .ok message := by
  cases r with
  | genesis g => exact Iff.rfl
  | standard envelope action =>
    obtain ⟨front, written⟩ := exists_encodeUnsigned_eq_map params envelope action
    rw [encode_standard_eq_map, signingBytes_eq_map, encode_unsigned, written, written]
    cases front <;> simp [Except.map]

/-- **What is signed, and where the signature goes.** A record has signing bytes if it has a form
without its signature, and fails to have them as that form does; neither its signature nor what
processing fills in changes them. They are that form, but for the older polls and multi-payments.
A record with a signature is that form and the signature, but for the older asset issues. -/
theorem signs_unsigned_form (params : ChainParams) (r : Record) :
    (∀ error, r.signingBytes params = .error error ↔ r.unsigned.encode params = .error error) ∧
      (∀ form, r.unsigned.encode params = .ok form →
        ∃ message, r.signingBytes params = .ok message ∧ r.Covers params form message) ∧
      (∀ other : Record, other.unsigned.withoutDerived = r.unsigned.withoutDerived →
        other.signingBytes params = r.signingBytes params) ∧
      (∀ signature, r.kind ≠ .genesis → r.signature? = some signature →
        (∀ error, r.encode params = .error error ↔ r.unsigned.encode params = .error error) ∧
          ∀ form, r.unsigned.encode params = .ok form →
            ∃ body, r.encode params = .ok (body ++ signature.bytes) ∧
              r.Carries params signature form body) := by
  refine ⟨fun error => ?_, fun form wrote => ?_, fun other alike => ?_,
    fun signature signable signed => ?_⟩
  · rw [signingBytes_eq_map, Except.map_eq_error_iff]
  · refine ⟨r.signedPart params form, ?_, covers_signedPart wrote⟩
    rw [signingBytes_eq_map, wrote]
    rfl
  · calc other.signingBytes params
        = other.unsigned.withoutDerived.signingBytes params := by
          rw [signingBytes_withoutDerived, unsigned, signingBytes_withSignature]
      _ = r.unsigned.withoutDerived.signingBytes params := by rw [alike]
      _ = r.signingBytes params := by
          rw [signingBytes_withoutDerived, unsigned, signingBytes_withSignature]
  · cases r with
    | genesis g => exact absurd rfl signable
    | standard envelope action =>
      refine ⟨fun error => ?_, fun form wrote => exists_carried signed wrote⟩
      obtain ⟨front, written⟩ := exists_encodeUnsigned_eq_map params envelope action
      rw [encode_unsigned, encode_standard_eq_map, Except.map_eq_error_iff, written, written,
        Except.map_eq_error_iff, Except.map_eq_error_iff]

theorem signs_unsigned_form_legacyIssue :
    ∃ form message body, legacyIssue.unsigned.encode .mainChain = .ok form ∧
      legacyIssue.signingBytes .mainChain = .ok message ∧
      legacyIssue.Covers .mainChain form message ∧
      legacyIssueBytes = body ++ (.fill 170 : Signature).bytes ∧
      legacyIssue.Carries .mainChain (.fill 170) form body := by
  obtain ⟨-, covers, -, carries⟩ := signs_unsigned_form .mainChain legacyIssue
  obtain ⟨faults, carried⟩ := carries (.fill 170) (by decide) rfl
  cases wrote : legacyIssue.unsigned.encode .mainChain with
  | error fault =>
    have failed := (faults fault).mpr wrote
    rw [encode_legacyIssue] at failed
    cases failed
  | ok form =>
    obtain ⟨message, signing, covered⟩ := covers form wrote
    obtain ⟨body, whole, inside⟩ := carried form wrote
    rw [encode_legacyIssue] at whole
    exact ⟨form, message, body, rfl, signing, covered, Except.ok.inj whole, inside⟩

/-! ## What signing bytes tell -/

/-- The reference stands after four bytes of a tag and eight of a time. -/
theorem reference_of_append {tag time rest : Bytes} {reference : Signature} (four : tag.length = 4)
    (eight : time.length = 8) :
    ((tag ++ (time ++ reference.bytes ++ rest)).drop 12).take 64 = reference.bytes := by
  have front : (tag ++ time).length = 12 := by simp [four, eight]
  rw [List.append_assoc, ← List.append_assoc, List.drop_left' front,
    List.take_left' reference.length_eq]

/-- The kind under whose tag a record is signed. -/
def signingKind (params : ChainParams) (r : Record) : Kind :=
  if r.signsOtherTag params then .registerName else r.kind

/-- The last leg that the record moves. -/
def lastLeg? : Record → Option Leg
  | .genesis _ => none
  | .standard _ action => action.legs.getLast?

theorem kind_eq_createPoll {r : Record} (other : r.signsOtherTag params = true) :
    r.kind = .createPoll := by
  unfold signsOtherTag at other
  split at other
  · rfl
  · cases other

theorem kind_eq_multiPayment {r : Record} (cut : r.signsEndOnly params = true) :
    r.kind = .multiPayment := by
  unfold signsEndOnly at cut
  split at cut
  · rfl
  · cases cut

theorem kind_ne_registerName (r : Record) : r.kind ≠ .registerName := by
  rcases r with _ | ⟨_, _ | _⟩ <;> simp [kind, Action.kind]

/-- The tag that a record is signed under tells its kind. -/
theorem kind_eq_of_signingKind_eq {x y : Record}
    (same : x.signingKind params = y.signingKind params) : x.kind = y.kind := by
  simp only [signingKind] at same
  split at same
  next other =>
    split at same
    next other' => rw [kind_eq_createPoll other, kind_eq_createPoll other']
    next => exact absurd same.symm (kind_ne_registerName y)
  next =>
    split at same
    next => exact absurd same (kind_ne_registerName x)
    next => exact same

/-- Signing bytes that are no end are framed as a whole record is. -/
theorem exists_fields {message : Bytes}
    (whole : (standard envelope action).signsEndOnly params = false)
    (signing : (standard envelope action).signingBytes params = .ok message) :
    ∃ fields, action.encode (Layout.atTime params envelope.timestamp) noAssetReference =
        .ok fields ∧
      message = ((standard envelope action).signingKind params).tagBytes ++
        (envelope.headerBytes ++ (fields ++ envelope.feeBytes)) := by
  rw [signingBytes_eq_map, encode_unsigned, encodeUnsigned_eq_map] at signing
  rcases Except.map_eq_ok_iff.mp signing with ⟨form, wrote, rfl⟩
  rcases Except.map_eq_ok_iff.mp wrote with ⟨fields, wroteFields, rfl⟩
  refine ⟨fields, wroteFields, ?_⟩
  rw [signedPart, signingKind]
  split
  · simp
  · simp [whole, kind]

/-- **Signatures cover the reference**, in all layouts in which they cover more than an end. -/
theorem reference_of_signingBytes {message : Bytes}
    (whole : (standard envelope action).signsEndOnly params = false)
    (signing : (standard envelope action).signingBytes params = .ok message) :
    (message.drop 12).take 64 = envelope.reference.bytes := by
  obtain ⟨fields, -, rfl⟩ := exists_fields whole signing
  exact reference_of_append (Kind.length_tagBytes _) (length_bigEndian ..)

/-- The end that is signed alone is the end of the fields and the fee. -/
theorem exists_end {message : Bytes}
    (cut : (standard envelope action).signsEndOnly params = true)
    (signing : (standard envelope action).signingBytes params = .ok message) :
    message.length = lastPaymentSize ∧
      ∃ fields, action.encode (Layout.atTime params envelope.timestamp) noAssetReference =
          .ok fields ∧
        message <:+
          action.kind.tagBytes ++ envelope.headerBytes ++ fields ++ envelope.feeBytes := by
  rw [signingBytes_eq_map] at signing
  rcases Except.map_eq_ok_iff.mp signing with ⟨form, wrote, rfl⟩
  have covered := covers_signedPart wrote
  have tagged : (standard envelope action).signsOtherTag params = false := by
    cases action <;> first | rfl | cases cut
  rw [Covers, tagged, cut] at covered
  rw [encode_unsigned, encodeUnsigned_eq_map] at wrote
  rcases Except.map_eq_ok_iff.mp wrote with ⟨fields, wroteFields, rfl⟩
  exact ⟨covered.1, fields, wroteFields, covered.2⟩

/-- The fee stands at the end. -/
theorem feeBytes_suffix {message : Bytes}
    (cut : (standard envelope action).signsEndOnly params = true)
    (signing : (standard envelope action).signingBytes params = .ok message) :
    envelope.feeBytes <:+ message := by
  obtain ⟨size, fields, -, within⟩ := exists_end cut signing
  exact List.suffix_of_suffix_length_le (List.suffix_append ..) within
    (by simp [size, lastPaymentSize])

/-- The last payment, if there is one, is all that stands before it. -/
theorem exists_leg {message : Bytes} {leg : Leg}
    (cut : (standard envelope action).signsEndOnly params = true)
    (signing : (standard envelope action).signingBytes params = .ok message)
    (last : action.legs.getLast? = some leg) :
    ∃ payment, Codec.leg.encode leg = .ok payment ∧ message = payment ++ envelope.feeBytes := by
  obtain ⟨size, fields, wroteFields, within⟩ := exists_end cut signing
  cases action with
  | multiPayment m =>
    obtain ⟨front, payment, wrotePayment, rfl⟩ := MultiPayment.exists_last wroteFields last
    have sized : message.length = (payment ++ envelope.feeBytes).length := by
      simp [size, lastPaymentSize, Codec.occupies_leg.length_eq wrotePayment]
    have inside : message <:+ payment ++ envelope.feeBytes := by
      refine List.suffix_of_suffix_length_le within ?_ sized.le
      exact ⟨Kind.multiPayment.tagBytes ++ envelope.headerBytes ++ front, by simp [Action.kind]⟩
    exact ⟨payment, wrotePayment, inside.eq_of_length sized⟩
  | payment | createPoll | voteOnPoll | issueAsset | transferAsset | deployAt | settleAt =>
    cases cut

/-- The signing bytes of an allocation are fewer than those of any other record. -/
theorem length_of_genesis {g : Genesis} {message : Bytes}
    (signing : (genesis g).signingBytes params = .ok message) : message.length = 45 := by
  have whole : (genesis g).encode params = .ok message := signing
  rcases encode_genesis_eq_ok.mp whole with ⟨tag, fields, wroteTag, wrote, rfl⟩
  have sized : Genesis.codec.Occupies 41 :=
    (Codec.occupies_int64.pair (Codec.occupies_address.pair Codec.occupies_amount)).iso
  cases wroteTag
  simp [sized.length_eq wrote]

/-- The three shapes of signing bytes have different lengths. -/
theorem shapes {r : Record} {message : Bytes} (signing : r.signingBytes params = .ok message) :
    (message.length = 45 ∧ ∃ g, r = genesis g) ∨
      (message.length = 53 ∧ ∃ envelope action,
        r = standard envelope action ∧ r.signsEndOnly params = true) ∨
      84 ≤ message.length ∧ ∃ envelope action,
        r = standard envelope action ∧ r.signsEndOnly params = false := by
  cases r with
  | genesis g => exact .inl ⟨length_of_genesis signing, g, rfl⟩
  | standard envelope action =>
    cases cut : (standard envelope action).signsEndOnly params with
    | true => exact .inr (.inl ⟨(exists_end cut signing).1, envelope, action, rfl, rfl⟩)
    | false =>
      obtain ⟨fields, -, rfl⟩ := exists_fields cut signing
      refine .inr (.inr ⟨?_, envelope, action, rfl, rfl⟩)
      simp only [List.length_append, Kind.length_tagBytes, Envelope.length_headerBytes,
        Envelope.length_feeBytes]
      omega

/-- Allocations with the same signing bytes are the same. -/
theorem eq_of_genesis {g g' : Genesis} {message : Bytes}
    (signing : (genesis g).signingBytes params = .ok message)
    (signing' : (genesis g').signingBytes params = .ok message) : g = g' := by
  have whole : (genesis g).encode params = .ok message := signing
  have whole' : (genesis g').encode params = .ok message := signing'
  rcases encode_genesis_eq_ok.mp whole with ⟨_, fields, ⟨⟩, wrote, rfl⟩
  rcases encode_genesis_eq_ok.mp whole' with ⟨_, fields', ⟨⟩, wrote', same⟩
  rw [List.append_cancel_left same] at wrote
  exact Genesis.codec_lawful.eq_of_encode trivial trivial wrote wrote'

/-- Records that are signed wholly, with the same signing bytes, say the same. -/
theorem same_of_whole {envelope' : Envelope} {action' : Action} {message : Bytes}
    (whole : (standard envelope action).signsEndOnly params = false)
    (whole' : (standard envelope' action').signsEndOnly params = false)
    (signing : (standard envelope action).signingBytes params = .ok message)
    (signing' : (standard envelope' action').signingBytes params = .ok message) :
    action.kind = action'.kind ∧ (standard envelope action).unsigned.withoutDerived =
      (standard envelope' action').unsigned.withoutDerived := by
  obtain ⟨fields, wrote, rfl⟩ := exists_fields whole signing
  obtain ⟨fields', wrote', same⟩ := exists_fields whole' signing'
  obtain ⟨tags, afterTag⟩ := Kind.eq_of_tagBytes same
  have kinds : action.kind = action'.kind := kind_eq_of_signingKind_eq tags
  obtain ⟨header, afterHeader⟩ := envelope_lawful.separates trivial trivial envelope.encode_header
    envelope'.encode_header afterTag
  obtain ⟨times, references⟩ := Prod.mk.inj header
  rw [← times] at wrote'
  obtain ⟨actions, afterAction⟩ := Action.separates kinds wrote wrote' afterHeader
  have fees := Codec.amount_lawful.eq_of_encode trivial trivial envelope.encode_fee
    (afterAction ▸ envelope'.encode_fee)
  refine ⟨kinds, ?_⟩
  simp only [unsigned, withSignature, withoutDerived, times, references, fees, actions]

/-- Records that are signed by their ends alone, with the same signing bytes, have the same fee and
the same last payment. -/
theorem same_of_end {envelope' : Envelope} {action' : Action} {message : Bytes}
    (cut : (standard envelope action).signsEndOnly params = true)
    (cut' : (standard envelope' action').signsEndOnly params = true)
    (signing : (standard envelope action).signingBytes params = .ok message)
    (signing' : (standard envelope' action').signingBytes params = .ok message) :
    envelope.fee = envelope'.fee ∧
      ∀ leg leg', action.legs.getLast? = some leg → action'.legs.getLast? = some leg' →
        leg = leg' := by
  have bytes : envelope.feeBytes = envelope'.feeBytes := by
    have first := feeBytes_suffix cut signing
    have second := feeBytes_suffix cut' signing'
    exact (List.suffix_of_suffix_length_le first second (by simp)).eq_of_length (by simp)
  have fees := Codec.amount_lawful.eq_of_encode trivial trivial envelope.encode_fee
    (bytes ▸ envelope'.encode_fee)
  refine ⟨fees, fun leg leg' last last' => ?_⟩
  obtain ⟨payment, wrote, rfl⟩ := exists_leg cut signing last
  obtain ⟨payment', wrote', same⟩ := exists_leg cut' signing' last'
  exact (Codec.leg_lawful.separates trivial trivial wrote wrote' same).1

/-- **Signing bytes tell the record.** Records with the same signing bytes are of one kind, and the
same but for their signatures and what processing fills in; of two multi-payments that are signed by
their ends alone, the last payments and the fees are the same. -/
theorem same_of_signingBytes {x y : Record} {message : Bytes}
    (signing : x.signingBytes params = .ok message)
    (signing' : y.signingBytes params = .ok message) :
    x.kind = y.kind ∧
      (¬ (x.signsEndOnly params = true ∧ y.signsEndOnly params = true) →
        x.unsigned.withoutDerived = y.unsigned.withoutDerived) ∧
      (x.signsEndOnly params = true → y.signsEndOnly params = true →
        x.fee = y.fee ∧
          ∀ leg leg', x.lastLeg? = some leg → y.lastLeg? = some leg' → leg = leg') := by
  rcases shapes signing with
    ⟨size, g, rfl⟩ | ⟨size, envelope, action, rfl, cut⟩ | ⟨size, envelope, action, rfl, whole⟩
  · rcases shapes signing' with ⟨-, g', rfl⟩ | ⟨size', -⟩ | ⟨size', -⟩
    · cases eq_of_genesis signing signing'
      exact ⟨rfl, fun _ => rfl, fun cut => by cases cut⟩
    · omega
    · omega
  · rcases shapes signing' with ⟨size', -⟩ | ⟨-, envelope', action', rfl, cut'⟩ | ⟨size', -⟩
    · omega
    · exact ⟨(kind_eq_multiPayment cut).trans (kind_eq_multiPayment cut').symm,
        fun notBoth => absurd ⟨cut, cut'⟩ notBoth,
        fun _ _ => same_of_end cut cut' signing signing'⟩
    · omega
  · rcases shapes signing' with ⟨size', -⟩ | ⟨size', -⟩ | ⟨-, envelope', action', rfl, whole'⟩
    · omega
    · omega
    · obtain ⟨kinds, same⟩ := same_of_whole whole whole' signing signing'
      exact ⟨kinds, fun _ => same, fun cut => absurd (whole.symm.trans cut) Bool.false_ne_true⟩

/-- `legacyIssue` with another signature, after it is processed. -/
def issuedAgain : Record :=
  .standard ⟨1411308000000, .fill 5, ⟨100000000⟩, some (.fill 171)⟩
    (.issueAsset ⟨.fill 6, "QVbN9WGbczLY4rPWUxzEmipQjgr2m9dQmt", "gold", "shiny", 1000, false,
      some 3⟩)

theorem same_of_signingBytes_legacyIssue :
    ∃ message, legacyIssue.signingBytes .mainChain = .ok message ∧
      issuedAgain.signingBytes .mainChain = .ok message ∧ legacyIssue.kind = issuedAgain.kind ∧
      legacyIssue.unsigned.withoutDerived = issuedAgain.unsigned.withoutDerived := by
  obtain ⟨message, signing⟩ := (writes_iff_signs legacyIssue).mp ⟨_, encode_legacyIssue⟩
  have signing' : issuedAgain.signingBytes .mainChain = .ok message := signing
  obtain ⟨kinds, same, -⟩ := same_of_signingBytes signing signing'
  exact ⟨message, signing, signing', kinds, same (by simp [legacyIssue, signsEndOnly])⟩

end Record

end ChainLedger

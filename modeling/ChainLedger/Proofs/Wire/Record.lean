import ChainLedger.Proofs.Wire.Codec
import ChainLedger.Record.Wire

/-!
# The wire form of records

A record and its bytes determine each other. The layouts of the eight actions have
the laws of the codecs that they are built from; what is left is the frame around
them: the tag, which layout the time selects, the asset reference that older asset
issues embed, and the signature, which is told by what is left of the input.

Not every record has bytes that denote it: the wire form carries nothing that is
only known from processing, and no poll without options. `Record.Transmissible`
says what a record must be for its bytes to denote it, and whatever is read is so.
-/

namespace ChainLedger

/-- The wire form carries all of the action: it has no field that processing fills in, and a poll
has an option. -/
def Action.Transmissible : Action → Prop
  | .createPoll c => c.options ≠ []
  | .voteOnPoll b => b.previous = none
  | .issueAsset i => i.assetId = none
  | .deployAt d => d.atAddress = none
  | .payment _ | .transferAsset _ | .multiPayment _ | .settleAt _ => True

/-- The wire form carries all of the record. -/
def Record.Transmissible : Record → Prop
  | .genesis _ => True
  | .standard _ action => action.Transmissible

/-! ## Actions of one layout -/

theorem Codec.leg_lawful : Codec.leg.Lawful :=
  (address_lawful.pair (uint64_lawful.pair assetAmount_lawful)).iso
    (fun _ => ⟨by simp, rfl⟩) (fun _ => ⟨trivial, rfl⟩)

theorem Genesis.codec_lawful : Genesis.codec.Lawful :=
  (Codec.int64_lawful.pair (Codec.address_lawful.pair Codec.amount_lawful)).iso
    (fun _ => ⟨by simp, rfl⟩) (fun _ => ⟨trivial, rfl⟩)

theorem Payment.codec_lawful : Payment.codec.Lawful :=
  (Codec.publicKey_lawful.pair (Codec.address_lawful.pair Codec.amount_lawful)).iso
    (fun _ => ⟨by simp, rfl⟩) (fun _ => ⟨trivial, rfl⟩)

theorem PollCreation.noVoters_lawful : noVoters.Lawful := by
  refine Codec.int32_lawful.refine ?_ ?_
  · rintro _ _ - ⟨⟩
    exact ⟨trivial, rfl⟩
  · intro count _ _ read
    split at read
    next none =>
      cases read
      exact ⟨trivial, by rw [none]⟩
    next => cases read

theorem PollCreation.optionCodec_lawful (voterCounts : Bool) :
    (optionCodec voterCounts).Lawful := by
  have name := Codec.text_lawful "poll option" Limits.pollName
  cases voterCounts with
  | false => exact name
  | true =>
    exact (name.pair noVoters_lawful).iso (fun _ => ⟨by simp, rfl⟩) (fun _ => ⟨trivial, rfl⟩)

theorem PollCreation.checkCount_eq_ok {count : Nat} : checkCount count = .ok () ↔ count ≠ 0 := by
  rw [checkCount]
  split <;> simp_all

/-- Polls are lawful where they have an option. -/
theorem PollCreation.codec_lawful (voterCounts : Bool) :
    (codec voterCounts).LawfulOn fun c => c.options ≠ [] := by
  have options := (optionCodec_lawful voterCounts).counted "poll options count"
    Limits.pollOptions checkCount
  refine (Codec.publicKey_lawful.pair <| Codec.address_lawful.pair <|
    (Codec.text_lawful "poll name" Limits.pollName).pair <|
    (Codec.text_lawful "poll description" Limits.pollDescription).pair options).iso ?_ ?_
  · intro c nonempty
    have counted : c.options.length ≠ 0 := by simpa using nonempty
    exact ⟨⟨trivial, trivial, trivial, trivial, checkCount_eq_ok.mpr counted⟩, rfl⟩
  · rintro ⟨creator, owner, name, description, options⟩ ⟨-, -, -, -, checked⟩
    have counted := checkCount_eq_ok.mp checked
    exact ⟨by simpa using counted, rfl⟩

theorem Ballot.codec_lawful : Ballot.codec.LawfulOn fun b => b.previous = none := by
  refine (Codec.publicKey_lawful.pair <| (Codec.text_lawful "poll name" Limits.pollName).pair
    Codec.int32_lawful).iso ?_ (fun _ => ⟨rfl, rfl⟩)
  rintro ⟨voter, poll, option, _⟩ ⟨⟩
  exact ⟨by simp, rfl⟩

theorem AssetIssue.codec_lawful : AssetIssue.codec.LawfulOn fun i => i.assetId = none := by
  refine (Codec.publicKey_lawful.pair <| Codec.address_lawful.pair <|
    (Codec.text_lawful "asset name" Limits.assetName).pair <|
    (Codec.text_lawful "asset description" Limits.assetDescription).pair <|
    Codec.int64_lawful.pair <| Codec.bool_lawful "asset divisibility").iso ?_
    (fun _ => ⟨rfl, rfl⟩)
  rintro ⟨issuer, owner, name, description, quantity, isDivisible, _⟩ ⟨⟩
  exact ⟨by simp, rfl⟩

theorem AssetTransfer.codec_lawful : AssetTransfer.codec.Lawful :=
  (Codec.publicKey_lawful.pair Codec.leg_lawful).iso (fun _ => ⟨by simp, rfl⟩)
    (fun _ => ⟨trivial, rfl⟩)

theorem MultiPayment.codec_lawful : MultiPayment.codec.Lawful :=
  (Codec.publicKey_lawful.pair <| Codec.leg_lawful.counted "payments count" Limits.payments
    fun _ => .ok ()).iso (fun _ => ⟨by simp, rfl⟩) (fun _ => ⟨trivial, rfl⟩)

theorem AtDeployment.codec_lawful : AtDeployment.codec.LawfulOn fun d => d.atAddress = none := by
  refine (Codec.publicKey_lawful.pair <| (Codec.text_lawful "AT name" Limits.atName).pair <|
    (Codec.text_lawful "AT description" Limits.atDescription).pair <|
    (Codec.text_lawful "AT type" Limits.atType).pair <|
    (Codec.text_lawful "AT tags" Limits.atTags).pair <|
    (Codec.sized_lawful "AT creation bytes" Limits.atCreationBytes).pair
      Codec.amount_lawful).iso ?_ (fun _ => ⟨rfl, rfl⟩)
  rintro ⟨creator, name, description, atType, tags, creationBytes, amount, _⟩ ⟨⟩
  exact ⟨by simp, rfl⟩

theorem AtSettlement.codec_lawful : AtSettlement.codec.Lawful := by
  have payment : AtSettlement.paymentCodec.Lawful :=
    (Codec.uint64_lawful.pair Codec.amount_lawful).iso (fun _ => ⟨by simp, rfl⟩)
      (fun _ => ⟨trivial, rfl⟩)
  exact (Codec.address_lawful.pair <| Codec.address_lawful.pair <|
    (payment.optional "AT payment flag").pair <| Codec.sizedByRest_lawful "AT message").iso
    (fun _ => ⟨by simp, rfl⟩) (fun _ => ⟨trivial, rfl⟩)

/-! ## Actions of every layout -/

/-- The asset reference that was read with an action, if any, is the given one. -/
def ReadAction.Embeds (read : ReadAction) (reference : Signature) : Prop :=
  ∀ embedded, read.assetReference = some embedded → embedded = reference

namespace Action

theorem decodeWith_eq_ok {α : Type} {codec : Codec α} {wrap : α → Action} {read : ReadAction}
    {bytes rest : Bytes} :
    decodeWith codec wrap bytes = .ok (read, rest) ↔
      ∃ value, codec.decode bytes = .ok (value, rest) ∧ read = ⟨wrap value, none⟩ := by
  simp only [decodeWith, Except.bind_eq_ok_iff, Except.pure_eq_ok_iff, Prod.exists]
  constructor
  · intro holds
    rcases holds with ⟨value, last, found, same⟩
    cases same
    exact ⟨value, found, rfl⟩
  · intro holds
    rcases holds with ⟨value, found, rfl⟩
    exact ⟨value, rest, found, rfl⟩

/-- A value of a lawful codec is read back as its action, with no asset reference. -/
theorem readsBack_decodeWith {α : Type} {codec : Codec α} {domain : α → Prop} {wrap : α → Action}
    {value : α} {bytes : Bytes} (law : codec.LawfulOn domain) (rest : Bytes)
    (reference : Signature) (inside : domain value) (wrote : codec.encode value = .ok bytes) :
    ∃ read, decodeWith codec wrap (bytes ++ rest) = .ok (read, rest) ∧
      read.action = wrap value ∧ read.Embeds reference :=
  ⟨_, decodeWith_eq_ok.mpr ⟨value, law.readsBack rest inside wrote, rfl⟩, rfl,
    fun _ none => by cases none⟩

/-- An action that is written is read back, with its asset reference if the layout has one. -/
theorem readsBack {layout : Layout} {reference : Signature} {action : Action} {bytes : Bytes}
    (rest : Bytes) (whole : action.Transmissible)
    (wrote : action.encode layout reference = .ok bytes) :
    ∃ read, decode layout action.kind (bytes ++ rest) = .ok (read, rest) ∧
      read.action = action ∧ read.Embeds reference := by
  cases action with
  | payment p => exact readsBack_decodeWith Payment.codec_lawful rest reference trivial wrote
  | createPoll c =>
    exact readsBack_decodeWith (PollCreation.codec_lawful _) rest reference whole wrote
  | voteOnPoll b => exact readsBack_decodeWith Ballot.codec_lawful rest reference whole wrote
  | issueAsset i =>
    simp only [encode] at wrote
    simp only [kind, decode]
    split at wrote
    next embeds =>
      have law := AssetIssue.codec_lawful.pair Codec.signature_lawful
      have unissued : i.assetId = none := whole
      have found := law.readsBack rest ⟨unissued, trivial⟩ wrote
      rw [if_pos embeds, found]
      exact ⟨⟨.issueAsset i, some reference⟩, rfl, rfl, fun _ same => by cases same; rfl⟩
    next plain =>
      rw [if_neg plain]
      exact readsBack_decodeWith AssetIssue.codec_lawful rest reference whole wrote
  | transferAsset t =>
    exact readsBack_decodeWith AssetTransfer.codec_lawful rest reference trivial wrote
  | multiPayment m =>
    exact readsBack_decodeWith MultiPayment.codec_lawful rest reference trivial wrote
  | deployAt d => exact readsBack_decodeWith AtDeployment.codec_lawful rest reference whole wrote
  | settleAt s =>
    exact readsBack_decodeWith AtSettlement.codec_lawful rest reference trivial wrote

/-- What reading an action of a kind tells: the action is of that kind and whole, and the bytes are
those written for it with any asset reference that agrees with the one read. -/
def ReadFrom (layout : Layout) (kind : Kind) (bytes : Bytes) (read : ReadAction) (rest : Bytes) :
    Prop :=
  read.action.kind = kind ∧ read.action.Transmissible ∧
    ∀ reference, read.Embeds reference →
      ∃ front, read.action.encode layout reference = .ok front ∧ bytes = front ++ rest

/-- A value that a lawful codec reads is written as what was read. -/
theorem canonical_decodeWith {α : Type} {codec : Codec α} {domain : α → Prop} {wrap : α → Action}
    {layout : Layout} {kind : Kind} {read : ReadAction} {bytes rest : Bytes}
    (law : codec.LawfulOn domain) (kindEq : ∀ value, (wrap value).kind = kind)
    (whole : ∀ value, domain value → (wrap value).Transmissible)
    (encodeEq : ∀ value reference, (wrap value).encode layout reference = codec.encode value)
    (found : decodeWith codec wrap bytes = .ok (read, rest)) :
    ReadFrom layout kind bytes read rest := by
  rcases decodeWith_eq_ok.mp found with ⟨value, decoded, rfl⟩
  obtain ⟨inside, front, wrote, split⟩ := law.canonical decoded
  exact ⟨kindEq value, whole value inside,
    fun reference _ => ⟨front, (encodeEq value reference).trans wrote, split⟩⟩

theorem canonical {layout : Layout} {kind : Kind} {read : ReadAction} {bytes rest : Bytes}
    (found : decode layout kind bytes = .ok (read, rest)) :
    ReadFrom layout kind bytes read rest := by
  cases kind with
  | payment =>
    exact canonical_decodeWith Payment.codec_lawful (fun _ => rfl) (fun _ _ => by trivial)
      (fun _ _ => rfl) found
  | createPoll =>
    exact canonical_decodeWith (PollCreation.codec_lawful _) (fun _ => rfl) (fun _ => id)
      (fun _ _ => rfl) found
  | voteOnPoll =>
    exact canonical_decodeWith Ballot.codec_lawful (fun _ => rfl) (fun _ => id)
      (fun _ _ => rfl) found
  | issueAsset =>
    simp only [decode] at found
    split at found
    next embeds =>
      simp only [Except.bind_eq_ok_iff, Except.pure_eq_ok_iff, Prod.exists] at found
      obtain ⟨issue, reference, last, decoded, same⟩ := found
      cases same
      have law := AssetIssue.codec_lawful.pair Codec.signature_lawful
      obtain ⟨⟨whole, -⟩, front, wrote, split⟩ := law.canonical decoded
      refine ⟨rfl, whole, fun other agrees => ⟨front, ?_, split⟩⟩
      cases agrees reference rfl
      simp only [encode, if_pos embeds]
      exact wrote
    next plain =>
      refine canonical_decodeWith AssetIssue.codec_lawful (fun _ => rfl) (fun _ => id) ?_ found
      intro issue reference
      simp only [encode, if_neg plain]
  | transferAsset =>
    exact canonical_decodeWith AssetTransfer.codec_lawful (fun _ => rfl) (fun _ _ => by trivial)
      (fun _ _ => rfl) found
  | multiPayment =>
    exact canonical_decodeWith MultiPayment.codec_lawful (fun _ => rfl) (fun _ _ => by trivial)
      (fun _ _ => rfl) found
  | deployAt =>
    exact canonical_decodeWith AtDeployment.codec_lawful (fun _ => rfl) (fun _ => id)
      (fun _ _ => rfl) found
  | «at» =>
    exact canonical_decodeWith AtSettlement.codec_lawful (fun _ => rfl) (fun _ _ => by trivial)
      (fun _ _ => rfl) found
  | genesis | registerName | updateName | sellName | cancelSellName | buyName | arbitrary
  | createAssetOrder | cancelAssetOrder | message => cases found

end Action

/-! ## The frame of a record -/

namespace Codec

theorem lastSignature_eq_ok {bytes : Bytes} {signature : Option Signature} :
    lastSignature bytes = .ok signature ↔ bytes = encodeLastSignature signature := by
  rw [lastSignature]
  cases bytes with
  | nil =>
    cases signature with
    | none => simp [encodeLastSignature]
    | some s =>
      have full : s.bytes ≠ [] := List.ne_nil_of_length_eq_add_one s.length_eq
      simpa [encodeLastSignature] using full.symm
  | cons byte rest =>
    rw [if_neg (by simp)]
    cases signature with
    | none =>
      cases sized : (FixedBytes.ofBytes? (byte :: rest) : Option Signature) with
      | some s => simp [encodeLastSignature]
      | none =>
        simp only [encodeLastSignature, reduceCtorEq, iff_false]
        split <;> simp
    | some s =>
      rw [encodeLastSignature, ← FixedBytes.ofBytes?_eq_some_iff]
      cases sized : (FixedBytes.ofBytes? (byte :: rest) : Option Signature) with
      | some s => simp
      | none =>
        simp only [reduceCtorEq, iff_false]
        split <;> simp

theorem finish_eq_ok {bytes : Bytes} : finish bytes = .ok () ↔ bytes = [] := by
  cases bytes <;> simp [finish]

end Codec

namespace Record

theorem assemble_eq_ok {envelope : Envelope} {read : ReadAction} {r : Record} :
    assemble envelope read = .ok r ↔
      r = .standard envelope read.action ∧ read.Embeds envelope.assetReference := by
  rw [assemble]
  cases embedded : read.assetReference with
  | none => simp [ReadAction.Embeds, embedded, eq_comm]
  | some reference =>
    by_cases agrees : reference = envelope.assetReference
    · simp [ReadAction.Embeds, embedded, agrees, eq_comm]
    · simp [ReadAction.Embeds, embedded, agrees]

theorem encodeUnsigned_eq_ok {params : ChainParams} {envelope : Envelope} {action : Action}
    {reference : Signature} {bytes : Bytes} :
    encodeUnsigned params envelope action reference = .ok bytes ↔
      ∃ tag header fields fee, Codec.int32.encode action.kind.tag = .ok tag ∧
        Envelope.codec.encode (envelope.timestamp, envelope.reference) = .ok header ∧
        action.encode (Layout.atTime params envelope.timestamp) reference = .ok fields ∧
        Codec.amount.encode envelope.fee = .ok fee ∧ bytes = tag ++ header ++ fields ++ fee := by
  simp only [encodeUnsigned, Except.bind_eq_ok_iff, Except.pure_eq_ok_iff]
  constructor
  · intro holds
    rcases holds with ⟨tag, wroteTag, header, wroteHeader, fields, wroteFields, fee, wroteFee, rfl⟩
    exact ⟨tag, header, fields, fee, wroteTag, wroteHeader, wroteFields, wroteFee, rfl⟩
  · intro holds
    rcases holds with ⟨tag, header, fields, fee, wroteTag, wroteHeader, wroteFields, wroteFee, rfl⟩
    exact ⟨tag, wroteTag, header, wroteHeader, fields, wroteFields, fee, wroteFee, rfl⟩

theorem encode_standard_eq_ok {params : ChainParams} {envelope : Envelope} {action : Action}
    {bytes : Bytes} :
    encode params (.standard envelope action) = .ok bytes ↔
      ∃ body, encodeUnsigned params envelope action envelope.assetReference = .ok body ∧
        bytes = body ++ Codec.encodeLastSignature envelope.signature := by
  simp only [encode, Except.bind_eq_ok_iff, Except.pure_eq_ok_iff]
  exact exists_congr fun body => and_congr_right fun _ => eq_comm

/-- What follows the tag is read as the header, an action of the layout that the time selects, the
fee, and a signature if anything is left. -/
theorem decodeStandard_eq_ok {params : ChainParams} {kind : Kind} {bytes : Bytes} {r : Record} :
    decodeStandard params kind bytes = .ok r ↔
      ∃ envelope read fields tail,
        Envelope.codec.decode bytes = .ok ((envelope.timestamp, envelope.reference), fields) ∧
        Action.decode (Layout.atTime params envelope.timestamp) kind fields = .ok (read, tail) ∧
        Codec.amount.decode tail =
          .ok (envelope.fee, Codec.encodeLastSignature envelope.signature) ∧
        r = .standard envelope read.action ∧ read.Embeds envelope.assetReference := by
  simp only [decodeStandard, Except.bind_eq_ok_iff, Prod.exists, Codec.lastSignature_eq_ok,
    assemble_eq_ok, Envelope.codec, Codec.pair_decode_eq_ok]
  constructor
  · rintro ⟨timestamp, afterTime, readTime, reference, fields, readReference, read, tail,
      readAction, fee, last, readFee, signature, rfl, assembled⟩
    exact ⟨⟨timestamp, reference, fee, signature⟩, read, fields, tail,
      ⟨afterTime, readTime, readReference⟩, readAction, readFee, assembled⟩
  · rintro ⟨envelope, read, fields, tail, ⟨afterTime, readTime, readReference⟩, readAction, readFee,
      assembled⟩
    exact ⟨_, afterTime, readTime, _, fields, readReference, read, tail, readAction, _, _, readFee,
      _, rfl, assembled⟩

theorem envelope_lawful : Envelope.codec.Lawful := by
  have law := Codec.int64_lawful.pair Codec.signature_lawful
  exact ⟨fun rest _ wrote => law.readsBack rest (by simp) wrote,
    fun found => ⟨trivial, (law.canonical found).2⟩⟩

/-- The bytes of a record after its tag denote the record, whichever layout its time selects. -/
theorem decodeStandard_encode {params : ChainParams} {envelope : Envelope} {action : Action}
    {bytes : Bytes} (whole : action.Transmissible)
    (wrote : encode params (.standard envelope action) = .ok bytes) :
    ∃ tag after, Codec.int32.encode action.kind.tag = .ok tag ∧ bytes = tag ++ after ∧
      decodeStandard params action.kind after = .ok (.standard envelope action) := by
  rcases encode_standard_eq_ok.mp wrote with ⟨body, wroteBody, rfl⟩
  obtain ⟨tag, header, fields, fee, wroteTag, wroteHeader, wroteFields, wroteFee, rfl⟩ :=
    encodeUnsigned_eq_ok.mp wroteBody
  obtain ⟨read, readAction, rfl, embeds⟩ := Action.readsBack
    (fee ++ Codec.encodeLastSignature envelope.signature) whole wroteFields
  refine ⟨tag, header ++ (fields ++ (fee ++ Codec.encodeLastSignature envelope.signature)),
    wroteTag, by simp, decodeStandard_eq_ok.mpr ?_⟩
  exact ⟨envelope, read, _, _, envelope_lawful.readsBack _ trivial wroteHeader, readAction,
    Codec.amount_lawful.readsBack _ trivial wroteFee, rfl, embeds⟩

/-- Whatever is read after a tag is a whole record, and was read from the bytes it is written as. -/
theorem encode_decodeStandard {params : ChainParams} {kind : Kind} {tag bytes : Bytes} {r : Record}
    (wroteTag : Codec.int32.encode kind.tag = .ok tag)
    (found : decodeStandard params kind bytes = .ok r) :
    r.Transmissible ∧ encode params r = .ok (tag ++ bytes) := by
  obtain ⟨envelope, read, fields, tail, readHeader, readAction, readFee, rfl, embeds⟩ :=
    decodeStandard_eq_ok.mp found
  obtain ⟨-, header, wroteHeader, rfl⟩ := envelope_lawful.canonical readHeader
  obtain ⟨kindEq, whole, written⟩ := Action.canonical readAction
  obtain ⟨front, wroteFields, rfl⟩ := written _ embeds
  obtain ⟨-, fee, wroteFee, rfl⟩ := Codec.amount_lawful.canonical readFee
  refine ⟨whole, encode_standard_eq_ok.mpr ⟨tag ++ header ++ front ++ fee, ?_, by simp⟩⟩
  exact encodeUnsigned_eq_ok.mpr
    ⟨tag, header, front, fee, kindEq ▸ wroteTag, wroteHeader, wroteFields, wroteFee, rfl⟩

theorem decodeGenesis_eq_ok {bytes : Bytes} {r : Record} :
    decodeGenesis bytes = .ok r ↔
      ∃ g, Genesis.codec.decode bytes = .ok (g, []) ∧ r = .genesis g := by
  simp only [decodeGenesis, Except.bind_eq_ok_iff, Except.pure_eq_ok_iff, Prod.exists]
  constructor
  · intro holds
    rcases holds with ⟨g, rest, found, _, finished, rfl⟩
    exact ⟨g, Codec.finish_eq_ok.mp finished ▸ found, rfl⟩
  · intro holds
    rcases holds with ⟨g, found, rfl⟩
    exact ⟨g, [], found, ⟨⟩, rfl, rfl⟩

theorem encode_genesis_eq_ok {params : ChainParams} {g : Genesis} {bytes : Bytes} :
    encode params (.genesis g) = .ok bytes ↔
      ∃ tag fields, Codec.int32.encode Kind.genesis.tag = .ok tag ∧
        Genesis.codec.encode g = .ok fields ∧ bytes = tag ++ fields :=
  Codec.append_eq_ok_iff

/-- A record is read by its tag: a genesis in its own way and every other supported kind in one. -/
theorem decode_eq_ok {params : ChainParams} {bytes : Bytes} {r : Record} :
    decode params bytes = .ok r ↔
      ∃ kind rest, Codec.int32.decode bytes = .ok (kind.tag, rest) ∧ kind.isSupported ∧
        (if kind = .genesis then decodeGenesis rest else decodeStandard params kind rest) =
          .ok r := by
  simp only [decode, Except.bind_eq_ok_iff, Prod.exists]
  constructor
  · intro holds
    rcases holds with ⟨tag, rest, readTag, found⟩
    split at found
    · cases found
    next kind known =>
      have tagEq := Kind.tag_of_ofTag? known
      subst tagEq
      refine ⟨kind, rest, readTag, ?_⟩
      split at found
      next genesis =>
        subst genesis
        exact ⟨rfl, by rw [if_pos rfl]; exact found⟩
      next other =>
        split at found
        next supported => exact ⟨supported, by rw [if_neg other]; exact found⟩
        next => cases found
  · intro holds
    rcases holds with ⟨kind, rest, readTag, supported, found⟩
    refine ⟨kind.tag, rest, readTag, ?_⟩
    rw [Kind.ofTag?_tag]
    simp only [supported, if_true]
    exact found

/-! ## Records and their bytes -/

/-- A record other than a genesis is what its bytes denote. -/
theorem decode_encode_standard {params : ChainParams} {envelope : Envelope} {action : Action}
    {bytes : Bytes} (whole : action.Transmissible)
    (wrote : encode params (.standard envelope action) = .ok bytes) :
    decode params bytes = .ok (.standard envelope action) := by
  obtain ⟨tag, after, wroteTag, rfl, found⟩ := decodeStandard_encode whole wrote
  refine decode_eq_ok.mpr ⟨action.kind, after,
    Codec.int32_lawful.readsBack _ trivial wroteTag, ?_, ?_⟩
  · cases action <;> rfl
  · rw [if_neg (by cases action <;> simp [Action.kind])]
    exact found

/-- **The wire form is faithful.** A whole record that has a byte form is what its bytes denote,
signed or not, at every time. -/
theorem wire_readsBack {params : ChainParams} {r : Record} {bytes : Bytes}
    (whole : r.Transmissible) (wrote : encode params r = .ok bytes) :
    decode params bytes = .ok r := by
  cases r with
  | genesis g =>
    rcases encode_genesis_eq_ok.mp wrote with ⟨tag, fields, wroteTag, wroteFields, rfl⟩
    refine decode_eq_ok.mpr ⟨.genesis, fields, Codec.int32_lawful.readsBack _ trivial wroteTag,
      rfl, ?_⟩
    rw [if_pos rfl]
    have found := Genesis.codec_lawful.readsBack [] trivial wroteFields
    rw [List.append_nil] at found
    exact decodeGenesis_eq_ok.mpr ⟨g, found, rfl⟩
  | standard envelope action => exact decode_encode_standard whole wrote

/-- An issue of the older layout, which embeds its signature a second time. -/
def legacyIssue : Record :=
  .standard ⟨1411308000000, .fill 5, ⟨100000000⟩, some (.fill 170)⟩
    (.issueAsset ⟨.fill 6, "QVbN9WGbczLY4rPWUxzEmipQjgr2m9dQmt", "gold", "shiny", 1000, false,
      none⟩)

/-- The bytes of `legacyIssue`. -/
def legacyIssueBytes : Bytes :=
  [0, 0, 0, 11] ++ [0, 0, 1, 72, 152, 131, 19, 0] ++ List.replicate 64 5 ++ List.replicate 32 6 ++
    [58, 98, 155, 28, 206, 113, 229, 149, 237, 85, 60, 35, 81, 117, 45, 91, 72, 207, 182, 3, 56,
      145, 238, 61, 199] ++
    [0, 0, 0, 4, 103, 111, 108, 100] ++ [0, 0, 0, 5, 115, 104, 105, 110, 121] ++
    [0, 0, 0, 0, 0, 0, 3, 232] ++ [0] ++ List.replicate 64 170 ++ [0, 0, 0, 0, 5, 245, 225, 0] ++
    List.replicate 64 170

theorem encode_sampleAccount :
    Codec.address.encode Address.Sample.account = .ok Address.Sample.accountBytes := by
  have raw : (Address.toRaw Address.Sample.account).mapError WireError.invalidAddress =
      .ok ⟨Address.Sample.accountBytes, rfl⟩ := by
    rw [Address.Sample.toRaw_account]
    rfl
  exact Codec.refine_encode_eq_ok.mpr ⟨_, raw, rfl⟩

theorem encode_legacyIssue : encode .mainChain legacyIssue = .ok legacyIssueBytes := by
  have texts : ((Codec.text "asset name" Limits.assetName).pair <|
      (Codec.text "asset description" Limits.assetDescription).pair <|
      Codec.int64.pair <| Codec.bool "asset divisibility").encode ("gold", "shiny", 1000, false) =
        .ok ([0, 0, 0, 4, 103, 111, 108, 100] ++ [0, 0, 0, 5, 115, 104, 105, 110, 121] ++
          [0, 0, 0, 0, 0, 0, 3, 232] ++ [0]) := rfl
  have key : Codec.publicKey.encode (.fill 6) = .ok (List.replicate 32 6) := rfl
  have issue : AssetIssue.codec.encode
      ⟨.fill 6, Address.Sample.account, "gold", "shiny", 1000, false, none⟩ = .ok _ :=
    Codec.encode_iso (Codec.encode_pair key (Codec.encode_pair encode_sampleAccount texts))
  have fields := Codec.encode_pair issue
    (rfl : Codec.signature.encode (.fill 170) = .ok (List.replicate 64 170))
  refine encode_standard_eq_ok.mpr ⟨_, encodeUnsigned_eq_ok.mpr ⟨[0, 0, 0, 11],
    [0, 0, 1, 72, 152, 131, 19, 0] ++ List.replicate 64 5, _, [0, 0, 0, 0, 5, 245, 225, 0], ?_, ?_,
    fields, ?_, rfl⟩, rfl⟩ <;> rfl

theorem wire_readsBack_legacyIssue :
    legacyIssue.Transmissible ∧ encode .mainChain legacyIssue = .ok legacyIssueBytes ∧
      decode .mainChain legacyIssueBytes = .ok legacyIssue :=
  ⟨rfl, encode_legacyIssue, wire_readsBack rfl encode_legacyIssue⟩

/-- **Whatever is read** is a whole record, and was read from the bytes it is written as. -/
theorem encode_of_decode {params : ChainParams} {bytes : Bytes} {r : Record}
    (read : decode params bytes = .ok r) : r.Transmissible ∧ encode params r = .ok bytes := by
  obtain ⟨kind, rest, readTag, -, readRest⟩ := decode_eq_ok.mp read
  obtain ⟨-, tag, wroteTag, rfl⟩ := Codec.int32_lawful.canonical readTag
  split at readRest
  next genesis =>
    obtain ⟨g, readFields, rfl⟩ := decodeGenesis_eq_ok.mp readRest
    obtain ⟨-, fields, wroteFields, rfl⟩ := Genesis.codec_lawful.canonical readFields
    rw [List.append_nil]
    exact ⟨trivial, encode_genesis_eq_ok.mpr ⟨tag, fields, genesis ▸ wroteTag, wroteFields, rfl⟩⟩
  next => exact encode_decodeStandard wroteTag readRest

/-- **The wire form is canonical.** Bytes that denote a record are the bytes it is written as, so
that no others denote it. -/
theorem wire_canonical {params : ChainParams} {bytes : Bytes} {r : Record}
    (read : decode params bytes = .ok r) :
    encode params r = .ok bytes ∧ ∀ other, decode params other = .ok r → other = bytes := by
  have wrote := (encode_of_decode read).2
  refine ⟨wrote, fun other readOther => ?_⟩
  exact Except.ok.inj ((encode_of_decode readOther).2.symm.trans wrote)

theorem wire_canonical_legacyIssue :
    decode .mainChain legacyIssueBytes = .ok legacyIssue ∧
      encode .mainChain legacyIssue = .ok legacyIssueBytes ∧
      ∀ other, decode .mainChain other = .ok legacyIssue → other = legacyIssueBytes := by
  have read : decode .mainChain legacyIssueBytes = .ok legacyIssue :=
    decode_encode_standard rfl encode_legacyIssue
  exact ⟨read, wire_canonical read⟩

end Record

end ChainLedger

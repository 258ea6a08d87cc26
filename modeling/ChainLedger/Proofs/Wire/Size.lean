import ChainLedger.Proofs.Wire.Separation
import ChainLedger.Record.Size

/-!
# Sizes are exact

The size of a record is reckoned from its fields, layout by layout, and apart from the codecs
that write it. That the two agree (`Codec.SizedBy`) passes from codecs to the codecs that are
built from them, like their laws do: a pair takes the bytes of its parts, a list those of its
values, and what a codec refuses to write has no bytes to be counted.
-/

namespace ChainLedger

namespace Codec

variable {α β : Type}

/-- Every value is written in the number of bytes that is reckoned for it. -/
structure SizedBy (codec : Codec α) (size : α → Nat) : Prop where
  length_eq : ∀ {value bytes}, codec.encode value = .ok bytes → bytes.length = size value

/-! ## Combining codecs -/

theorem SizedBy.congr {codec : Codec α} {size other : α → Nat} (sized : codec.SizedBy size)
    (same : ∀ value, size value = other value) : codec.SizedBy other :=
  ⟨fun wrote => (sized.length_eq wrote).trans (same _)⟩

theorem SizedBy.pair {first : Codec α} {second : Codec β} {size : α → Nat} {size' : β → Nat}
    (sized : first.SizedBy size) (sized' : second.SizedBy size') :
    (first.pair second).SizedBy fun value => size value.1 + size' value.2 where
  length_eq wrote := by
    rcases pair_encode_eq_ok.mp wrote with ⟨front, back, wroteFront, wroteBack, rfl⟩
    rw [List.length_append, sized.length_eq wroteFront, sized'.length_eq wroteBack]

/-- A value in another representation takes the bytes of what stands for it. -/
theorem SizedBy.refine {codec : Codec α} {read : α → Except WireError β}
    {write : β → Except WireError α} {size : α → Nat} {size' : β → Nat}
    (sized : codec.SizedBy size) (same : ∀ {a b}, write b = .ok a → size a = size' b) :
    (codec.refine read write).SizedBy size' where
  length_eq wrote := by
    rcases refine_encode_eq_ok.mp wrote with ⟨a, written, wroteBytes⟩
    rw [sized.length_eq wroteBytes, same written]

theorem SizedBy.iso {codec : Codec α} {read : α → β} {write : β → α} {size : α → Nat}
    (sized : codec.SizedBy size) : (codec.iso read write).SizedBy fun b => size (write b) := by
  refine sized.refine ?_
  rintro _ b ⟨⟩
  rfl

/-- Values one after the other take the bytes of all of them. -/
theorem SizedBy.length_encodeList {item : Codec α} {size : α → Nat} (sized : item.SizedBy size)
    {values : List α} {bytes : Bytes} (wrote : encodeList item values = .ok bytes) :
    bytes.length = (values.map size).sum := by
  induction values generalizing bytes with
  | nil =>
    cases wrote
    rfl
  | cons a as ih =>
    rcases encodeList_cons_eq_ok.mp wrote with ⟨front, back, wroteFront, wroteBack, rfl⟩
    rw [List.length_append, sized.length_eq wroteFront, ih wroteBack, List.map_cons, List.sum_cons]

/-! ## Fields -/

theorem Occupies.sizedBy {codec : Codec α} {size : Nat} (same : codec.Occupies size) :
    codec.SizedBy fun _ => size :=
  ⟨same.length_eq⟩

theorem sizedBy_sized (field : String) (max : Nat) :
    (sized field max).SizedBy fun value => sizedSize value.length where
  length_eq wrote := by
    rcases sized_encode_eq_ok.mp wrote with ⟨front, wroteLength, rfl⟩
    rw [List.length_append, (occupies_length field max).length_eq wroteLength, sizedSize]

theorem sizedBy_sizedByRest (field : String) :
    (sizedByRest field).SizedBy fun value => sizedSize value.length :=
  ⟨(sizedBy_sized field maxLength).length_eq⟩

/-- A text takes the bytes of its length and its own, however many characters these are. -/
theorem sizedBy_text (field : String) (max : Nat) : (text field max).SizedBy textSize := by
  refine (sizedBy_sized field max).refine ?_
  rintro _ value ⟨⟩
  rfl

theorem SizedBy.counted {item : Codec α} {size : α → Nat} (sized : item.SizedBy size)
    (field : String) (max : Nat) (check : Nat → Except WireError Unit) :
    (counted field max check item).SizedBy fun values => 4 + (values.map size).sum where
  length_eq wrote := by
    rcases counted_encode_eq_ok.mp wrote with ⟨front, back, wroteCount, wroteItems, rfl⟩
    rw [List.length_append, (occupies_length field max).length_eq wroteCount,
      sized.length_encodeList wroteItems]

/-- What is not there takes its flag alone. -/
theorem SizedBy.optional {item : Codec α} {size : α → Nat} (sized : item.SizedBy size)
    (flag : String) : (optional flag item).SizedBy fun value => 1 + value.elim 0 size where
  length_eq := by
    intro value bytes wrote
    cases value with
    | none => exact (occupies_bool flag).length_eq wrote
    | some value =>
      rcases append_eq_ok_iff.mp wrote with ⟨front, back, wroteFlag, wroteValue, rfl⟩
      rw [List.length_append, (occupies_bool flag).length_eq wroteFlag,
        sized.length_eq wroteValue, Option.elim_some]

theorem length_encodeLastSignature (signature : Option Signature) :
    (encodeLastSignature signature).length = if signature.isSome then 64 else 0 := by
  cases signature with
  | none => rfl
  | some s => exact s.length_eq

end Codec

open Codec

/-! ## Actions -/

namespace Action

variable (layout : Layout)

theorem sizedBy_payment : Payment.codec.SizedBy fun p => (payment p).size layout :=
  ((occupies_fixed 32).pair (occupies_address.pair occupies_amount)).iso.sizedBy

/-- An option takes four bytes more where the layout has voter counts. -/
theorem sizedBy_pollOption (voterCounts : Bool) :
    (PollCreation.optionCodec voterCounts).SizedBy fun option =>
      textSize option + if voterCounts then 4 else 0 := by
  have name := sizedBy_text "poll option" Limits.pollName
  cases voterCounts with
  | false => exact name
  | true =>
    have noVoters : PollCreation.noVoters.Occupies 4 := occupies_int32.refine
    exact (name.pair noVoters.sizedBy).iso

theorem sizedBy_createPoll :
    (PollCreation.codec layout.voterCounts).SizedBy fun c => (createPoll c).size layout := by
  have options := (sizedBy_pollOption layout.voterCounts).counted "poll options count"
    Limits.pollOptions PollCreation.checkCount
  refine ((occupies_fixed 32).sizedBy.pair <| occupies_address.sizedBy.pair <|
    (sizedBy_text ..).pair <| (sizedBy_text ..).pair options).iso.congr fun c => ?_
  simp only [size, List.sum, List.foldr_map]
  omega

theorem sizedBy_voteOnPoll : Ballot.codec.SizedBy fun b => (voteOnPoll b).size layout :=
  ((occupies_fixed 32).sizedBy.pair <|
    (sizedBy_text ..).pair occupies_int32.sizedBy).iso.congr fun _ => (Nat.add_assoc ..).symm

/-- The fields of an issue, without the asset reference that an older layout puts after them. -/
theorem sizedBy_assetIssue : AssetIssue.codec.SizedBy fun i =>
    32 + 25 + textSize i.name + textSize i.description + 8 + 1 := by
  refine ((occupies_fixed 32).sizedBy.pair <| occupies_address.sizedBy.pair <|
    (sizedBy_text ..).pair <| (sizedBy_text ..).pair
      (occupies_int64.pair (occupies_bool _)).sizedBy).iso.congr fun i => ?_
  simp only
  omega

theorem sizedBy_transferAsset :
    AssetTransfer.codec.SizedBy fun t => (transferAsset t).size layout :=
  ((occupies_fixed 32).pair occupies_leg).iso.sizedBy

theorem sizedBy_multiPayment :
    MultiPayment.codec.SizedBy fun m => (multiPayment m).size layout := by
  have legs := occupies_leg.sizedBy.counted "payments count" Limits.payments fun _ => .ok ()
  refine ((occupies_fixed 32).sizedBy.pair legs).iso.congr fun m => ?_
  simp only [size, legSize, List.map_const', List.sum_replicate_nat]
  omega

theorem sizedBy_deployAt : AtDeployment.codec.SizedBy fun d => (deployAt d).size layout := by
  refine ((occupies_fixed 32).sizedBy.pair <| (sizedBy_text ..).pair <| (sizedBy_text ..).pair <|
    (sizedBy_text ..).pair <| (sizedBy_text ..).pair <| (sizedBy_sized ..).pair
    occupies_amount.sizedBy).iso.congr fun d => ?_
  simp only [size]
  omega

theorem sizedBy_settleAt : AtSettlement.codec.SizedBy fun s => (settleAt s).size layout := by
  have payment : AtSettlement.paymentCodec.Occupies 16 := (occupies_uint64.pair occupies_amount).iso
  refine (occupies_address.sizedBy.pair <| occupies_address.sizedBy.pair <|
    (payment.sizedBy.optional _).pair <| sizedBy_sizedByRest _).iso.congr fun s => ?_
  simp only [size]
  cases s.payment with
  | none => simp only [Option.elim_none, Option.isSome_none, Bool.false_eq_true, if_false]; omega
  | some paid => simp only [Option.elim_some, Option.isSome_some, if_true]; omega

variable {layout} {reference : Signature} {action : Action} {bytes : Bytes}

/-- **An action takes the bytes that are reckoned for it**, in every layout. -/
theorem length_encode (wrote : action.encode layout reference = .ok bytes) :
    bytes.length = action.size layout := by
  cases action with
  | payment p => exact (sizedBy_payment layout).length_eq wrote
  | createPoll c => exact (sizedBy_createPoll layout).length_eq wrote
  | voteOnPoll b => exact (sizedBy_voteOnPoll layout).length_eq wrote
  | issueAsset i =>
    rw [encode] at wrote
    rw [size]
    split at wrote
    next older =>
      have reference : signature.Occupies 64 := occupies_fixed 64
      rw [(sizedBy_assetIssue.pair reference.sizedBy).length_eq wrote, if_pos older]
    next newer => rw [sizedBy_assetIssue.length_eq wrote, if_neg newer, Nat.add_zero]
  | transferAsset t => exact (sizedBy_transferAsset layout).length_eq wrote
  | multiPayment m => exact (sizedBy_multiPayment layout).length_eq wrote
  | deployAt d => exact (sizedBy_deployAt layout).length_eq wrote
  | settleAt s => exact (sizedBy_settleAt layout).length_eq wrote

end Action

/-! ## Records -/

namespace Record

variable {params : ChainParams} {envelope : Envelope} {action : Action} {reference : Signature}
  {bytes : Bytes}

theorem length_encodeUnsigned
    (wrote : encodeUnsigned params envelope action reference = .ok bytes) :
    bytes.length =
      4 + 8 + 64 + action.size (Layout.atTime params envelope.timestamp) + 8 := by
  obtain ⟨tag, header, fields, fee, wroteTag, wroteHeader, wroteFields, wroteFee, rfl⟩ :=
    encodeUnsigned_eq_ok.mp wrote
  have timed : Envelope.codec.Occupies (8 + 64) := occupies_int64.pair (occupies_fixed 64)
  simp only [List.length_append, occupies_int32.length_eq wroteTag, timed.length_eq wroteHeader,
    Action.length_encode wroteFields, occupies_amount.length_eq wroteFee]

/-- **The size of a record is the number of its bytes**, in every layout that its time can select,
signed or not, and whatever it has from processing. -/
theorem size_eq_length {r : Record} (wrote : r.encode params = .ok bytes) :
    r.size params = bytes.length := by
  cases r with
  | genesis g =>
    obtain ⟨tag, fields, wroteTag, wroteFields, rfl⟩ := encode_genesis_eq_ok.mp wrote
    have fixed : Genesis.codec.Occupies (8 + (25 + 8)) :=
      (occupies_int64.pair (occupies_address.pair occupies_amount)).iso
    rw [List.length_append, occupies_int32.length_eq wroteTag, fixed.length_eq wroteFields, size]
  | standard envelope action =>
    obtain ⟨body, wroteBody, rfl⟩ := encode_standard_eq_ok.mp wrote
    rw [List.length_append, length_encodeUnsigned wroteBody, length_encodeLastSignature, size]

theorem size_legacyIssue : encode .mainChain legacyIssue = .ok legacyIssueBytes ∧
    legacyIssue.size .mainChain = legacyIssueBytes.length :=
  ⟨encode_legacyIssue, size_eq_length encode_legacyIssue⟩

end Record

end ChainLedger

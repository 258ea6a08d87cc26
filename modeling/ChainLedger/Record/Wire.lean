import ChainLedger.Limits
import ChainLedger.Signature
import ChainLedger.Wire.Field

/-!
# Records on the wire

A genesis record is its tag, time, recipient and amount. Every other record is its
tag, time and reference, the fields of its action, the fee and, if it is signed, the
signature, which is told from its absence by what is left of the input. Poll
creations and asset issues have an older layout, chosen by their time.

The signing bytes are the unsigned form, with three exceptions for older records: a
poll creation is signed under another tag, an asset issue with zeros for its asset
reference, and a multi-payment by its last payment and fee alone.
-/

namespace ChainLedger

/-- Which of the older layouts are in force. -/
structure Layout where
  /-- Every option of a poll is followed by a voter count of zero. -/
  voterCounts : Bool
  /-- An asset issue ends with its own signature, or zeros while it is unsigned. -/
  assetReference : Bool

namespace Layout

/-- The layouts in force at a given time. -/
def atTime (params : ChainParams) (time : Timestamp) : Layout where
  voterCounts := params.isLegacyCreatePoll time
  assetReference := params.isLegacyIssueAsset time

end Layout

/-! ## Fields of the actions -/

namespace Payment

def codec : Codec Payment :=
  (Codec.publicKey.pair (Codec.address.pair Codec.amount)).iso
    (fun (sender, recipient, amount) => ⟨sender, recipient, amount⟩)
    (fun p => (p.sender, p.recipient, p.amount))

end Payment

namespace PollCreation

/-- The voter count after an option of an older poll: always zero. -/
def noVoters : Codec Unit :=
  Codec.int32.refine
    (fun count =>
      if count = 0 then .ok ()
      else .error (.invalidValue "poll option voter count" (.voterCount count)))
    (fun () => .ok 0)

/-- One option, with its voter count where the layout has one. -/
def optionCodec (voterCounts : Bool) : Codec String :=
  let name := Codec.text "poll option" Limits.pollName
  if voterCounts then (name.pair noVoters).iso Prod.fst (fun option => (option, ())) else name

/-- A poll that is read has at least one option. -/
def checkCount (count : Nat) : Except WireError Unit :=
  if count = 0 then .error (.invalidValue "poll options count" .noOptions) else .ok ()

def codec (voterCounts : Bool) : Codec PollCreation :=
  (Codec.publicKey.pair <| Codec.address.pair <|
    (Codec.text "poll name" Limits.pollName).pair <|
    (Codec.text "poll description" Limits.pollDescription).pair <|
    Codec.counted "poll options count" Limits.pollOptions checkCount (optionCodec voterCounts)).iso
    (fun (creator, owner, name, description, options) =>
      ⟨creator, owner, name, description, options⟩)
    (fun c => (c.creator, c.owner, c.name, c.description, c.options))

end PollCreation

namespace Ballot

def codec : Codec Ballot :=
  (Codec.publicKey.pair <| (Codec.text "poll name" Limits.pollName).pair Codec.int32).iso
    (fun (voter, poll, option) => ⟨voter, poll, option, none⟩)
    (fun b => (b.voter, b.poll, b.option))

end Ballot

namespace AssetIssue

def codec : Codec AssetIssue :=
  (Codec.publicKey.pair <| Codec.address.pair <|
    (Codec.text "asset name" Limits.assetName).pair <|
    (Codec.text "asset description" Limits.assetDescription).pair <|
    Codec.int64.pair <| Codec.bool "asset divisibility").iso
    (fun (issuer, owner, name, description, quantity, isDivisible) =>
      ⟨issuer, owner, name, description, quantity, isDivisible, none⟩)
    (fun i => (i.issuer, i.owner, i.name, i.description, i.quantity, i.isDivisible))

end AssetIssue

namespace AssetTransfer

def codec : Codec AssetTransfer :=
  (Codec.publicKey.pair Codec.leg).iso (fun (sender, leg) => ⟨sender, leg⟩)
    (fun t => (t.sender, t.leg))

end AssetTransfer

namespace MultiPayment

def codec : Codec MultiPayment :=
  (Codec.publicKey.pair <|
    Codec.counted "payments count" Limits.payments (fun _ => .ok ()) Codec.leg).iso
    (fun (sender, legs) => ⟨sender, legs⟩) (fun m => (m.sender, m.legs))

end MultiPayment

namespace AtDeployment

def codec : Codec AtDeployment :=
  (Codec.publicKey.pair <| (Codec.text "AT name" Limits.atName).pair <|
    (Codec.text "AT description" Limits.atDescription).pair <|
    (Codec.text "AT type" Limits.atType).pair <| (Codec.text "AT tags" Limits.atTags).pair <|
    (Codec.sized "AT creation bytes" Limits.atCreationBytes).pair Codec.amount).iso
    (fun (creator, name, description, atType, tags, creationBytes, amount) =>
      ⟨creator, name, description, atType, tags, creationBytes, amount, none⟩)
    (fun d => (d.creator, d.name, d.description, d.atType, d.tags, d.creationBytes, d.amount))

end AtDeployment

namespace AtSettlement

def paymentCodec : Codec AtPayment :=
  (Codec.uint64.pair Codec.amount).iso (fun (assetId, amount) => ⟨assetId, amount⟩)
    (fun p => (p.assetId, p.amount))

def codec : Codec AtSettlement :=
  (Codec.address.pair <| Codec.address.pair <|
    (Codec.optional "AT payment flag" paymentCodec).pair <| Codec.sizedByRest "AT message").iso
    (fun (atAddress, recipient, payment, message) => ⟨atAddress, recipient, payment, message⟩)
    (fun s => (s.atAddress, s.recipient, s.payment, s.message))

end AtSettlement

/-! ## Actions -/

/-- An action as it is read: older asset issues bring an asset reference with them. -/
structure ReadAction where
  action : Action
  assetReference : Option Signature

namespace Action

/-- The fields of an action, with the asset reference that an older asset issue embeds. -/
def encode (layout : Layout) (assetReference : Signature) : Action → Except WireError Bytes
  | .payment p => Payment.codec.encode p
  | .createPoll c => (PollCreation.codec layout.voterCounts).encode c
  | .voteOnPoll b => Ballot.codec.encode b
  | .issueAsset i =>
    if layout.assetReference then
      (AssetIssue.codec.pair Codec.signature).encode (i, assetReference)
    else AssetIssue.codec.encode i
  | .transferAsset t => AssetTransfer.codec.encode t
  | .multiPayment m => MultiPayment.codec.encode m
  | .deployAt d => AtDeployment.codec.encode d
  | .settleAt s => AtSettlement.codec.encode s

/-- Reads an action of a given kind with a codec. -/
def decodeWith {α : Type} (codec : Codec α) (wrap : α → Action) (bytes : Bytes) :
    Except WireError (ReadAction × Bytes) := do
  let (value, rest) ← codec.decode bytes
  return (⟨wrap value, none⟩, rest)

/-- Reads the fields of an action of a given kind, if that kind has an action. -/
def decode (layout : Layout) (kind : Kind) (bytes : Bytes) :
    Except WireError (ReadAction × Bytes) :=
  match kind with
  | .payment => decodeWith Payment.codec .payment bytes
  | .createPoll => decodeWith (PollCreation.codec layout.voterCounts) .createPoll bytes
  | .voteOnPoll => decodeWith Ballot.codec .voteOnPoll bytes
  | .issueAsset =>
    if layout.assetReference then do
      let ((issue, reference), rest) ← (AssetIssue.codec.pair Codec.signature).decode bytes
      return (⟨.issueAsset issue, some reference⟩, rest)
    else decodeWith AssetIssue.codec .issueAsset bytes
  | .transferAsset => decodeWith AssetTransfer.codec .transferAsset bytes
  | .multiPayment => decodeWith MultiPayment.codec .multiPayment bytes
  | .deployAt => decodeWith AtDeployment.codec .deployAt bytes
  | .at => decodeWith AtSettlement.codec .settleAt bytes
  | other => .error (.unsupportedType other.tag)

end Action

/-! ## Records -/

/-- The asset reference of a transaction that is not signed. -/
def noAssetReference : Signature := FixedBytes.zero

namespace Genesis

def codec : Codec Genesis :=
  (Codec.int64.pair <| Codec.address.pair Codec.amount).iso
    (fun (timestamp, recipient, amount) => ⟨timestamp, recipient, amount⟩)
    (fun g => (g.timestamp, g.recipient, g.amount))

/-- The bytes of a genesis, which are also its signing bytes. -/
def encode (g : Genesis) : Except WireError Bytes := do
  let front ← Codec.int32.encode Kind.genesis.tag
  let back ← codec.encode g
  return front ++ back

end Genesis

namespace Envelope

/-- What stands between the tag and the action. -/
def codec : Codec (Timestamp × Signature) := Codec.int64.pair Codec.signature

/-- The asset reference that an older asset issue in this envelope embeds. -/
def assetReference (envelope : Envelope) : Signature := envelope.signature.getD noAssetReference

end Envelope

namespace Record

/-- The bytes of a record up to its signature, with a given asset reference. -/
def encodeUnsigned (params : ChainParams) (envelope : Envelope) (action : Action)
    (assetReference : Signature) : Except WireError Bytes := do
  let layout := Layout.atTime params envelope.timestamp
  let tag ← Codec.int32.encode action.kind.tag
  let header ← Envelope.codec.encode (envelope.timestamp, envelope.reference)
  let fields ← action.encode layout assetReference
  let fee ← Codec.amount.encode envelope.fee
  return tag ++ header ++ fields ++ fee

/-- The bytes of a record. -/
def encode (params : ChainParams) : Record → Except WireError Bytes
  | .genesis g => g.encode
  | .standard envelope action => do
    let unsigned ← encodeUnsigned params envelope action envelope.assetReference
    return unsigned ++ Codec.encodeLastSignature envelope.signature

/-- Bytes of the last payment and the fee of a multi-payment. -/
def lastPaymentSize : Nat := 53

/-- The bytes that the signature of a record covers. -/
def signingBytes (params : ChainParams) : Record → Except WireError Bytes
  | .genesis g => g.encode
  | .standard envelope action => do
    let unsigned ← encodeUnsigned params envelope action noAssetReference
    match action with
    | .createPoll _ =>
      if params.isLegacyCreatePoll envelope.timestamp then
        let tag ← Codec.int32.encode Kind.registerName.tag
        return tag ++ unsigned.drop 4
      else return unsigned
    | .multiPayment _ =>
      if params.isLegacyMultiPayment envelope.timestamp then
        return unsigned.drop (unsigned.length - lastPaymentSize)
      else return unsigned
    | _ => return unsigned

/-- The record read from an envelope's parts, if an embedded asset reference is its signature. -/
def assemble (envelope : Envelope) (read : ReadAction) : Except WireError Record :=
  match read.assetReference with
  | some reference =>
    if reference = envelope.assetReference then .ok (.standard envelope read.action)
    else .error (.invalidValue "asset reference" .referenceMismatch)
  | none => .ok (.standard envelope read.action)

/-- Reads what follows the tag of a record other than a genesis. -/
def decodeStandard (params : ChainParams) (kind : Kind) (bytes : Bytes) :
    Except WireError Record := do
  let (timestamp, rest) ← Codec.int64.decode bytes
  let (reference, rest) ← Codec.signature.decode rest
  let (read, rest) ← Action.decode (Layout.atTime params timestamp) kind rest
  let (fee, rest) ← Codec.amount.decode rest
  let signature ← Codec.lastSignature rest
  assemble ⟨timestamp, reference, fee, signature⟩ read

/-- Reads what follows the tag of a genesis. -/
def decodeGenesis (bytes : Bytes) : Except WireError Record := do
  let (g, rest) ← Genesis.codec.decode bytes
  Codec.finish rest
  return .genesis g

/-- The record that bytes denote. -/
def decode (params : ChainParams) (bytes : Bytes) : Except WireError Record := do
  let (tag, rest) ← Codec.int32.decode bytes
  match Kind.ofTag? tag with
  | none => .error (.unsupportedType tag)
  | some kind =>
    if kind = .genesis then decodeGenesis rest
    else if kind.isSupported then decodeStandard params kind rest
    else .error (.unsupportedType tag)

/-! ## Signatures -/

/-- The signature of a genesis, derived from its bytes, if it has any. -/
def genesisSignature? (g : Genesis) : Option Signature :=
  match g.encode with
  | .ok bytes => some (Signature.derive bytes)
  | .error _ => none

/-- The signature of a record: carried, or derived for a genesis. -/
def signature? : Record → Option Signature
  | .genesis g => genesisSignature? g
  | .standard envelope _ => envelope.signature

def isSigned (r : Record) : Bool := r.signature?.isSome

end Record

end ChainLedger

import ChainLedger.Ledger.Change
import ChainLedger.Record.Parties
import ChainLedger.Transaction.Error
import ChainLedger.Transaction.Validation

/-!
# Plans

Processing a transaction and undoing it are planned before the ledger is touched. A
plan is the list of changes to make and what becomes of the record: what processing
finds out is added to it, and what undoing uses up is taken away.
-/

namespace ChainLedger

/-- What to change in the ledger and in the record. -/
structure Plan where
  changes : List Change
  /-- The record as soon as changes begin. -/
  during : Record
  /-- The record once every change is made. -/
  after : Record

namespace Plan

/-- A plan that leaves the record as it is. -/
def same (r : Record) (changes : List Change) : Plan := ⟨changes, r, r⟩

end Plan

/-! ## Shared parts -/

/-- Pays the fee and moves the account on to a new reference. -/
def chargeFee (creator : Address) (fee : Amount) (signature : Signature) : List Change :=
  [.adjust creator nativeAsset (-fee), .setReference creator signature]

/-- Gives the fee back and the account its earlier reference. -/
def refundFee (creator : Address) (fee : Amount) (reference : Signature) : List Change :=
  [.adjust creator nativeAsset fee, .setReference creator reference]

namespace Leg

/-- Moves a leg. Its recipient's first coins bring the first reference with them. -/
def move (sender : Address) (signature : Signature) (leg : Leg) : List Change :=
  [.adjust sender leg.assetId (-leg.amount), .adjust leg.recipient leg.assetId leg.amount] ++
    if leg.assetId = nativeAsset then [.introduce leg.recipient signature] else []

/-- Moves a leg back, and takes back a first reference that came with it. -/
def moveBack (sender : Address) (signature : Signature) (leg : Leg) : List Change :=
  [.adjust leg.recipient leg.assetId (-leg.amount), .adjust sender leg.assetId leg.amount] ++
    if leg.assetId = nativeAsset then [.retract leg.recipient signature] else []

end Leg

/-- Moves legs in order. -/
def moveAll (sender : Address) (signature : Signature) (legs : List Leg) : List Change :=
  legs.flatMap (Leg.move sender signature)

/-- Moves legs back, the last one first. -/
def moveAllBack (sender : Address) (signature : Signature) (legs : List Leg) : List Change :=
  legs.reverse.flatMap (Leg.moveBack sender signature)

/-! ## Rows that transactions make -/

/-- The poll that a creation publishes. -/
def PollCreation.toPoll (c : PollCreation) (published : Timestamp) : Poll where
  creator := c.creator
  owner := c.owner
  name := c.name
  description := c.description
  options := c.options
  published := published

/-- The vote that a ballot casts. -/
def Ballot.toVote (b : Ballot) : Vote := ⟨b.poll, b.voter, b.option⟩

/-- The asset that an issue makes, under its number. -/
def AssetIssue.toAsset (i : AssetIssue) (id : AssetId) (reference : Signature) : Asset where
  id := id
  owner := i.owner
  name := i.name
  description := i.description
  quantity := i.quantity
  isDivisible := i.isDivisible
  reference := reference

/-! ## Processing -/

namespace Action

/-- How to process an action. -/
def processing (params : ChainParams) (s : Session) (signature : Signature) (envelope : Envelope)
    (action : Action) : Except TransactionError Plan :=
  let creator := action.creator
  let fee := chargeFee creator envelope.fee signature
  let r : Record := .standard envelope action
  match action with
  | .payment _ | .transferAsset _ | .multiPayment _ =>
    .ok (.same r (fee ++ moveAll creator signature action.legs))
  | .settleAt _ =>
    .ok (.same r (.setReference creator signature :: moveAll creator signature action.legs))
  | .createPoll c => .ok (.same r (.savePoll (c.toPoll envelope.timestamp) :: fee))
  | .voteOnPoll b =>
    match s.vote? b.poll b.voter with
    | .error error => .error (.data error)
    | .ok vote =>
      let cast := { b with previous := vote.map Vote.option }
      .ok (.same (.standard envelope (.voteOnPoll cast)) (.saveVote b.toVote :: fee))
  | .issueAsset i =>
    match s.nextAssetId with
    | .error error => .error (.data error)
    | .ok id =>
      let issued := { i with assetId := some id }
      .ok (.same (.standard envelope (.issueAsset issued))
        ([.saveAsset (i.toAsset id signature),
          .setBalance i.owner id (Amount.ofCoins i.quantity)] ++ fee))
  | .deployAt d =>
    match d.codeVersion?, r.signingBytes params with
    | none, _ => .error (.missingField .deployAt .codeVersion)
    | some _, .error error => .error (.wire error)
    | some version, .ok seed =>
      let address := Address.ofSeed seed
      let deployed := { d with atAddress := some address }
      .ok ⟨[.saveAt (.fresh address creator envelope.timestamp version d.creationBytes),
          .adjust creator nativeAsset (-(envelope.fee + d.amount)),
          .adjust address nativeAsset d.amount,
          .setReference creator signature, .setReference address signature],
        r, .standard envelope (.deployAt deployed)⟩

/-- How to undo an action. -/
def undoing (signature : Signature) (envelope : Envelope) (action : Action) :
    Except TransactionError Plan :=
  let creator := action.creator
  let refund := refundFee creator envelope.fee envelope.reference
  let r : Record := .standard envelope action
  match action with
  | .payment _ | .transferAsset _ | .multiPayment _ =>
    .ok (.same r (moveAllBack creator signature action.legs ++
      [.setReference creator envelope.reference, .adjust creator nativeAsset envelope.fee]))
  | .settleAt _ =>
    .ok (.same r (moveAllBack creator signature action.legs ++
      [.setReference creator envelope.reference]))
  | .createPoll c => .ok (.same r (.deletePoll c.name :: refund))
  | .voteOnPoll b =>
    let vote : Change :=
      match b.previous with
      | some option => .saveVote ⟨b.poll, b.voter, option⟩
      | none => .deleteVote b.poll b.voter
    .ok (.same (.standard envelope (.voteOnPoll { b with previous := none })) (vote :: refund))
  | .issueAsset i =>
    match i.assetId with
    | none => .error (.missingField .issueAsset .assetId)
    | some id =>
      .ok (.same (.standard envelope (.issueAsset { i with assetId := none }))
        ([.deleteAsset id, .clearBalance i.owner id] ++ refund))
  | .deployAt d =>
    match d.atAddress with
    | none => .error (.missingField .deployAt .atAddress)
    | some address =>
      .ok (.same (.standard envelope (.deployAt { d with atAddress := none }))
        [.deleteAt address, .adjust address nativeAsset (-d.amount), .clearReference address,
          .adjust creator nativeAsset (envelope.fee + d.amount),
          .setReference creator envelope.reference])

end Action

namespace Record

/-- How to process a record under its signature, as the ledger stands: at last it is stored. -/
def processing (params : ChainParams) (s : Session) (signature : Signature) (r : Record) :
    Except TransactionError Plan :=
  let plan : Except TransactionError Plan :=
    match r with
    | .genesis g =>
      .ok (.same r [.setBalance g.recipient nativeAsset g.amount,
        .setReference g.recipient signature])
    | .standard envelope action => action.processing params s signature envelope
  plan.map fun plan => { plan with changes := plan.changes ++ [.saveTransaction plan.after] }

/-- How to undo what a record did, once it is no longer stored. -/
def undoing (signature : Signature) (r : Record) : Except TransactionError Plan :=
  match r with
  | .genesis g =>
    .ok (.same r [.setBalance g.recipient nativeAsset Amount.zero, .clearReference g.recipient])
  | .standard envelope action => action.undoing signature envelope

end Record

end ChainLedger

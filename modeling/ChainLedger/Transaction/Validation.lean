import ChainLedger.Ledger.Account
import ChainLedger.Ledger.Assets
import ChainLedger.Ledger.Polls
import ChainLedger.Limits
import ChainLedger.Record.Parties
import ChainLedger.Text.LowerCase
import ChainLedger.Transaction.Verdict

/-!
# Validation

The rules for every kind of transaction, in the order in which they are judged.
Rules on sums are stated over the integers: an account has to have the sum of all
that it pays of an asset.
-/

namespace ChainLedger

/-! ## Rules of several kinds -/

namespace Rule

/-- The reference is the last one of the account. -/
def reference (s : Session) (account : Address) (reference : Signature) : Rule :=
  ⟨(s.lastReference account).map (· == some reference), .invalidReference⟩

def released (holds : Bool) : Rule := .plain holds .notYetReleased

def validAddress (address : Address) : Rule := .plain (Address.isValid address) .invalidAddress

/-- A text of at least one and at most `max` bytes. -/
def length (text : String) (max : Nat) (verdict : Verdict) : Rule :=
  .plain (1 ≤ Text.size text && Text.size text ≤ max) verdict

def lowerCase (name : String) : Rule := .plain (Text.isLowerCase name) .nameNotLowerCase

def positiveFee (fee : Amount) : Rule := .plain fee.isPositive .negativeFee

/-- The account has so many units of an asset. -/
def balance (s : Session) (account : Address) (asset : AssetId) (units : Int) : Rule :=
  ⟨(s.balance account asset).map fun balance => units ≤ balance.toInt, .noBalance⟩

/-- The amount has units of an asset that exists, and parts of one only if it is divisible. -/
def assetAmount (s : Session) (id : AssetId) (amount : Amount) : List Rule :=
  if id = nativeAsset then []
  else
    [⟨s.assetExists id, .assetDoesNotExist⟩,
      ⟨(s.asset? id).map (·.any fun asset => asset.isDivisible || amount.isIntegral),
        .invalidAmount⟩]

end Rule

/-! ## Payments -/

/-- What legs and a fee take of an asset from the sender. -/
def totalOf (asset : AssetId) (legs : List Leg) (fee : Amount) : Int :=
  (if asset = nativeAsset then fee.toInt else 0) +
    (legs.filter fun leg => leg.assetId == asset).foldr (fun leg total => leg.amount.toInt + total) 0

/-- The assets that a payment takes, in the order of their numbers. -/
def assetsOf (legs : List Leg) : List AssetId :=
  (nativeAsset :: legs.map Leg.assetId).eraseDups.mergeSort (· ≤ ·)

/-- The rules for one leg after others: with it the total still fits an amount. -/
def Leg.rules (s : Session) (fee : Amount) (before : List Leg) (leg : Leg) : List Rule :=
  [.plain leg.amount.isPositive .negativeAmount, .validAddress leg.recipient] ++
    Rule.assetAmount s leg.assetId leg.amount ++
    [.plain (Amount.ofInt? (totalOf leg.assetId (leg :: before) fee)).isSome .invalidAmount]

/-- The rules for legs, one after the other. -/
def legRules (s : Session) (fee : Amount) : (before legs : List Leg) → List Rule
  | _, [] => []
  | before, leg :: rest => leg.rules s fee before ++ legRules s fee (leg :: before) rest

/-- The rules for a payment of legs and a fee. -/
def paymentRules (s : Session) (sender : Address) (legs : List Leg) (fee : Amount) : List Rule :=
  .positiveFee fee :: legRules s fee [] legs ++
    (assetsOf legs).map fun asset => .balance s sender asset (totalOf asset legs fee)

/-! ## Actions -/

variable (params : ChainParams) (s : Session) (envelope : Envelope)

namespace MultiPayment

def rules (m : MultiPayment) (sender : Address) : List Rule :=
  [.released (params.isAssetsReleased envelope.timestamp),
    .plain (1 ≤ m.legs.length && m.legs.length ≤ Limits.payments) .invalidPaymentsCount] ++
    (if params.isPowfixReleased envelope.timestamp then
      [.balance s sender nativeAsset envelope.fee.toInt]
    else []) ++
    paymentRules s sender m.legs envelope.fee

end MultiPayment

namespace PollCreation

/-- The rules for options after others: every one of a fit length and new. -/
def optionRules : (before options : List String) → List Rule
  | _, [] => []
  | before, option :: rest =>
    [.length option Limits.pollName .invalidOptionLength,
      .plain (!before.contains option) .duplicateOption] ++
      optionRules (option :: before) rest

def rules (c : PollCreation) (creator : Address) : List Rule :=
  [.released (params.isVotingReleased envelope.timestamp), .validAddress c.owner,
    .length c.name Limits.pollName .invalidNameLength,
    .length c.description Limits.pollDescription .invalidDescriptionLength,
    .lowerCase c.name, ⟨(s.pollExists c.name).map not, .pollAlreadyExists⟩,
    .plain (1 ≤ c.options.length && c.options.length ≤ Limits.pollOptions)
      .invalidOptionsCount] ++
    optionRules [] c.options ++
    [.positiveFee envelope.fee, .balance s creator nativeAsset envelope.fee.toInt]

end PollCreation

namespace Ballot

/-- The poll has the option voted for. -/
def isIn (b : Ballot) (poll : Poll) : Bool :=
  0 ≤ b.option && b.option.toInt < poll.options.length

def rules (b : Ballot) (voter : Address) : List Rule :=
  [.released (params.isVotingReleased envelope.timestamp),
    .length b.poll Limits.pollName .invalidNameLength, .lowerCase b.poll,
    ⟨s.pollExists b.poll, .pollDoesNotExist⟩,
    ⟨(s.poll? b.poll).map (·.any b.isIn), .pollOptionDoesNotExist⟩,
    ⟨(s.vote? b.poll b.voter).map (·.all (·.option != b.option)), .alreadyVotedForThatOption⟩,
    .positiveFee envelope.fee, .balance s voter nativeAsset envelope.fee.toInt]

end Ballot

namespace AssetIssue

def rules (i : AssetIssue) (issuer : Address) : List Rule :=
  [.released (params.isAssetsReleased envelope.timestamp), .validAddress i.owner,
    .length i.name Limits.assetName .invalidNameLength,
    .length i.description Limits.assetDescription .invalidDescriptionLength,
    .plain (1 ≤ i.quantity && i.quantity ≤ Limits.assetQuantity) .invalidQuantity,
    .positiveFee envelope.fee, .balance s issuer nativeAsset envelope.fee.toInt,
    .plain (!s.assetNameExists i.name) .assetAlreadyExists]

end AssetIssue

namespace AtDeployment

/-- The version in the first two creation bytes, which is not zero. -/
def codeVersion? (d : AtDeployment) : Option Int16 :=
  match d.creationBytes with
  | high :: low :: _ =>
    let version := (UInt16.ofNat (ofBigEndian [high, low])).toInt16
    if version = 0 then none else some version
  | _ => none

def rules (d : AtDeployment) (creator : Address) : List Rule :=
  [.released (params.isAtReleased envelope.timestamp),
    .length d.name Limits.atName .invalidNameLength,
    .length d.description Limits.atDescription .invalidDescriptionLength,
    .length d.atType Limits.atType .invalidAtTypeLength,
    .length d.tags Limits.atTags .invalidTagsLength,
    .plain (d.creationBytes.length ≤ Limits.atCreationBytes && d.codeVersion?.isSome)
      .invalidCreationBytes,
    .plain d.amount.isPositive .negativeAmount, .positiveFee envelope.fee,
    .plain (envelope.fee.checkedAdd d.amount).isSome .invalidAmount,
    .balance s creator nativeAsset (envelope.fee.toInt + d.amount.toInt)]

end AtDeployment

namespace AtSettlement

/-- The rules for what a settlement pays. -/
def paymentRules (settlement : AtSettlement) (payment : AtPayment) : List Rule :=
  [.plain (!payment.amount.isNegative) .negativeAmount, .validAddress settlement.recipient] ++
    Rule.assetAmount s payment.assetId payment.amount ++
    [.balance s settlement.atAddress payment.assetId payment.amount.toInt]

def rules (settlement : AtSettlement) : List Rule :=
  .plain (settlement.message.length ≤ Limits.atMessage) .invalidDataLength ::
    settlement.payment.toList.flatMap (settlement.paymentRules s)

end AtSettlement

/-- The rules for an action besides the one on its reference. -/
def Action.rules (action : Action) : List Rule :=
  match action with
  | .payment _ => paymentRules s action.creator action.legs envelope.fee
  | .createPoll c => c.rules params s envelope action.creator
  | .voteOnPoll b => b.rules params s envelope action.creator
  | .issueAsset i => i.rules params s envelope action.creator
  | .transferAsset _ =>
    .released (params.isAssetsReleased envelope.timestamp) ::
      paymentRules s action.creator action.legs envelope.fee
  | .multiPayment m => m.rules params s envelope action.creator
  | .deployAt d => d.rules params s envelope action.creator
  | .settleAt settlement => settlement.rules s

/-! ## Records -/

namespace Record

/-- The rules for a record. -/
def rules (r : Record) : List Rule :=
  match r with
  | .genesis g => [.plain (!g.amount.isNegative) .negativeAmount, .validAddress g.recipient]
  | .standard envelope action =>
    .reference s action.creator envelope.reference :: action.rules params s envelope

/-- The verdict on a record, as the ledger stands. -/
def verdict (r : Record) : Except DataError Verdict := Rule.judge (r.rules params s)

end Record

end ChainLedger

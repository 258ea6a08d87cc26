import ChainLedger.Record

/-!
# Parties of a record

Whom a record concerns and what it does to a balance of coins: the legs that it
moves, its recipients besides the creator, and the net change it reports for an
account. The change is reckoned step by step and does not exist where a step leaves
the 64-bit range.
-/

namespace ChainLedger

namespace AtSettlement

/-- The movement that a settlement makes, if it pays anything. -/
def legs (s : AtSettlement) : List Leg :=
  s.payment.toList.map fun p => ⟨s.recipient, p.assetId, p.amount⟩

/-- The coins that a settlement pays. -/
def coins (s : AtSettlement) : Amount :=
  match s.payment with
  | some p => if p.assetId = nativeAsset then p.amount else Amount.zero
  | none => Amount.zero

end AtSettlement

namespace Action

/-- What moves from the creator's account to others. -/
def legs : Action → List Leg
  | .payment p => [⟨p.recipient, nativeAsset, p.amount⟩]
  | .transferAsset t => [t.leg]
  | .multiPayment m => m.legs
  | .settleAt s => s.legs
  | .createPoll _ | .voteOnPoll _ | .issueAsset _ | .deployAt _ => []

/-- The parties besides the creator. -/
def recipients : Action → List Address
  | .payment p => [p.recipient]
  | .createPoll c => [c.owner]
  | .voteOnPoll _ => []
  | .issueAsset i => [i.owner]
  | .transferAsset t => [t.leg.recipient]
  | .multiPayment m => (m.legs.map Leg.recipient).eraseDups
  | .deployAt d => d.atAddress.toList
  | .settleAt s => [s.recipient]

end Action

/-! ## Changes of a balance -/

/-- The balance change of an account after one more leg in coins. -/
def Leg.addTo? (account sender : Address) (change : Amount) (leg : Leg) : Option Amount := do
  let paid ← if account = sender then change.checkedSub leg.amount else some change
  if account = leg.recipient then paid.checkedAdd leg.amount else some paid

/-- What the fee takes from an account. -/
def feeChange? (account creator : Address) (fee : Amount) : Option Amount :=
  if account = creator then Amount.zero.checkedSub fee else some Amount.zero

/-- What a payment of legs and a fee does to an account. -/
def paymentChange? (account sender : Address) (legs : List Leg) (fee : Amount) : Option Amount :=
  (feeChange? account sender fee).bind fun change =>
    (legs.filter fun leg => leg.assetId == nativeAsset).foldlM (Leg.addTo? account sender) change

/-- What a deployment does to an account. -/
def AtDeployment.change? (d : AtDeployment) (account : Address) (fee : Amount) : Option Amount := do
  let paid ←
    if Address.ofPublicKey d.creator.bytes = account then
      (fee.checkedAdd d.amount).bind Amount.zero.checkedSub
    else some Amount.zero
  if d.atAddress = some account then paid.checkedAdd d.amount else some paid

/-- What a settlement does to an account, its fee included. -/
def AtSettlement.change? (s : AtSettlement) (account : Address) (fee : Amount) : Option Amount := do
  let paid ←
    if account = s.atAddress then (fee.checkedAdd s.coins).bind Amount.zero.checkedSub
    else some Amount.zero
  if account = s.recipient then paid.checkedAdd s.coins else some paid

namespace Record

/-- The change of an account's balance of coins that a record reports. -/
def amountFor? (r : Record) (account : Address) : Option Amount :=
  match r with
  | .genesis g => some (if account = g.recipient then g.amount else Amount.zero)
  | .standard envelope action =>
    match action with
    | .payment _ | .transferAsset _ | .multiPayment _ =>
      paymentChange? account action.creator action.legs envelope.fee
    | .createPoll _ | .voteOnPoll _ | .issueAsset _ =>
      feeChange? account action.creator envelope.fee
    | .deployAt d => d.change? account envelope.fee
    | .settleAt s => s.change? account envelope.fee

/-- The parties besides the creator. -/
def recipients : Record → List Address
  | .genesis g => [g.recipient]
  | .standard _ action => action.recipients

/-- The account created the transaction or is one of its recipients. -/
def isInvolved (r : Record) (account : Address) : Bool :=
  r.creator? == some account || r.recipients.contains account

end Record

end ChainLedger

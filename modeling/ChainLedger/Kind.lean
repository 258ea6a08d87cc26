/-!
# Kinds of transactions

Every kind has a tag on the wire and a name. Half of them are supported: the others
keep their tag and name but have no byte form.
-/

namespace ChainLedger

inductive Kind
  | genesis
  | payment
  | registerName
  | updateName
  | sellName
  | cancelSellName
  | buyName
  | createPoll
  | voteOnPoll
  | arbitrary
  | issueAsset
  | transferAsset
  | createAssetOrder
  | cancelAssetOrder
  | multiPayment
  | deployAt
  | message
  | at
deriving DecidableEq

namespace Kind

/-- All kinds, in the order of their tags, which count from one. -/
def all : List Kind :=
  [.genesis, .payment, .registerName, .updateName, .sellName, .cancelSellName, .buyName,
    .createPoll, .voteOnPoll, .arbitrary, .issueAsset, .transferAsset, .createAssetOrder,
    .cancelAssetOrder, .multiPayment, .deployAt, .message, .at]

/-- The tag of a kind on the wire. -/
def tag : Kind → Int32
  | .genesis => 1
  | .payment => 2
  | .registerName => 3
  | .updateName => 4
  | .sellName => 5
  | .cancelSellName => 6
  | .buyName => 7
  | .createPoll => 8
  | .voteOnPoll => 9
  | .arbitrary => 10
  | .issueAsset => 11
  | .transferAsset => 12
  | .createAssetOrder => 13
  | .cancelAssetOrder => 14
  | .multiPayment => 15
  | .deployAt => 16
  | .message => 17
  | .at => 18

/-- The kind with a given tag. -/
def ofTag? (tag : Int32) : Option Kind := all.find? fun kind => kind.tag == tag

def name : Kind → String
  | .genesis => "GENESIS"
  | .payment => "PAYMENT"
  | .registerName => "REGISTER_NAME"
  | .updateName => "UPDATE_NAME"
  | .sellName => "SELL_NAME"
  | .cancelSellName => "CANCEL_SELL_NAME"
  | .buyName => "BUY_NAME"
  | .createPoll => "CREATE_POLL"
  | .voteOnPoll => "VOTE_ON_POLL"
  | .arbitrary => "ARBITRARY"
  | .issueAsset => "ISSUE_ASSET"
  | .transferAsset => "TRANSFER_ASSET"
  | .createAssetOrder => "CREATE_ASSET_ORDER"
  | .cancelAssetOrder => "CANCEL_ASSET_ORDER"
  | .multiPayment => "MULTIPAYMENT"
  | .deployAt => "DEPLOY_AT"
  | .message => "MESSAGE"
  | .at => "AT"

/-- The kinds that have a byte form. -/
def isSupported : Kind → Bool
  | .genesis | .payment | .createPoll | .voteOnPoll | .issueAsset | .transferAsset
  | .multiPayment | .deployAt | .at => true
  | _ => false

theorem ofTag?_tag (kind : Kind) : ofTag? kind.tag = some kind := by
  cases kind <;> rfl

theorem tag_of_ofTag? {tag : Int32} {kind : Kind} (found : ofTag? tag = some kind) :
    kind.tag = tag := by
  simpa using List.find?_some found

end Kind

end ChainLedger

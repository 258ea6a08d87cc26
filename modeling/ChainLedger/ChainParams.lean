/-!
# Chain parameters

Protocol features become active at given times. A transaction dated before an
activation point is judged, and written, under the rules in force before it.
-/

namespace ChainLedger

/-- Milliseconds since the start of 1970. -/
abbrev Timestamp := Int64

/-- The activation points of protocol features. -/
structure ChainParams where
  /-- Polls can be created and voted on. -/
  votingRelease : Timestamp
  /-- Assets can be issued and transferred, and multi-payments made. -/
  assetsRelease : Timestamp
  /-- ATs can be deployed. -/
  atRelease : Timestamp
  /-- A multi-payment checks its fee against the balance before anything else. -/
  powfixRelease : Timestamp
  /-- Poll creations carry no voter counts and are signed under their own tag. -/
  createPollV2 : Timestamp
  /-- Asset issues embed no asset reference; multi-payments sign all their bytes. -/
  issueAssetV2 : Timestamp
deriving DecidableEq

namespace ChainParams

/-- The history of the main chain. -/
def mainChain : ChainParams where
  votingRelease := 1403715600000
  assetsRelease := 1411308000000
  atRelease := 1432800000000
  powfixRelease := 1456426800000
  createPollV2 := 1552500000000
  issueAssetV2 := 1552500000000

/-- Everything active from the start of 1970. -/
def allReleased : ChainParams := ⟨0, 0, 0, 0, 0, 0⟩

variable (params : ChainParams) (time : Timestamp)

/-- Poll creations of this time use the older layout. -/
def isLegacyCreatePoll : Bool := time < params.createPollV2

/-- Asset issues of this time use the older layout. -/
def isLegacyIssueAsset : Bool := time < params.issueAssetV2

/-- Multi-payments of this time sign only their end. -/
def isLegacyMultiPayment : Bool := time < params.issueAssetV2

def isVotingReleased : Bool := params.votingRelease ≤ time

def isAssetsReleased : Bool := params.assetsRelease ≤ time

def isAtReleased : Bool := params.atRelease ≤ time

def isPowfixReleased : Bool := params.powfixRelease ≤ time

end ChainParams

end ChainLedger

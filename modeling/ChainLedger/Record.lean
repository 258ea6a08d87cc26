import ChainLedger.Address
import ChainLedger.Amount
import ChainLedger.ChainParams
import ChainLedger.Kind

/-!
# Transaction records

A record is what a transaction says. A genesis record allocates coins and nobody
signs it. Every other record has an envelope, with its time, the reference to its
account's previous transaction, its fee and its signature, and an action of one of
eight kinds. Three actions have a field that is only known once they are processed.
-/

namespace ChainLedger

/-- The number of an asset. -/
abbrev AssetId := UInt64

/-- The asset in which fees are paid. -/
def nativeAsset : AssetId := 0

/-! ## Actions -/

/-- Coins allocated at the start of the chain. -/
structure Genesis where
  timestamp : Timestamp
  recipient : Address
  amount : Amount
deriving DecidableEq

/-- One movement of an asset to a recipient. -/
structure Leg where
  recipient : Address
  assetId : AssetId
  amount : Amount
deriving DecidableEq

/-- A payment of coins. -/
structure Payment where
  sender : PublicKey
  recipient : Address
  amount : Amount
deriving DecidableEq

/-- The creation of a poll. -/
structure PollCreation where
  creator : PublicKey
  owner : Address
  name : String
  description : String
  options : List String
deriving DecidableEq

/-- A vote on a poll's option, with the option voted for before. -/
structure Ballot where
  voter : PublicKey
  poll : String
  option : Int32
  previous : Option Int32
deriving DecidableEq

/-- The issue of an asset, with the number it received. -/
structure AssetIssue where
  issuer : PublicKey
  owner : Address
  name : String
  description : String
  quantity : Int64
  isDivisible : Bool
  assetId : Option AssetId
deriving DecidableEq

/-- A payment of any asset. -/
structure AssetTransfer where
  sender : PublicKey
  leg : Leg
deriving DecidableEq

/-- Several payments at once. -/
structure MultiPayment where
  sender : PublicKey
  legs : List Leg
deriving DecidableEq

/-- The deployment of an AT, with the address it received. -/
structure AtDeployment where
  creator : PublicKey
  name : String
  description : String
  atType : String
  tags : String
  creationBytes : Bytes
  amount : Amount
  atAddress : Option Address
deriving DecidableEq

/-- What an AT settlement pays. -/
structure AtPayment where
  assetId : AssetId
  amount : Amount
deriving DecidableEq

/-- A payment or message by an AT. -/
structure AtSettlement where
  atAddress : Address
  recipient : Address
  payment : Option AtPayment
  message : Bytes
deriving DecidableEq

/-- What a transaction does, genesis apart. -/
inductive Action
  | payment (p : Payment)
  | createPoll (c : PollCreation)
  | voteOnPoll (b : Ballot)
  | issueAsset (i : AssetIssue)
  | transferAsset (t : AssetTransfer)
  | multiPayment (m : MultiPayment)
  | deployAt (d : AtDeployment)
  | settleAt (s : AtSettlement)
deriving DecidableEq

namespace Action

def kind : Action → Kind
  | .payment _ => .payment
  | .createPoll _ => .createPoll
  | .voteOnPoll _ => .voteOnPoll
  | .issueAsset _ => .issueAsset
  | .transferAsset _ => .transferAsset
  | .multiPayment _ => .multiPayment
  | .deployAt _ => .deployAt
  | .settleAt _ => .at

/-- The key of the account that signs the transaction; an AT has none. -/
def creatorKey? : Action → Option PublicKey
  | .payment p => some p.sender
  | .createPoll c => some c.creator
  | .voteOnPoll b => some b.voter
  | .issueAsset i => some i.issuer
  | .transferAsset t => some t.sender
  | .multiPayment m => some m.sender
  | .deployAt d => some d.creator
  | .settleAt _ => none

/-- The account whose last reference the transaction consumes: the signer's, or the AT's. -/
def creator : Action → Address
  | .payment p => Address.ofPublicKey p.sender.bytes
  | .createPoll c => Address.ofPublicKey c.creator.bytes
  | .voteOnPoll b => Address.ofPublicKey b.voter.bytes
  | .issueAsset i => Address.ofPublicKey i.issuer.bytes
  | .transferAsset t => Address.ofPublicKey t.sender.bytes
  | .multiPayment m => Address.ofPublicKey m.sender.bytes
  | .deployAt d => Address.ofPublicKey d.creator.bytes
  | .settleAt s => s.atAddress

/-- The action without what is only known once it is processed. -/
def withoutDerived : Action → Action
  | .voteOnPoll b => .voteOnPoll { b with previous := none }
  | .issueAsset i => .issueAsset { i with assetId := none }
  | .deployAt d => .deployAt { d with atAddress := none }
  | action => action

end Action

/-! ## Records -/

/-- What every transaction but a genesis carries. -/
structure Envelope where
  timestamp : Timestamp
  reference : Signature
  fee : Amount
  signature : Option Signature
deriving DecidableEq

/-- What a transaction says. -/
inductive Record
  | genesis (g : Genesis)
  | standard (envelope : Envelope) (action : Action)
deriving DecidableEq

namespace Record

def kind : Record → Kind
  | .genesis _ => .genesis
  | .standard _ action => action.kind

def timestamp : Record → Timestamp
  | .genesis g => g.timestamp
  | .standard envelope _ => envelope.timestamp

/-- The transaction that this one follows. -/
def reference? : Record → Option Signature
  | .genesis _ => none
  | .standard envelope _ => some envelope.reference

/-- The fee, in coins; a genesis is free. -/
def fee : Record → Amount
  | .genesis _ => Amount.zero
  | .standard envelope _ => envelope.fee

def creatorKey? : Record → Option PublicKey
  | .genesis _ => none
  | .standard _ action => action.creatorKey?

def creator? : Record → Option Address
  | .genesis _ => none
  | .standard _ action => some action.creator

/-- The record with another signature; a genesis carries none. -/
def withSignature (signature : Option Signature) : Record → Record
  | .genesis g => .genesis g
  | .standard envelope action => .standard { envelope with signature } action

/-- The record without its signature. -/
def unsigned (r : Record) : Record := r.withSignature none

/-- The record without what is only known once it is processed. -/
def withoutDerived : Record → Record
  | .genesis g => .genesis g
  | .standard envelope action => .standard envelope action.withoutDerived

end Record

end ChainLedger

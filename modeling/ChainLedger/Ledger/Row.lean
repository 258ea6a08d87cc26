import ChainLedger.Record
import ChainLedger.Store.Form

/-!
# Rows of the ledger

What the ledger keeps beside balances, references and transactions: assets, polls
and their votes, deployed ATs and a state of each AT for every height at which it
ran.
-/

namespace ChainLedger

/-- An issued asset; its reference is the signature of the issue. -/
structure Asset where
  id : AssetId
  owner : Address
  name : String
  description : String
  quantity : Int64
  isDivisible : Bool
  reference : Signature
deriving DecidableEq

/-- A published poll. -/
structure Poll where
  creator : PublicKey
  owner : Address
  name : String
  description : String
  options : List String
  published : Timestamp
deriving DecidableEq

/-- The option that a voter chose in a poll. -/
structure Vote where
  poll : String
  voter : PublicKey
  option : Int32
deriving DecidableEq

/-- A deployed AT. -/
structure DeployedAt where
  address : Address
  creator : Address
  creation : Timestamp
  version : Int16
  code : Bytes
  isSleeping : Bool
  sleepUntil : Option UInt32
  isFinished : Bool
  hadFatalError : Bool
  isFrozen : Bool
  frozenBalance : Option Amount
deriving DecidableEq

/-- A newly deployed AT: awake and running. -/
def DeployedAt.fresh (address creator : Address) (creation : Timestamp) (version : Int16)
    (code : Bytes) : DeployedAt where
  address := address
  creator := creator
  creation := creation
  version := version
  code := code
  isSleeping := false
  sleepUntil := none
  isFinished := false
  hadFatalError := false
  isFrozen := false
  frozenBalance := none

/-- What an AT came to at a height. -/
structure AtState where
  address : Address
  height : UInt32
  creation : Timestamp
  data : Bytes
  hash : Bytes
  fees : Amount
deriving DecidableEq

/-! ## Stored forms -/

def Asset.form : Form Asset :=
  (Form.uint64.pair <| Form.text.pair <| Form.text.pair <| Form.text.pair <|
    Form.int64.pair <| Form.bool.pair Form.signature).iso
    (fun (id, owner, name, description, quantity, isDivisible, reference) =>
      ⟨id, owner, name, description, quantity, isDivisible, reference⟩)
    (fun a => (a.id, a.owner, a.name, a.description, a.quantity, a.isDivisible, a.reference))

def Poll.form : Form Poll :=
  (Form.publicKey.pair <| Form.text.pair <| Form.text.pair <| Form.text.pair <|
    (Form.list Form.text).pair Form.int64).iso
    (fun (creator, owner, name, description, options, published) =>
      ⟨creator, owner, name, description, options, published⟩)
    (fun p => (p.creator, p.owner, p.name, p.description, p.options, p.published))

def Vote.form : Form Vote :=
  (Form.text.pair <| Form.publicKey.pair Form.int32).iso
    (fun (poll, voter, option) => ⟨poll, voter, option⟩)
    (fun v => (v.poll, v.voter, v.option))

def DeployedAt.form : Form DeployedAt :=
  (Form.text.pair <| Form.text.pair <| Form.int64.pair <| Form.int16.pair <|
    Form.bytes.pair <| Form.bool.pair <| (Form.option Form.uint32).pair <|
    Form.bool.pair <| Form.bool.pair <| Form.bool.pair <| Form.option Form.amount).iso
    (fun (address, creator, creation, version, code, isSleeping, sleepUntil, isFinished,
        hadFatalError, isFrozen, frozenBalance) =>
      ⟨address, creator, creation, version, code, isSleeping, sleepUntil, isFinished,
        hadFatalError, isFrozen, frozenBalance⟩)
    (fun a => (a.address, a.creator, a.creation, a.version, a.code, a.isSleeping, a.sleepUntil,
      a.isFinished, a.hadFatalError, a.isFrozen, a.frozenBalance))

def AtState.form : Form AtState :=
  (Form.text.pair <| Form.uint32.pair <| Form.int64.pair <| Form.bytes.pair <|
    Form.bytes.pair Form.amount).iso
    (fun (address, height, creation, data, hash, fees) =>
      ⟨address, height, creation, data, hash, fees⟩)
    (fun s => (s.address, s.height, s.creation, s.data, s.hash, s.fees))

end ChainLedger

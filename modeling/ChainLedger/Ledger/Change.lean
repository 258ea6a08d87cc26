import ChainLedger.Ledger.Account
import ChainLedger.Ledger.Assets
import ChainLedger.Ledger.Ats
import ChainLedger.Ledger.Polls
import ChainLedger.Ledger.Transactions

/-!
# Changes of the ledger

What a transaction does to the ledger is a list of changes, made one after the
other. A change may meet a row that cannot be read; the changes before it stay.
-/

namespace ChainLedger

/-- One change of the ledger. -/
inductive Change
  /-- Adds to a balance. -/
  | adjust (account : Address) (asset : AssetId) (delta : Amount)
  | setBalance (account : Address) (asset : AssetId) (balance : Amount)
  | clearBalance (account : Address) (asset : AssetId)
  | setReference (account : Address) (reference : Signature)
  | clearReference (account : Address)
  /-- Gives an account without a reference its first one. -/
  | introduce (account : Address) (reference : Signature)
  /-- Takes the reference of an account away if it is the given one. -/
  | retract (account : Address) (reference : Signature)
  | savePoll (poll : Poll)
  | deletePoll (name : String)
  | saveVote (vote : Vote)
  | deleteVote (poll : String) (voter : PublicKey)
  | saveAsset (asset : Asset)
  | deleteAsset (id : AssetId)
  | saveAt (deployed : DeployedAt)
  | deleteAt (address : Address)
  | saveTransaction (r : Record)
  | deleteTransaction (r : Record)
deriving DecidableEq

namespace Written

/-- Writes that were all made. -/
def done (s : Session) : Written := ⟨.ok (), s⟩

/-- Writes that were all made or not begun. -/
def ofExcept (before : Session) : Except DataError Session → Written
  | .ok s => .done s
  | .error error => ⟨.error error, before⟩

end Written

namespace Change

/-- Makes a change. -/
def make (change : Change) (s : Session) : Written :=
  match change with
  | .adjust account asset delta => .ofExcept s (s.adjustBalance account asset delta)
  | .setBalance account asset balance => .done (s.setBalance account asset balance)
  | .clearBalance account asset => .done (s.clearBalance account asset)
  | .setReference account reference => .done (s.setLastReference account (some reference))
  | .clearReference account => .done (s.setLastReference account none)
  | .introduce account reference =>
    .ofExcept s <| (s.lastReference account).map fun last =>
      if last.isNone then s.setLastReference account (some reference) else s
  | .retract account reference =>
    .ofExcept s <| (s.lastReference account).map fun last =>
      if last = some reference then s.setLastReference account none else s
  | .savePoll poll => .done (s.savePoll poll)
  | .deletePoll name => .done (s.deletePoll name)
  | .saveVote vote => .done (s.saveVote vote)
  | .deleteVote poll voter => .done (s.deleteVote poll voter)
  | .saveAsset asset => .done (s.saveAsset asset)
  | .deleteAsset id => .ofExcept s (s.deleteAsset id)
  | .saveAt deployed => .done (s.saveAt deployed)
  | .deleteAt address => s.deleteAt address
  | .saveTransaction r => .ofExcept s (s.saveTransaction r)
  | .deleteTransaction r => .ofExcept s (s.deleteTransaction r)

/-- Makes changes in order, up to the first one that fails. -/
def makeAll : List Change → Session → Written
  | [], s => .done s
  | change :: rest, s =>
    let first := change.make s
    match first.outcome with
    | .ok () => makeAll rest first.session
    | .error _ => first

/-- Changes after others are made if none of those failed. -/
theorem makeAll_append (first second : List Change) (s : Session) :
    makeAll (first ++ second) s =
      match (makeAll first s).outcome with
      | .ok () => makeAll second (makeAll first s).session
      | .error _ => makeAll first s := by
  induction first generalizing s with
  | nil => rfl
  | cons change rest ih =>
    rw [List.cons_append, makeAll, makeAll]
    cases made : (change.make s).outcome with
    | ok => simpa using ih (change.make s).session
    | error => simp [made]

end Change

end ChainLedger

import ChainLedger.Ledger.Cell

/-!
# Automated transactions

Every state of an AT is found by its address and height, and the index of heights
finds the ATs that ran at one height. Removing an AT removes its states from both.
-/

namespace ChainLedger

/-- How far a sequence of writes got, and what it met. -/
structure Written where
  outcome : Except DataError Unit
  session : Session

namespace Session

def at? (s : Session) (address : Address) : Except DataError (Option DeployedAt) :=
  s.read (.deployedAt address)

def saveAt (s : Session) (deployed : DeployedAt) : Session :=
  s.write (.deployedAt deployed.address) deployed

/-! ## States -/

def atState? (s : Session) (address : Address) (height : UInt32) :
    Except DataError (Option AtState) :=
  s.read (.atState address height)

def saveAtState (s : Session) (state : AtState) : Session :=
  (s.write (.atHeight state.height state.address) ()).write
    (.atState state.address state.height) state

def deleteAtState (s : Session) (address : Address) (height : UInt32) : Session :=
  (s.clear (.atHeight height address)).clear (.atState address height)

/-- The state that an index entry of a height points at. -/
def indexedState (s : Session) (height : UInt32) (key : Bytes) : Except DataError AtState := do
  match Text.ofBytes? (key.drop (Cell.atHeightEntries height).length) with
  | none => .error (.corrupt key .indexAddress)
  | some address =>
    match ← s.atState? address height with
    | none => .error (.corrupt key .missingState)
    | some state => return state

/-- States of one height are listed by their time, and then by address. -/
def isInOrder (a b : AtState) : Bool :=
  a.creation < b.creation || (a.creation == b.creation && a.address ≤ b.address)

/-- The states of all ATs at a height. -/
def statesAtHeight (s : Session) (height : UInt32) : Except DataError (List AtState) :=
  ((s.scan (Cell.atHeightEntries height)).mapM fun row => s.indexedState height row.1).map
    fun states => states.mergeSort isInOrder

/-- Removes the states of all ATs at a height. -/
def deleteStatesAtHeight (s : Session) (height : UInt32) : Except DataError Session :=
  (s.statesAtHeight height).map fun states =>
    states.foldl (fun s state => s.deleteAtState state.address height) s

/-! ## Removal -/

/-- Removes rows that hold states of an AT, up to the first one that cannot be read. -/
def deleteStateRows (s : Session) (address : Address) : List (Bytes × Bytes) → Written
  | [] => ⟨.ok (), s⟩
  | (key, row) :: rest =>
    match AtState.form.ofRow key row with
    | .error error => ⟨.error error, s⟩
    | .ok state =>
      ((s.clear (.atHeight state.height address)).remove key).deleteStateRows address rest

/-- Removes an AT and all its states. -/
def deleteAt (s : Session) (address : Address) : Written :=
  let states := s.deleteStateRows address (s.scan (Cell.statesOf address))
  match states.outcome with
  | .error error => ⟨.error error, states.session⟩
  | .ok () => ⟨.ok (), states.session.clear (.deployedAt address)⟩

end Session

end ChainLedger

import ChainLedger.Ledger.Cell
import ChainLedger.Wire.Error

/-!
# Faults of transactions

Why a transaction cannot be judged, processed, undone or signed. A broken rule is
no fault but a verdict.
-/

namespace ChainLedger

/-- Where a transaction is in its life. -/
inductive Stage
  | unvalidated
  | valid
  | processed
  | orphaned
deriving DecidableEq

def Stage.name : Stage → String
  | .unvalidated => "unvalidated"
  | .valid => "valid"
  | .processed => "processed"
  | .orphaned => "orphaned"

/-- What can be done to a transaction. -/
inductive Operation
  | validate
  | process
  | orphan
deriving DecidableEq

def Operation.name : Operation → String
  | .validate => "validate"
  | .process => "process"
  | .orphan => "orphan"

/-- What a record has once it is processed, or has to have for it. -/
inductive ProcessingField
  | codeVersion
  | atAddress
  | assetId
deriving DecidableEq

def ProcessingField.name : ProcessingField → String
  | .codeVersion => "code version"
  | .atAddress => "AT address"
  | .assetId => "asset id"

inductive TransactionError
  | data (error : DataError)
  | wire (error : WireError)
  | illegalTransition (operation : Operation) (stage : Stage)
  | unsigned (kind : Kind)
  | alreadySigned (kind : Kind)
  | notKeySigned (kind : Kind)
  | keyMismatch
  | amountOverflow (kind : Kind)
  | missingField (kind : Kind) (field : ProcessingField)
deriving DecidableEq

namespace TransactionError

def message : TransactionError → String
  | .data error => "repository failure: " ++ error.message
  | .wire error => "transformation failure: " ++ error.message
  | .illegalTransition operation stage =>
    "cannot " ++ operation.name ++ " a transaction that is " ++ stage.name
  | .unsigned kind => kind.name ++ " transaction is not signed"
  | .alreadySigned kind => kind.name ++ " transaction is already signed"
  | .notKeySigned kind =>
    kind.name ++ " transactions carry a derived signature, not a key signature"
  | .keyMismatch => "keypair does not match the transaction's creator public key"
  | .amountOverflow kind => kind.name ++ " transaction amounts overflow"
  | .missingField kind field =>
    kind.name ++ " record has no " ++ field.name ++ "; it was never processed"

end TransactionError

end ChainLedger

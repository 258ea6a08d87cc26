import ChainLedger.Transaction.Plan
import ChainLedger.Transaction.Signing

/-!
# Transactions

A transaction is a record and the stage it is at. A good verdict makes it valid, a
valid one can be processed, a processed one orphaned, and an orphaned one judged
again. An operation that is not allowed at a stage is refused and changes nothing.
Processing and orphaning write to a session; where they fail, the writes made so far
stay in it, and it is the caller's part to drop them.
-/

namespace ChainLedger

structure Transaction where
  record : Record
  stage : Stage
deriving DecidableEq

/-- What an operation on a transaction comes to. -/
structure Step where
  outcome : Except TransactionError Unit
  transaction : Transaction
  session : Session

namespace Transaction

/-- A transaction that was just received or made. -/
def received (r : Record) : Transaction := ⟨r, .unvalidated⟩

/-- A transaction that is in the ledger. -/
def processed (r : Record) : Transaction := ⟨r, .processed⟩

/-- The stages at which an operation is allowed. -/
def allows (operation : Operation) : Stage → Bool
  | .unvalidated => operation = .validate
  | .valid => operation = .validate || operation = .process
  | .processed => operation = .orphan
  | .orphaned => operation = .validate

/-- Refuses an operation at a stage that does not allow it. -/
def permit (t : Transaction) (operation : Operation) : Except TransactionError Unit :=
  if allows operation t.stage then .ok () else .error (.illegalTransition operation t.stage)

/-- The signature that processing needs. -/
def signature (t : Transaction) : Except TransactionError Signature :=
  match t.record.signature? with
  | some signature => .ok signature
  | none => .error (.unsigned t.record.kind)

/-- The change of an account's balance of coins. -/
def amountFor (t : Transaction) (account : Address) : Except TransactionError Amount :=
  match t.record.amountFor? account with
  | some amount => .ok amount
  | none => .error (.amountOverflow t.record.kind)

/-! ## Judging -/

/-- Judges the transaction, which becomes valid or goes back to unvalidated. -/
def validate (params : ChainParams) (s : Session) (t : Transaction) :
    Except TransactionError Verdict × Transaction :=
  match t.permit .validate with
  | .error error => (.error error, t)
  | .ok () =>
    match t.record.verdict params s with
    | .error error => (.error (.data error), t)
    | .ok verdict =>
      (.ok verdict, { t with stage := if verdict = .ok then .valid else .unvalidated })

/-! ## Processing and orphaning -/

/-- A step that fails without a write. -/
def refuse (t : Transaction) (s : Session) (error : TransactionError) : Step := ⟨.error error, t, s⟩

/-- Carries out a plan, after which the transaction is at a new stage. -/
def carryOut (t : Transaction) (s : Session) (stage : Stage) (plan : Plan) : Step :=
  let written := Change.makeAll plan.changes s
  match written.outcome with
  | .ok () => ⟨.ok (), ⟨plan.after, stage⟩, written.session⟩
  | .error error => ⟨.error (.data error), { t with record := plan.during }, written.session⟩

/-- Does to the ledger what the record says, and stores it. -/
def process (params : ChainParams) (s : Session) (t : Transaction) : Step :=
  match t.permit .process, t.signature with
  | .error error, _ => t.refuse s error
  | .ok (), .error error => t.refuse s error
  | .ok (), .ok signature =>
    match t.record.processing params s signature with
    | .error error => t.refuse s error
    | .ok plan => t.carryOut s .processed plan

/-- Takes the record out of the ledger, and undoes what it did. -/
def orphan (s : Session) (t : Transaction) : Step :=
  match t.permit .orphan, t.signature with
  | .error error, _ => t.refuse s error
  | .ok (), .error error => t.refuse s error
  | .ok (), .ok signature =>
    let removed := (Change.deleteTransaction t.record).make s
    match removed.outcome with
    | .error error => t.refuse removed.session (.data error)
    | .ok () =>
      match t.record.undoing signature with
      | .error error => t.refuse removed.session error
      | .ok plan => t.carryOut removed.session .orphaned plan

end Transaction

end ChainLedger

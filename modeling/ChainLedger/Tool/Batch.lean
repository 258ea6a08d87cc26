import ChainLedger.Tool.Inspect
import ChainLedger.Transaction

/-!
# Applying a batch

A batch is a text with the bytes of one transaction on each line; blank lines and
those that begin with a number sign are passed over. Every transaction has to be
signed, valid and processed, one after the other in one session; if any is not, the
ledger stays as it is.
-/

namespace ChainLedger.Tool

/-- The failure of a transaction on a line. -/
def lineFailure (number : Nat) (kind : Kind) (reason : String) : Failure :=
  .plain ("line " ++ toString number ++ ": " ++ kind.name ++ " " ++ reason)

/-- A settlement without a signature gets its derived one. -/
def completed (params : ChainParams) (r : Record) : Except Failure Record :=
  if r.kind = .at && !r.isSigned then
    (r.withDerivedSignature params).mapError TransactionError.toFailure
  else .ok r

/-- Checks the signature of a record. -/
def checkSignature (params : ChainParams) (number : Nat) (r : Record) : Except Failure Unit :=
  match r.isSignatureValid params with
  | .error error => .error error.toFailure
  | .ok false => .error (lineFailure number r.kind "signature does not verify")
  | .ok true => .ok ()

/-- Judges and processes a record. -/
def applyRecord (params : ChainParams) (number : Nat) (s : Session) (r : Record) :
    Except Failure Session :=
  let (judged, t) := (Transaction.received r).validate params s
  match judged with
  | .error error => .error error.toFailure
  | .ok verdict =>
    if verdict ≠ .ok then
      .error (lineFailure number r.kind ("transaction rejected: " ++ verdict.name))
    else
      let step := t.process params s
      match step.outcome with
      | .error error =>
        .error (error.toFailure.within ("line " ++ toString number ++ ": processing failed"))
      | .ok () => .ok step.session

/-- Applies the transaction on a line. -/
def applyLine (params : ChainParams) (number : Nat) (s : Session) (line : String) :
    Except Failure Session := do
  let r ← (readRecord params line).mapError (Failure.within ("line " ++ toString number))
  let r ← completed params r
  checkSignature params number r
  applyRecord params number s r

/-- A line without a transaction. -/
def isSkipped (line : List Char) : Bool :=
  match Text.trimmed line with
  | [] => true
  | '#' :: _ => true
  | _ => false

/-- Applies lines, counted from the given number on, and counts the transactions. -/
def applyLines (params : ChainParams) : (number : Nat) → Session → List (List Char) →
    Except Failure (Nat × Session)
  | _, s, [] => .ok (0, s)
  | number, s, line :: rest =>
    if isSkipped line then applyLines params (number + 1) s rest
    else do
      let s ← applyLine params number s (String.ofList line)
      let (count, s) ← applyLines params (number + 1) s rest
      return (count + 1, s)

/-- What a batch comes to, and the ledger after it. -/
structure Applied where
  count : Except Failure Nat
  ledger : Ledger

/-- Applies a batch to a ledger; a dry run only tells what would come of it. -/
def applyBatch (params : ChainParams) (dryRun : Bool) (ledger : Ledger) (text : String) :
    Applied :=
  match applyLines params 1 ledger.session (Text.linesOf text.toList) with
  | .error failure => ⟨.error failure, ledger⟩
  | .ok (count, s) => ⟨.ok count, if dryRun then ledger else s.commit⟩

/-- What the command prints. -/
def Applied.report (a : Applied) : Report :=
  a.count.map fun count => .text ("applied " ++ toString count ++ " transaction(s)")

end ChainLedger.Tool

import ChainLedger.Calendar
import ChainLedger.Record.Display
import ChainLedger.Text.WhiteSpace
import ChainLedger.Tool.Report
import ChainLedger.Transaction.Signing

/-!
# Looking at one transaction

Commands that take the bytes of a transaction in hexadecimal: to show the record, to
print what its signature covers, and to check the signature.
-/

namespace ChainLedger.Tool

/-- The digits of a transaction, without the white space around them and a `0x` in front. -/
def digitsOf (input : String) : String :=
  match Text.trimmed input.toList with
  | '0' :: 'x' :: digits => String.ofList digits
  | digits => String.ofList digits

/-- The record whose bytes are given in hexadecimal. -/
def readRecord (params : ChainParams) (input : String) : Except Failure Record :=
  match Hexadecimal.decode (digitsOf input) with
  | .error error => .error ((Failure.plain error.message).within "transaction is not valid hex")
  | .ok bytes =>
    (Record.decode params bytes).mapError fun error =>
      error.toFailure.within "failed to decode transaction"

/-- The record with the name of its kind, its time and whether its signature is valid. -/
def describe (params : ChainParams) (r : Record) : Except Failure Json.Value :=
  match r.isSignatureValid params with
  | .error error => .error error.toFailure
  | .ok valid =>
    .ok <| .sorted <| r.displayFields ++
      [("typeName", .text r.kind.name),
        ("timestampUtc", .ofOption Json.Value.text (Calendar.textOf? r.timestamp)),
        ("signatureValid", .bool valid)]

/-! ## Commands -/

/-- Shows a transaction. -/
def decode (params : ChainParams) (input : String) : Report := do
  let r ← readRecord params input
  return .json (← describe params r)

/-- Prints the bytes that the signature of a transaction covers. -/
def signingBytes (params : ChainParams) (input : String) : Report := do
  let r ← readRecord params input
  match r.signingBytes params with
  | .error error => .error error.toFailure
  | .ok bytes => return .text (Hexadecimal.encode bytes)

/-- Checks the signature of a transaction. -/
def verify (params : ChainParams) (input : String) : Report := do
  let r ← readRecord params input
  match r.isSignatureValid params with
  | .error error => .error error.toFailure
  | .ok false => .error (.plain "signature does not verify")
  | .ok true => return .text "signature valid"

/-- Prints the parameters in force. -/
def showParams (params : ChainParams) : Report := .ok (.json params.toJson)

end ChainLedger.Tool

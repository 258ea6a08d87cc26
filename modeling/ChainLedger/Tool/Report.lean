import ChainLedger.ChainParams.Json
import ChainLedger.Transaction.Error

/-!
# Reports of the command line

A command ends in output or in a failure. A failure is a message with the chain of
its causes, each of which the one before it puts into its context.
-/

namespace ChainLedger

/-- What a command that succeeds prints. -/
inductive Output
  | text (line : String)
  | json (value : Json.Value)

/-- The output with the line break that ends it. -/
def Output.toText : Output → String
  | .text line => line ++ "\n"
  | .json value => value.toText ++ "\n"

/-- Why a command failed. -/
structure Failure where
  message : String
  causes : List String
deriving DecidableEq

namespace Failure

/-- A failure without a cause. -/
def plain (message : String) : Failure := ⟨message, []⟩

/-- The failure as the cause of another. -/
def within (context : String) (f : Failure) : Failure := ⟨context, f.message :: f.causes⟩

/-- A number of a cause, in five columns. -/
def causeNumber (n : Nat) : String :=
  let digits := Nat.toDigits 10 n
  String.ofList (List.replicate (5 - digits.length) ' ' ++ digits)

/-- The lines of the causes, numbered from the given number on. -/
def causeLines : (number : Nat) → List String → String
  | _, [] => ""
  | number, cause :: rest =>
    "\n" ++ causeNumber number ++ ": " ++ cause ++ causeLines (number + 1) rest

/-- What is printed about a failure. -/
def toText (f : Failure) : String :=
  "Error: " ++ f.message ++
    (match f.causes with
      | [] => ""
      | [cause] => "\n\nCaused by:\n    " ++ cause
      | causes => "\n\nCaused by:" ++ causeLines 0 causes) ++ "\n"

end Failure

/-! ## Faults as failures -/

def WireError.toFailure (error : WireError) : Failure :=
  ⟨error.message, match error with
    | .invalidAddress cause => [cause.message]
    | _ => []⟩

def TransactionError.toFailure (error : TransactionError) : Failure :=
  match error with
  | .data cause => (Failure.plain cause.message).within error.message
  | .wire cause => cause.toFailure.within error.message
  | _ => .plain error.message

def ParamsError.toFailure (error : ParamsError) : Failure := ⟨error.message, [error.reason]⟩

/-- The end of a command. -/
abbrev Report := Except Failure Output

namespace Report

def exitCode : Report → Nat
  | .ok _ => 0
  | .error _ => 1

def errorText : Report → String
  | .ok _ => ""
  | .error failure => failure.toText

end Report

end ChainLedger

import ChainLedger.Ledger.Cell

/-!
# Verdicts

A transaction is judged by a list of rules. The first one that is broken gives the
verdict, so that it is good exactly when every rule holds.
-/

namespace ChainLedger

inductive Verdict
  | ok
  | invalidAddress
  | negativeAmount
  | negativeFee
  | noBalance
  | invalidReference
  | invalidNameLength
  | invalidAmount
  | nameNotLowerCase
  | invalidDescriptionLength
  | invalidOptionsCount
  | invalidOptionLength
  | duplicateOption
  | pollAlreadyExists
  | pollDoesNotExist
  | pollOptionDoesNotExist
  | alreadyVotedForThatOption
  | invalidDataLength
  | invalidQuantity
  | assetDoesNotExist
  | assetAlreadyExists
  | invalidPaymentsCount
  | invalidTagsLength
  | invalidAtTypeLength
  | invalidCreationBytes
  | notYetReleased
deriving DecidableEq

namespace Verdict

def name : Verdict → String
  | .ok => "OK"
  | .invalidAddress => "INVALID_ADDRESS"
  | .negativeAmount => "NEGATIVE_AMOUNT"
  | .negativeFee => "NEGATIVE_FEE"
  | .noBalance => "NO_BALANCE"
  | .invalidReference => "INVALID_REFERENCE"
  | .invalidNameLength => "INVALID_NAME_LENGTH"
  | .invalidAmount => "INVALID_AMOUNT"
  | .nameNotLowerCase => "NAME_NOT_LOWER_CASE"
  | .invalidDescriptionLength => "INVALID_DESCRIPTION_LENGTH"
  | .invalidOptionsCount => "INVALID_OPTIONS_COUNT"
  | .invalidOptionLength => "INVALID_OPTION_LENGTH"
  | .duplicateOption => "DUPLICATE_OPTION"
  | .pollAlreadyExists => "POLL_ALREADY_EXISTS"
  | .pollDoesNotExist => "POLL_DOES_NOT_EXIST"
  | .pollOptionDoesNotExist => "POLL_OPTION_DOES_NOT_EXIST"
  | .alreadyVotedForThatOption => "ALREADY_VOTED_FOR_THAT_OPTION"
  | .invalidDataLength => "INVALID_DATA_LENGTH"
  | .invalidQuantity => "INVALID_QUANTITY"
  | .assetDoesNotExist => "ASSET_DOES_NOT_EXIST"
  | .assetAlreadyExists => "ASSET_ALREADY_EXISTS"
  | .invalidPaymentsCount => "INVALID_PAYMENTS_COUNT"
  | .invalidTagsLength => "INVALID_TAGS_LENGTH"
  | .invalidAtTypeLength => "INVALID_AT_TYPE_LENGTH"
  | .invalidCreationBytes => "INVALID_CREATION_BYTES"
  | .notYetReleased => "NOT_YET_RELEASED"

end Verdict

/-- A condition, which may need a look at the ledger, and the verdict if it does not hold. -/
structure Rule where
  holds : Except DataError Bool
  verdict : Verdict

namespace Rule

/-- A condition on the transaction alone. -/
def plain (holds : Bool) (verdict : Verdict) : Rule := ⟨.ok holds, verdict⟩

/-- The verdict of the first rule that does not hold. -/
def judge : List Rule → Except DataError Verdict
  | [] => .ok .ok
  | rule :: rest =>
    match rule.holds with
    | .error error => .error error
    | .ok true => judge rest
    | .ok false => .ok rule.verdict

/-- A good verdict means that every rule holds, provided that no rule has it for its breach. -/
theorem judge_eq_ok_iff {rules : List Rule} (named : ∀ rule ∈ rules, rule.verdict ≠ .ok) :
    judge rules = .ok .ok ↔ ∀ rule ∈ rules, rule.holds = .ok true := by
  induction rules with
  | nil => simp [judge]
  | cons rule rest ih =>
    have named' : ∀ r ∈ rest, r.verdict ≠ .ok := fun r member =>
      named r (List.mem_cons_of_mem _ member)
    have here := named rule List.mem_cons_self
    rw [judge]
    split
    next error met => simp [met]
    next met => simp [met, ih named']
    next met => simp [met, here]

end Rule

end ChainLedger

import ChainLedger.ChainParams
import ChainLedger.Json.Document
import ChainLedger.Json.Value

/-!
# Chain parameters in JSON

Parameters are an object of activation points, or a list of them in order; those
that are missing are the main chain's. A field that is not known is passed over, one
that is known may stand only once, and a point is a 64-bit integer without fraction
or exponent.
-/

namespace ChainLedger

/-- Why there are no parameters to be had from a file. -/
inductive ParamsError
  | unreadable (reason : String)
  | malformed
deriving DecidableEq

namespace ParamsError

/-- What is wrong with the file. -/
def reason : ParamsError → String
  | .unreadable reason => reason
  | .malformed => "not an object of activation timestamps"

def message (error : ParamsError) : String :=
  match error with
  | .unreadable _ => "unable to read chain params: " ++ error.reason
  | .malformed => "malformed chain params: " ++ error.reason

end ParamsError

namespace ChainParams

/-! ## Writing -/

/-- The parameters as an object. -/
def toJson (params : ChainParams) : Json.Value :=
  .object
    [("votingReleaseTimestamp", .int params.votingRelease.toInt),
      ("assetsReleaseTimestamp", .int params.assetsRelease.toInt),
      ("atReleaseTimestamp", .int params.atRelease.toInt),
      ("powfixReleaseTimestamp", .int params.powfixRelease.toInt),
      ("createPollV2Timestamp", .int params.createPollV2.toInt),
      ("issueAssetV2Timestamp", .int params.issueAssetV2.toInt)]

/-! ## Reading -/

/-- Replaces one activation point. -/
abbrev Setter := ChainParams → Timestamp → ChainParams

/-- The activation points by name, in order. -/
def setters : List (String × Setter) :=
  [("votingReleaseTimestamp", fun params time => { params with votingRelease := time }),
    ("assetsReleaseTimestamp", fun params time => { params with assetsRelease := time }),
    ("atReleaseTimestamp", fun params time => { params with atRelease := time }),
    ("powfixReleaseTimestamp", fun params time => { params with powfixRelease := time }),
    ("createPollV2Timestamp", fun params time => { params with createPollV2 := time }),
    ("issueAssetV2Timestamp", fun params time => { params with issueAssetV2 := time })]

/-- The number that decimal digits denote, if they are nothing but digits. -/
def natural? (digits : List Char) : Option Nat :=
  if digits.all Char.isDigit then
    some (digits.foldl (fun n c => 10 * n + (c.toNat - '0'.toNat)) 0)
  else none

/-- The integer that a number is, unless it is written otherwise; zero has no sign. -/
def integer? (written : List Char) : Option Int :=
  match written with
  | '-' :: digits => (natural? digits).bind fun n => if n = 0 then none else some (-(n : Int))
  | digits => (natural? digits).map Int.ofNat

/-- The activation point that a value is. -/
def timestamp? : Json.Document → Option Timestamp
  | .number written =>
    (integer? written).bind fun n =>
      if Int64.minValue.toInt ≤ n ∧ n ≤ Int64.maxValue.toInt then some (Int64.ofInt n) else none
  | _ => none

/-- Reads fields, given the names of those read before. -/
def readFields : (seen : List String) → ChainParams → List (Json.Key × Json.Document) →
    Option ChainParams
  | _, params, [] => some params
  | _, _, (none, _) :: _ => none
  | seen, params, (some name, value) :: rest =>
    match setters.lookup name with
    | none => readFields seen params rest
    | some setter =>
      if seen.contains name then none
      else (timestamp? value).bind fun time => readFields (name :: seen) (setter params time) rest

/-- Reads a list, given the points that it may still set. -/
def readList : List (String × Setter) → ChainParams → List Json.Document → Option ChainParams
  | _, params, [] => some params
  | [], _, _ :: _ => none
  | (_, setter) :: setters, params, value :: rest =>
    (timestamp? value).bind fun time => readList setters (setter params time) rest

/-- The parameters that a document gives. -/
def ofDocument? : Json.Document → Option ChainParams
  | .object fields => readFields [] mainChain fields
  | .list items => readList setters mainChain items
  | _ => none

/-- The parameters that a text gives. -/
def ofText (text : String) : Except ParamsError ChainParams :=
  match (Json.Document.ofText? text).bind ofDocument? with
  | some params => .ok params
  | none => .error .malformed

end ChainParams

end ChainLedger

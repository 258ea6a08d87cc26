import ChainLedger.Address
import ChainLedger.Hexadecimal

/-!
# Faults of the wire form

Why bytes are not a transaction, or why a record has no byte form. Each fault names
the field in which it was found.
-/

namespace ChainLedger

/-- What is wrong with the value of a field. -/
inductive ValueFault
  | notBoolean (byte : UInt8)
  | negativeLength (declared : Int32)
  | noOptions
  | voterCount (declared : Int32)
  | referenceMismatch
deriving DecidableEq

def ValueFault.message : ValueFault → String
  | .notBoolean byte => "expected 0 or 1, got " ++ toString byte.toNat
  | .negativeLength declared => "negative length " ++ toString declared.toInt
  | .noOptions => "a poll needs at least one option"
  | .voterCount declared => "expected 0, got " ++ toString declared.toInt
  | .referenceMismatch => "does not match the transaction signature"

inductive WireError
  | tooShort (needed remaining : Nat)
  | unsupportedType (tag : Int32)
  | sizeExceeded (field : String) (size max : Nat)
  | invalidUtf8 (field : String)
  | invalidAddress (error : AddressError)
  | invalidValue (field : String) (fault : ValueFault)
  | amountOutOfRange (bytes : Bytes)
  | trailingBytes (count : Nat)
deriving DecidableEq

def WireError.message : WireError → String
  | .tooShort needed remaining =>
    "transaction bytes too short: needed " ++ toString needed ++ ", " ++ toString remaining ++
      " remaining"
  | .unsupportedType tag => "unsupported transaction type " ++ toString tag.toInt
  | .sizeExceeded field size max =>
    field ++ " is " ++ toString size ++ " bytes, maximum is " ++ toString max
  | .invalidUtf8 field => field ++ " is not valid UTF-8"
  | .invalidAddress error => "invalid address: " ++ error.message
  | .invalidValue field fault => "invalid " ++ field ++ ": " ++ fault.message
  | .amountOutOfRange bytes => "asset amount does not fit in 64 bits: " ++ Hexadecimal.encode bytes
  | .trailingBytes count => toString count ++ " unexpected trailing bytes"

end ChainLedger

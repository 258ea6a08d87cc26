import ChainLedger.Ledger.Cell
import ChainLedger.Record.Wire

/-!
# Stored transactions

The record of a processed transaction is stored under its signature.
-/

namespace ChainLedger.Session

def transaction? (s : Session) (signature : Signature) : Except DataError (Option Record) :=
  s.read (.transaction signature)

/-- The signature under which a record is stored. -/
def storedUnder (r : Record) : Except DataError Signature :=
  match r.signature? with
  | some signature => .ok signature
  | none => .error (.unsigned r.kind)

def saveTransaction (s : Session) (r : Record) : Except DataError Session :=
  (storedUnder r).map fun signature => s.write (.transaction signature) r

def deleteTransaction (s : Session) (r : Record) : Except DataError Session :=
  (storedUnder r).map fun signature => s.clear (.transaction signature)

end ChainLedger.Session

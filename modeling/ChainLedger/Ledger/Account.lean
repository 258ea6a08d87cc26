import ChainLedger.Ledger.Cell

/-!
# Balances and references

Every account has a balance of every asset, zero unless one is stored, and the
reference that its next transaction has to give, if it has any.
-/

namespace ChainLedger.Session

/-- The balance of an account. -/
def balance (s : Session) (account : Address) (asset : AssetId) : Except DataError Amount :=
  (s.read (.balance account asset)).map (·.getD Amount.zero)

def setBalance (s : Session) (account : Address) (asset : AssetId) (balance : Amount) : Session :=
  s.write (.balance account asset) balance

def clearBalance (s : Session) (account : Address) (asset : AssetId) : Session :=
  s.clear (.balance account asset)

/-- Adds to the balance of an account. -/
def adjustBalance (s : Session) (account : Address) (asset : AssetId) (delta : Amount) :
    Except DataError Session :=
  (s.balance account asset).map fun balance => s.setBalance account asset (balance + delta)

/-- The signature of the last transaction of an account. -/
def lastReference (s : Session) (account : Address) : Except DataError (Option Signature) :=
  s.read (.reference account)

def setLastReference (s : Session) (account : Address) (reference : Option Signature) : Session :=
  match reference with
  | some signature => s.write (.reference account) signature
  | none => s.clear (.reference account)

end ChainLedger.Session

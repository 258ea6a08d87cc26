import ChainLedger.Store.Form
import ChainLedger.Store.Session

/-!
# Ledgers as bytes

A whole ledger as one byte string: the number of its rows, and every key with its
row in the order of the keys.
-/

namespace ChainLedger.OrderedMap

/-- How a ledger is stored as a whole. -/
def form : Form Ledger := (Form.list (Form.bytes.pair Form.bytes)).iso ofList entries

/-- The ledger that a byte string holds, if nothing follows it. -/
def ofSnapshot? (snapshot : Bytes) : Option Ledger :=
  match form.read snapshot with
  | .ok (ledger, []) => some ledger
  | _ => none

end ChainLedger.OrderedMap

/-!
# Limits of the protocol

Sizes are in bytes and bind both the wire format and validation; the message of an
AT settlement is bounded by validation alone.
-/

namespace ChainLedger.Limits

def assetName : Nat := 400
def assetDescription : Nat := 4000

/-- The largest quantity of an issued asset. -/
def assetQuantity : Int64 := 10000000000

/-- Entries of a multi-payment. -/
def payments : Nat := 400

/-- Names of polls and of their options. -/
def pollName : Nat := 400
def pollDescription : Nat := 4000

/-- Options of a poll. -/
def pollOptions : Nat := 100

def atName : Nat := 200
def atDescription : Nat := 2000
def atType : Nat := 200
def atTags : Nat := 200
def atCreationBytes : Nat := 4096
def atMessage : Nat := 256

end ChainLedger.Limits

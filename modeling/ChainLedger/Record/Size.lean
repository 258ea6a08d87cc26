import ChainLedger.Record.Wire

/-!
# Sizes on the wire

The number of bytes a record takes, reckoned from its fields without writing it.
-/

namespace ChainLedger

/-- Bytes of a field that is preceded by its length. -/
def sizedSize (length : Nat) : Nat := 4 + length

/-- Bytes of a text that is preceded by its length. -/
def textSize (text : String) : Nat := sizedSize (Text.size text)

/-- Bytes of one leg of a payment. -/
def legSize : Nat := 45

/-- Bytes of the fields of an action. -/
def Action.size (layout : Layout) : Action → Nat
  | .payment _ => 32 + 25 + 8
  | .createPoll c =>
    let perOption := if layout.voterCounts then 4 else 0
    32 + 25 + textSize c.name + textSize c.description + 4 +
      c.options.foldr (fun option size => textSize option + perOption + size) 0
  | .voteOnPoll b => 32 + textSize b.poll + 4
  | .issueAsset i =>
    32 + 25 + textSize i.name + textSize i.description + 8 + 1 +
      (if layout.assetReference then 64 else 0)
  | .transferAsset _ => 32 + legSize
  | .multiPayment m => 32 + 4 + m.legs.length * legSize
  | .deployAt d =>
    32 + textSize d.name + textSize d.description + textSize d.atType + textSize d.tags +
      sizedSize d.creationBytes.length + 8
  | .settleAt s =>
    25 + 25 + 1 + (if s.payment.isSome then 16 else 0) + sizedSize s.message.length

/-- Bytes of a record. -/
def Record.size (params : ChainParams) : Record → Nat
  | .genesis _ => 4 + 8 + 25 + 8
  | .standard envelope action =>
    4 + 8 + 64 + action.size (Layout.atTime params envelope.timestamp) + 8 +
      (if envelope.signature.isSome then 64 else 0)

end ChainLedger

import ChainLedger.Amount.Text
import ChainLedger.Json.Value
import ChainLedger.Record.Wire

/-!
# Records for display

A record is shown as a JSON object with its fields in the order of their names.
Amounts are decimal text, keys and messages hexadecimal, signatures and creation
bytes base 58.
-/

namespace ChainLedger

open Json (Value)

/-! ## Parts -/

def Amount.display (a : Amount) : Value := .text a.toText

def Signature.display (s : Signature) : Value := .text (Signature.toBase58 s)

def PublicKey.display (key : PublicKey) : Value := .text (Hexadecimal.encode key.bytes)

def AssetId.display (id : AssetId) : Value := .int id.toNat

def Leg.display (leg : Leg) : Value :=
  .sorted [("recipient", .text leg.recipient), ("assetId", AssetId.display leg.assetId),
    ("amount", leg.amount.display)]

/-- The account that a key controls, by its address and its key. -/
def displayParty (role keyRole : String) (key : PublicKey) : List (String × Value) :=
  [(role, .text (Address.ofPublicKey key.bytes)), (keyRole, PublicKey.display key)]

/-! ## Actions and records -/

/-- The fields of an action. -/
def Action.display : Action → List (String × Value)
  | .payment p =>
    displayParty "sender" "senderPublicKey" p.sender ++
      [("recipient", .text p.recipient), ("amount", p.amount.display)]
  | .createPoll c =>
    displayParty "creator" "creatorPublicKey" c.creator ++
      [("owner", .text c.owner), ("name", .text c.name), ("description", .text c.description),
        ("options", .list (c.options.map fun option => .sorted [("name", .text option)]))]
  | .voteOnPoll b =>
    displayParty "voter" "voterPublicKey" b.voter ++
      [("poll", .text b.poll), ("option", .int b.option.toInt)]
  | .issueAsset i =>
    displayParty "issuer" "issuerPublicKey" i.issuer ++
      [("owner", .text i.owner), ("name", .text i.name), ("description", .text i.description),
        ("quantity", .int i.quantity.toInt), ("isDivisible", .bool i.isDivisible),
        ("assetId", .ofOption AssetId.display i.assetId)]
  | .transferAsset t =>
    displayParty "sender" "senderPublicKey" t.sender ++
      [("recipient", .text t.leg.recipient), ("assetId", AssetId.display t.leg.assetId),
        ("amount", t.leg.amount.display)]
  | .multiPayment m =>
    displayParty "sender" "senderPublicKey" m.sender ++
      [("payments", .list (m.legs.map Leg.display))]
  | .deployAt d =>
    displayParty "creator" "creatorPublicKey" d.creator ++
      [("name", .text d.name), ("description", .text d.description), ("atType", .text d.atType),
        ("tags", .text d.tags), ("creationBytes", .text (Base58.encode d.creationBytes)),
        ("amount", d.amount.display), ("atAddress", .ofOption Value.text d.atAddress)]
  | .settleAt s =>
    [("atAddress", .text s.atAddress), ("recipient", .text s.recipient),
      ("assetId", .ofOption (fun p => AssetId.display p.assetId) s.payment),
      ("amount", .ofOption (fun p => p.amount.display) s.payment),
      ("message", .text (Hexadecimal.encode s.message))]

namespace Record

/-- The fields of a record. -/
def displayFields (r : Record) : List (String × Value) :=
  [("type", .int r.kind.tag.toInt), ("fee", r.fee.display), ("timestamp", .int r.timestamp.toInt),
    ("signature", .ofOption Signature.display r.signature?)] ++
    match r with
    | .genesis g => [("recipient", .text g.recipient), ("amount", g.amount.display)]
    | .standard envelope action =>
      ("reference", Signature.display envelope.reference) :: action.display

/-- The record as an object. -/
def display (r : Record) : Value := .sorted r.displayFields

end Record

end ChainLedger

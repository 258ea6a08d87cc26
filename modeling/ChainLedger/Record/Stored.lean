import ChainLedger.Record
import ChainLedger.Store.Form

/-!
# Stored records

A record is stored as the number of its variant in four bytes and its fields, those
that are only known once it is processed included. Unlike the wire form this form
fits every record.
-/

namespace ChainLedger

/-! ## Parts of records -/

def Leg.form : Form Leg :=
  (Form.text.pair <| Form.uint64.pair Form.amount).iso
    (fun (recipient, assetId, amount) => ⟨recipient, assetId, amount⟩)
    (fun l => (l.recipient, l.assetId, l.amount))

def Genesis.form : Form Genesis :=
  (Form.int64.pair <| Form.text.pair Form.amount).iso
    (fun (timestamp, recipient, amount) => ⟨timestamp, recipient, amount⟩)
    (fun g => (g.timestamp, g.recipient, g.amount))

def Envelope.form : Form Envelope :=
  (Form.int64.pair <| Form.signature.pair <| Form.amount.pair <|
    Form.option Form.signature).iso
    (fun (timestamp, reference, fee, signature) => ⟨timestamp, reference, fee, signature⟩)
    (fun e => (e.timestamp, e.reference, e.fee, e.signature))

def Payment.form : Form Payment :=
  (Form.publicKey.pair <| Form.text.pair Form.amount).iso
    (fun (sender, recipient, amount) => ⟨sender, recipient, amount⟩)
    (fun p => (p.sender, p.recipient, p.amount))

def PollCreation.form : Form PollCreation :=
  (Form.publicKey.pair <| Form.text.pair <| Form.text.pair <| Form.text.pair <|
    Form.list Form.text).iso
    (fun (creator, owner, name, description, options) =>
      ⟨creator, owner, name, description, options⟩)
    (fun c => (c.creator, c.owner, c.name, c.description, c.options))

def Ballot.form : Form Ballot :=
  (Form.publicKey.pair <| Form.text.pair <| Form.int32.pair <| Form.option Form.int32).iso
    (fun (voter, poll, option, previous) => ⟨voter, poll, option, previous⟩)
    (fun b => (b.voter, b.poll, b.option, b.previous))

def AssetIssue.form : Form AssetIssue :=
  (Form.publicKey.pair <| Form.text.pair <| Form.text.pair <| Form.text.pair <|
    Form.int64.pair <| Form.bool.pair <| Form.option Form.uint64).iso
    (fun (issuer, owner, name, description, quantity, isDivisible, assetId) =>
      ⟨issuer, owner, name, description, quantity, isDivisible, assetId⟩)
    (fun i => (i.issuer, i.owner, i.name, i.description, i.quantity, i.isDivisible, i.assetId))

def AssetTransfer.form : Form AssetTransfer :=
  (Form.publicKey.pair Leg.form).iso (fun (sender, leg) => ⟨sender, leg⟩)
    (fun t => (t.sender, t.leg))

def MultiPayment.form : Form MultiPayment :=
  (Form.publicKey.pair <| Form.list Leg.form).iso (fun (sender, legs) => ⟨sender, legs⟩)
    (fun m => (m.sender, m.legs))

def AtDeployment.form : Form AtDeployment :=
  (Form.publicKey.pair <| Form.text.pair <| Form.text.pair <| Form.text.pair <|
    Form.text.pair <| Form.bytes.pair <| Form.amount.pair <| Form.option Form.text).iso
    (fun (creator, name, description, atType, tags, creationBytes, amount, atAddress) =>
      ⟨creator, name, description, atType, tags, creationBytes, amount, atAddress⟩)
    (fun d => (d.creator, d.name, d.description, d.atType, d.tags, d.creationBytes, d.amount,
      d.atAddress))

def AtPayment.form : Form AtPayment :=
  (Form.uint64.pair Form.amount).iso (fun (assetId, amount) => ⟨assetId, amount⟩)
    (fun p => (p.assetId, p.amount))

def AtSettlement.form : Form AtSettlement :=
  (Form.text.pair <| Form.text.pair <| (Form.option AtPayment.form).pair Form.bytes).iso
    (fun (atAddress, recipient, payment, message) => ⟨atAddress, recipient, payment, message⟩)
    (fun s => (s.atAddress, s.recipient, s.payment, s.message))

/-! ## Records -/

namespace Record

/-- The number of a variant. -/
def variant : Form Nat := Form.word 4

/-- A variant's number, the envelope and the fields of an action. -/
def writeStandard {α : Type} (number : Nat) (form : Form α) (envelope : Envelope) (fields : α) :
    Bytes :=
  variant.write number ++ (Envelope.form.pair form).write (envelope, fields)

/-- Reads the envelope and the fields of an action. -/
def readStandard {α : Type} (form : Form α) (wrap : α → Action) (bytes : Bytes) :
    Except FormFault (Record × Bytes) := do
  let ((envelope, fields), rest) ← (Envelope.form.pair form).read bytes
  return (.standard envelope (wrap fields), rest)

/-- How records are stored. -/
def form : Form Record where
  write
    | .genesis g => variant.write 0 ++ Genesis.form.write g
    | .standard envelope action =>
      match action with
      | .payment p => writeStandard 1 Payment.form envelope p
      | .createPoll c => writeStandard 2 PollCreation.form envelope c
      | .voteOnPoll b => writeStandard 3 Ballot.form envelope b
      | .issueAsset i => writeStandard 4 AssetIssue.form envelope i
      | .transferAsset t => writeStandard 5 AssetTransfer.form envelope t
      | .multiPayment m => writeStandard 6 MultiPayment.form envelope m
      | .deployAt d => writeStandard 7 AtDeployment.form envelope d
      | .settleAt s => writeStandard 8 AtSettlement.form envelope s
  read bytes := do
    let (number, rest) ← variant.read bytes
    match number with
    | 0 =>
      let (g, rest) ← Genesis.form.read rest
      return (.genesis g, rest)
    | 1 => readStandard Payment.form .payment rest
    | 2 => readStandard PollCreation.form .createPoll rest
    | 3 => readStandard Ballot.form .voteOnPoll rest
    | 4 => readStandard AssetIssue.form .issueAsset rest
    | 5 => readStandard AssetTransfer.form .transferAsset rest
    | 6 => readStandard MultiPayment.form .multiPayment rest
    | 7 => readStandard AtDeployment.form .deployAt rest
    | 8 => readStandard AtSettlement.form .settleAt rest
    | other => .error (.unknownVariant other)

end Record

end ChainLedger

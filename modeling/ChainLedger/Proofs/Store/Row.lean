import ChainLedger.Ledger.Row
import ChainLedger.Proofs.Store.Form
import ChainLedger.Record.Stored

/-!
# Rows that are read back

Rows of the ledger and stored records are read back as they were written, with all
their fields, those included that are only known once a record is processed. Only a
length can keep a value from being stored: each text, list and byte string has to be
shorter than 2⁶⁴, as everything is that a program can hold.
-/

namespace ChainLedger

open Form (Fits ReadsBackOn)

/-! ## Rows of the ledger -/

/-- The lengths of the asset fit its row. -/
def Asset.Storable (a : Asset) : Prop :=
  Fits (Text.size a.owner) ∧ Fits (Text.size a.name) ∧ Fits (Text.size a.description)

theorem Asset.form_readsBack : Asset.form.ReadsBackOn Asset.Storable := by
  refine (Form.uint64_readsBack.pair <| Form.text_readsBack.pair <| Form.text_readsBack.pair <|
    Form.text_readsBack.pair <| Form.int64_readsBack.pair <| Form.bool_readsBack.pair
      Form.signature_readsBack).iso ?_
  intro a holds
  rcases holds with ⟨owner, name, description⟩
  exact ⟨⟨trivial, owner, name, description, trivial, trivial, trivial⟩, rfl⟩

/-- The lengths of the poll fit its row. -/
def Poll.Storable (p : Poll) : Prop :=
  Fits (Text.size p.owner) ∧ Fits (Text.size p.name) ∧ Fits (Text.size p.description) ∧
    Fits p.options.length ∧ ∀ option ∈ p.options, Fits (Text.size option)

theorem Poll.form_readsBack : Poll.form.ReadsBackOn Poll.Storable := by
  refine (Form.publicKey_readsBack.pair <| Form.text_readsBack.pair <| Form.text_readsBack.pair <|
    Form.text_readsBack.pair <| Form.text_readsBack.list.pair Form.int64_readsBack).iso ?_
  intro p holds
  rcases holds with ⟨owner, name, description, options⟩
  exact ⟨⟨trivial, owner, name, description, options, trivial⟩, rfl⟩

/-- The lengths of the vote fit its row. -/
def Vote.Storable (v : Vote) : Prop := Fits (Text.size v.poll)

theorem Vote.form_readsBack : Vote.form.ReadsBackOn Vote.Storable := by
  refine (Form.text_readsBack.pair <| Form.publicKey_readsBack.pair Form.int32_readsBack).iso ?_
  intro v poll
  exact ⟨⟨poll, trivial, trivial⟩, rfl⟩

/-- The lengths of the AT fit its row. -/
def DeployedAt.Storable (a : DeployedAt) : Prop :=
  Fits (Text.size a.address) ∧ Fits (Text.size a.creator) ∧ Fits a.code.length

instance (a : DeployedAt) : Decidable a.Storable := inferInstanceAs (Decidable (_ ∧ _ ∧ _))

theorem DeployedAt.form_readsBack : DeployedAt.form.ReadsBackOn DeployedAt.Storable := by
  refine (Form.text_readsBack.pair <| Form.text_readsBack.pair <| Form.int64_readsBack.pair <|
    Form.int16_readsBack.pair <| Form.bytes_readsBack.pair <| Form.bool_readsBack.pair <|
    Form.uint32_readsBack.option.pair <| Form.bool_readsBack.pair <| Form.bool_readsBack.pair <|
    Form.bool_readsBack.pair Form.amount_readsBack.option).iso ?_
  intro a holds
  rcases holds with ⟨address, creator, code⟩
  exact ⟨⟨address, creator, trivial, trivial, code, trivial, fun _ _ => trivial, trivial, trivial,
    trivial, fun _ _ => trivial⟩, rfl⟩

/-- The lengths of the state fit its row. -/
def AtState.Storable (s : AtState) : Prop :=
  Fits (Text.size s.address) ∧ Fits s.data.length ∧ Fits s.hash.length

instance (s : AtState) : Decidable s.Storable := inferInstanceAs (Decidable (_ ∧ _ ∧ _))

theorem AtState.form_readsBack : AtState.form.ReadsBackOn AtState.Storable := by
  refine (Form.text_readsBack.pair <| Form.uint32_readsBack.pair <| Form.int64_readsBack.pair <|
    Form.bytes_readsBack.pair <| Form.bytes_readsBack.pair Form.amount_readsBack).iso ?_
  intro s holds
  rcases holds with ⟨address, data, hash⟩
  exact ⟨⟨address, trivial, trivial, data, hash, trivial⟩, rfl⟩

/-! ## Parts of records -/

/-- The lengths of the leg fit its stored form. -/
def Leg.Storable (l : Leg) : Prop := Fits (Text.size l.recipient)

instance (l : Leg) : Decidable l.Storable := inferInstanceAs (Decidable (Fits _))

theorem Leg.form_readsBack : Leg.form.ReadsBackOn Leg.Storable := by
  refine (Form.text_readsBack.pair <| Form.uint64_readsBack.pair Form.amount_readsBack).iso ?_
  intro l recipient
  exact ⟨⟨recipient, trivial, trivial⟩, rfl⟩

theorem Genesis.form_readsBack :
    Genesis.form.ReadsBackOn fun g => Fits (Text.size g.recipient) := by
  refine (Form.int64_readsBack.pair <| Form.text_readsBack.pair Form.amount_readsBack).iso ?_
  intro g recipient
  exact ⟨⟨trivial, recipient, trivial⟩, rfl⟩

theorem Envelope.form_readsBack : Envelope.form.ReadsBack := by
  refine (Form.int64_readsBack.pair <| Form.signature_readsBack.pair <|
    Form.amount_readsBack.pair Form.signature_readsBack.option).iso ?_
  intro e _
  exact ⟨⟨trivial, trivial, trivial, fun _ _ => trivial⟩, rfl⟩

theorem AtPayment.form_readsBack : AtPayment.form.ReadsBack := by
  refine (Form.uint64_readsBack.pair Form.amount_readsBack).iso ?_
  intro p _
  exact ⟨⟨trivial, trivial⟩, rfl⟩

/-! ## Actions -/

/-- The lengths of the action fit its stored form. -/
def Action.Storable : Action → Prop
  | .payment p => Fits (Text.size p.recipient)
  | .createPoll c =>
    Fits (Text.size c.owner) ∧ Fits (Text.size c.name) ∧ Fits (Text.size c.description) ∧
      Fits c.options.length ∧ ∀ option ∈ c.options, Fits (Text.size option)
  | .voteOnPoll b => Fits (Text.size b.poll)
  | .issueAsset i =>
    Fits (Text.size i.owner) ∧ Fits (Text.size i.name) ∧ Fits (Text.size i.description)
  | .transferAsset t => t.leg.Storable
  | .multiPayment m => Fits m.legs.length ∧ ∀ leg ∈ m.legs, leg.Storable
  | .deployAt d =>
    Fits (Text.size d.name) ∧ Fits (Text.size d.description) ∧ Fits (Text.size d.atType) ∧
      Fits (Text.size d.tags) ∧ Fits d.creationBytes.length ∧
      ∀ address ∈ d.atAddress, Fits (Text.size address)
  | .settleAt s =>
    Fits (Text.size s.atAddress) ∧ Fits (Text.size s.recipient) ∧ Fits s.message.length

instance : DecidablePred Action.Storable
  | .payment _ => inferInstanceAs (Decidable (Fits _))
  | .createPoll _ => inferInstanceAs (Decidable (_ ∧ _ ∧ _ ∧ _ ∧ _))
  | .voteOnPoll _ => inferInstanceAs (Decidable (Fits _))
  | .issueAsset _ => inferInstanceAs (Decidable (_ ∧ _ ∧ _))
  | .transferAsset _ => inferInstanceAs (Decidable (Leg.Storable _))
  | .multiPayment _ => inferInstanceAs (Decidable (_ ∧ _))
  | .deployAt _ => inferInstanceAs (Decidable (_ ∧ _ ∧ _ ∧ _ ∧ _ ∧ _))
  | .settleAt _ => inferInstanceAs (Decidable (_ ∧ _ ∧ _))

theorem Payment.form_readsBack :
    Payment.form.ReadsBackOn fun p => (Action.payment p).Storable := by
  refine (Form.publicKey_readsBack.pair <| Form.text_readsBack.pair Form.amount_readsBack).iso ?_
  intro p recipient
  exact ⟨⟨trivial, recipient, trivial⟩, rfl⟩

theorem PollCreation.form_readsBack :
    PollCreation.form.ReadsBackOn fun c => (Action.createPoll c).Storable := by
  refine (Form.publicKey_readsBack.pair <| Form.text_readsBack.pair <| Form.text_readsBack.pair <|
    Form.text_readsBack.pair Form.text_readsBack.list).iso ?_
  intro c holds
  rcases holds with ⟨owner, name, description, options⟩
  exact ⟨⟨trivial, owner, name, description, options⟩, rfl⟩

theorem Ballot.form_readsBack :
    Ballot.form.ReadsBackOn fun b => (Action.voteOnPoll b).Storable := by
  refine (Form.publicKey_readsBack.pair <| Form.text_readsBack.pair <|
    Form.int32_readsBack.pair Form.int32_readsBack.option).iso ?_
  intro b poll
  exact ⟨⟨trivial, poll, trivial, fun _ _ => trivial⟩, rfl⟩

theorem AssetIssue.form_readsBack :
    AssetIssue.form.ReadsBackOn fun i => (Action.issueAsset i).Storable := by
  refine (Form.publicKey_readsBack.pair <| Form.text_readsBack.pair <| Form.text_readsBack.pair <|
    Form.text_readsBack.pair <| Form.int64_readsBack.pair <| Form.bool_readsBack.pair
      Form.uint64_readsBack.option).iso ?_
  intro i holds
  rcases holds with ⟨owner, name, description⟩
  exact ⟨⟨trivial, owner, name, description, trivial, trivial, fun _ _ => trivial⟩, rfl⟩

theorem AssetTransfer.form_readsBack :
    AssetTransfer.form.ReadsBackOn fun t => (Action.transferAsset t).Storable := by
  refine (Form.publicKey_readsBack.pair Leg.form_readsBack).iso ?_
  intro t leg
  exact ⟨⟨trivial, leg⟩, rfl⟩

theorem MultiPayment.form_readsBack :
    MultiPayment.form.ReadsBackOn fun m => (Action.multiPayment m).Storable := by
  refine (Form.publicKey_readsBack.pair Leg.form_readsBack.list).iso ?_
  intro m legs
  exact ⟨⟨trivial, legs⟩, rfl⟩

theorem AtDeployment.form_readsBack :
    AtDeployment.form.ReadsBackOn fun d => (Action.deployAt d).Storable := by
  refine (Form.publicKey_readsBack.pair <| Form.text_readsBack.pair <| Form.text_readsBack.pair <|
    Form.text_readsBack.pair <| Form.text_readsBack.pair <| Form.bytes_readsBack.pair <|
    Form.amount_readsBack.pair Form.text_readsBack.option).iso ?_
  intro d holds
  rcases holds with ⟨name, description, atType, tags, creationBytes, atAddress⟩
  exact ⟨⟨trivial, name, description, atType, tags, creationBytes, trivial, atAddress⟩, rfl⟩

theorem AtSettlement.form_readsBack :
    AtSettlement.form.ReadsBackOn fun s => (Action.settleAt s).Storable := by
  refine (Form.text_readsBack.pair <| Form.text_readsBack.pair <|
    AtPayment.form_readsBack.option.pair Form.bytes_readsBack).iso ?_
  intro s holds
  rcases holds with ⟨atAddress, recipient, message⟩
  exact ⟨⟨atAddress, recipient, fun _ _ => trivial, message⟩, rfl⟩

/-! ## Records -/

namespace Record

/-- The lengths of the record fit its stored form. -/
def Storable : Record → Prop
  | .genesis g => Fits (Text.size g.recipient)
  | .standard _ action => action.Storable

instance : DecidablePred Record.Storable
  | .genesis _ => inferInstanceAs (Decidable (Fits _))
  | .standard _ action => inferInstanceAs (Decidable action.Storable)

/-- The number of a variant is read back. -/
theorem read_variant {number : Nat} (small : number < wordValues 4) (rest : Bytes) :
    variant.read (variant.write number ++ rest) = .ok (number, rest) :=
  Form.word_readsBack 4 number rest small

/-- Behind the number, the envelope and the fields of an action are read back. -/
theorem readStandard_write {α : Type} {fields : Form α} {domain : α → Prop}
    (law : fields.ReadsBackOn domain) (wrap : α → Action) (envelope : Envelope) (value : α)
    (rest : Bytes) (inside : domain value) :
    readStandard fields wrap ((Envelope.form.pair fields).write (envelope, value) ++ rest) =
      .ok (.standard envelope (wrap value), rest) := by
  have readFields := (Envelope.form_readsBack.pair law) (envelope, value) rest ⟨trivial, inside⟩
  exact Except.bind_eq_ok_iff.mpr ⟨_, readFields, rfl⟩

/-- A standard record is read back by a reader that goes by the number of its variant. -/
theorem bind_variant_writeStandard {α : Type} {fields : Form α} {domain : α → Prop}
    {number : Nat} {reader : Nat × Bytes → Except FormFault (Record × Bytes)}
    (small : number < wordValues 4) (law : fields.ReadsBackOn domain) (wrap : α → Action)
    (dispatch : ∀ bytes, reader (number, bytes) = readStandard fields wrap bytes)
    (envelope : Envelope) (value : α) (rest : Bytes) (inside : domain value) :
    (variant.read (writeStandard number fields envelope value ++ rest) >>= reader) =
      .ok (.standard envelope (wrap value), rest) := by
  rw [writeStandard, List.append_assoc]
  have readFields := readStandard_write law wrap envelope value rest inside
  exact Except.bind_eq_ok_iff.mpr ⟨_, read_variant small _, (dispatch _).trans readFields⟩

/-- **Stored records are faithful.** What is written of a record, its derived fields included, is
read back. -/
theorem form_readsBack : Record.form.ReadsBackOn Record.Storable := by
  intro r rest inside
  cases r with
  | genesis g =>
    have readFields := Genesis.form_readsBack g rest inside
    simp only [form, List.append_assoc]
    refine Except.bind_eq_ok_iff.mpr ⟨_, read_variant (by decide) _, ?_⟩
    exact Except.bind_eq_ok_iff.mpr ⟨_, readFields, rfl⟩
  | standard envelope action =>
    cases action with
    | payment p =>
      exact bind_variant_writeStandard (by decide : 1 < wordValues 4)
        Payment.form_readsBack .payment (fun _ => rfl) envelope p rest inside
    | createPoll c =>
      exact bind_variant_writeStandard (by decide : 2 < wordValues 4)
        PollCreation.form_readsBack .createPoll (fun _ => rfl) envelope c rest inside
    | voteOnPoll b =>
      exact bind_variant_writeStandard (by decide : 3 < wordValues 4)
        Ballot.form_readsBack .voteOnPoll (fun _ => rfl) envelope b rest inside
    | issueAsset i =>
      exact bind_variant_writeStandard (by decide : 4 < wordValues 4)
        AssetIssue.form_readsBack .issueAsset (fun _ => rfl) envelope i rest inside
    | transferAsset t =>
      exact bind_variant_writeStandard (by decide : 5 < wordValues 4)
        AssetTransfer.form_readsBack .transferAsset (fun _ => rfl) envelope t rest inside
    | multiPayment m =>
      exact bind_variant_writeStandard (by decide : 6 < wordValues 4)
        MultiPayment.form_readsBack .multiPayment (fun _ => rfl) envelope m rest inside
    | deployAt d =>
      exact bind_variant_writeStandard (by decide : 7 < wordValues 4)
        AtDeployment.form_readsBack .deployAt (fun _ => rfl) envelope d rest inside
    | settleAt s =>
      exact bind_variant_writeStandard (by decide : 8 < wordValues 4)
        AtSettlement.form_readsBack .settleAt (fun _ => rfl) envelope s rest inside

end Record

end ChainLedger

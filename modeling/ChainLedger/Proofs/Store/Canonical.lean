import ChainLedger.Proofs.Ledger.Frame

/-!
# Stored forms are canonical

Bytes from which a value is read begin with what the value is written as, and the value is
one that its form fits. No other bytes stand for a value, so that a stored record and its
row say the same, whatever a row was made of. This is the converse of reading back.
-/

namespace ChainLedger

namespace Form

variable {α β : Type}

/-- Values that are read are in the domain, and are read from what they are written as. -/
def CanonicalOn (form : Form α) (domain : α → Prop) : Prop :=
  ∀ ⦃bytes : Bytes⦄ ⦃value : α⦄ ⦃rest : Bytes⦄, form.read bytes = .ok (value, rest) →
    domain value ∧ bytes = form.write value ++ rest

/-- All values are read only from what they are written as. -/
abbrev Canonical (form : Form α) : Prop := form.CanonicalOn fun _ => True

/-! ## Combining forms -/

theorem CanonicalOn.pair {first : Form α} {second : Form β} {domain : α → Prop}
    {domain' : β → Prop} (law : first.CanonicalOn domain) (law' : second.CanonicalOn domain') :
    (first.pair second).CanonicalOn fun value => domain value.1 ∧ domain' value.2 := by
  intro bytes value rest readAll
  obtain ⟨⟨a, after⟩, readFirst, readLater⟩ := Except.bind_eq_ok_iff.mp readAll
  obtain ⟨⟨b, after'⟩, readSecond, last⟩ := Except.bind_eq_ok_iff.mp readLater
  cases Except.pure_eq_ok_iff.mp last
  obtain ⟨inside, rfl⟩ := law readFirst
  obtain ⟨inside', rfl⟩ := law' readSecond
  exact ⟨⟨inside, inside'⟩, (List.append_assoc ..).symm⟩

theorem CanonicalOn.refine {form : Form α} {domain : α → Prop} {domain' : β → Prop}
    {read : α → Except FormFault β} {write : β → α} (law : form.CanonicalOn domain)
    (inverse : ∀ a b, domain a → read a = .ok b → domain' b ∧ write b = a) :
    (form.refine read write).CanonicalOn domain' := by
  intro bytes b rest readAll
  obtain ⟨⟨a, after⟩, readFront, readLater⟩ := Except.bind_eq_ok_iff.mp readAll
  obtain ⟨b', readValue, last⟩ := Except.bind_eq_ok_iff.mp readLater
  cases Except.pure_eq_ok_iff.mp last
  obtain ⟨inside, rfl⟩ := law readFront
  obtain ⟨inside', rfl⟩ := inverse a b inside readValue
  exact ⟨inside', rfl⟩

theorem CanonicalOn.iso {form : Form α} {domain : α → Prop} {domain' : β → Prop} {read : α → β}
    {write : β → α} (law : form.CanonicalOn domain)
    (inverse : ∀ a, domain a → domain' (read a) ∧ write (read a) = a) :
    (form.iso read write).CanonicalOn domain' := by
  refine law.refine fun a b inside readValue => ?_
  cases readValue
  exact inverse a inside

/-! ## Bytes and words -/

theorem of_take {count : Nat} {bytes front rest : Bytes}
    (taken : take count bytes = .ok (front, rest)) :
    front.length = count ∧ bytes = front ++ rest := by
  unfold take at taken
  split at taken
  · cases taken
  · next enough =>
    cases taken
    refine ⟨?_, (List.take_append_drop count bytes).symm⟩
    rw [List.length_take]
    omega

theorem fixed_canonical (n : Nat) : (fixed n).Canonical := by
  intro bytes value rest read
  unfold fixed at read
  dsimp only at read
  split at read
  · cases read
    exact ⟨trivial, (List.take_append_drop n bytes).symm⟩
  · cases read

theorem word_canonical (n : Nat) : (word n).CanonicalOn fun value => value < wordValues n := by
  refine (fixed_canonical n).iso fun value _ => ?_
  obtain ⟨digits, rfl⟩ := value
  exact ⟨ofLittleEndian_lt digits, FixedBytes.ext (littleEndian_ofLittleEndian digits)⟩

theorem byte_canonical : byte.Canonical :=
  (word_canonical 1).iso fun _ small => ⟨trivial, UInt8.toNat_ofNat_of_lt' small⟩

theorem uint32_canonical : uint32.Canonical :=
  (word_canonical 4).iso fun _ small => ⟨trivial, UInt32.toNat_ofNat_of_lt' small⟩

theorem int32_canonical : int32.Canonical := uint32_canonical.iso fun _ _ => ⟨trivial, rfl⟩

theorem uint64_canonical : uint64.Canonical :=
  (word_canonical 8).iso fun _ small => ⟨trivial, UInt64.toNat_ofNat_of_lt' small⟩

theorem int64_canonical : int64.Canonical := uint64_canonical.iso fun _ _ => ⟨trivial, rfl⟩

theorem amount_canonical : amount.Canonical := int64_canonical.iso fun _ _ => ⟨trivial, rfl⟩

theorem publicKey_canonical : publicKey.Canonical := fixed_canonical 32

/-- Of all bytes only zero and one are flags. -/
theorem bool_canonical : bool.Canonical := by
  refine byte_canonical.refine fun flag value _ read => ⟨trivial, ?_⟩
  split at read
  next unset =>
    cases read
    exact unset.symm
  next =>
    split at read
    next set =>
      cases read
      exact set.symm
    next => cases read

/-! ## Values of varying length -/

theorem CanonicalOn.option {form : Form α} {domain : α → Prop} (law : form.CanonicalOn domain) :
    form.option.CanonicalOn fun value => ∀ a ∈ value, domain a := by
  intro bytes value rest readAll
  obtain ⟨⟨flag, after⟩, readFlag, read⟩ := Except.bind_eq_ok_iff.mp readAll
  obtain ⟨-, rfl⟩ := byte_canonical readFlag
  dsimp only at read
  split at read
  next unset =>
    cases Except.pure_eq_ok_iff.mp read
    refine ⟨fun _ member => absurd member (Option.not_mem_none _), ?_⟩
    rw [unset]
    rfl
  next =>
    split at read
    next set =>
      obtain ⟨⟨a, after'⟩, readValue, last⟩ := Except.bind_eq_ok_iff.mp read
      cases Except.pure_eq_ok_iff.mp last
      obtain ⟨inside, rfl⟩ := law readValue
      refine ⟨fun a' member => Option.mem_some_iff.mp member ▸ inside, ?_⟩
      rw [set]
      exact (List.append_assoc ..).symm
    next => cases read

theorem length_canonical : length.CanonicalOn Fits := word_canonical 8

/-- By induction on the count: as many values are read as were asked for. -/
theorem of_readMany {form : Form α} {domain : α → Prop} (law : form.CanonicalOn domain)
    {count : Nat} {bytes : Bytes} {values : List α} {rest : Bytes}
    (read : readMany form count bytes = .ok (values, rest)) :
    values.length = count ∧ (∀ a ∈ values, domain a) ∧
      bytes = values.flatMap form.write ++ rest := by
  induction count generalizing bytes values with
  | zero =>
    cases read
    exact ⟨rfl, fun _ member => absurd member List.not_mem_nil, rfl⟩
  | succ count ih =>
    obtain ⟨⟨a, after⟩, readFirst, readOthers⟩ := Except.bind_eq_ok_iff.mp read
    obtain ⟨⟨as, after'⟩, readLater, last⟩ := Except.bind_eq_ok_iff.mp readOthers
    cases Except.pure_eq_ok_iff.mp last
    obtain ⟨inside, rfl⟩ := law readFirst
    obtain ⟨counted, insideLater, rfl⟩ := ih readLater
    refine ⟨by rw [List.length_cons, counted], List.forall_mem_cons.mpr ⟨inside, insideLater⟩, ?_⟩
    rw [List.flatMap_cons, List.append_assoc]

theorem CanonicalOn.list {form : Form α} {domain : α → Prop} (law : form.CanonicalOn domain) :
    form.list.CanonicalOn fun values => Fits values.length ∧ ∀ a ∈ values, domain a := by
  intro bytes values rest read
  obtain ⟨⟨count, after⟩, readLength, readValues⟩ := Except.bind_eq_ok_iff.mp read
  obtain ⟨fits, rfl⟩ := length_canonical readLength
  obtain ⟨rfl, inside, rfl⟩ := of_readMany law readValues
  exact ⟨⟨fits, inside⟩, (List.append_assoc ..).symm⟩

theorem bytes_canonical : bytes.CanonicalOn fun value => Fits value.length := by
  intro input value rest read
  obtain ⟨⟨size, after⟩, readLength, taken⟩ := Except.bind_eq_ok_iff.mp read
  obtain ⟨fits, rfl⟩ := length_canonical readLength
  obtain ⟨rfl, rfl⟩ := of_take taken
  exact ⟨fits, (List.append_assoc ..).symm⟩

theorem text_canonical : text.CanonicalOn fun value => Fits (Text.size value) := by
  refine bytes_canonical.refine fun bytes value fits read => ?_
  split at read
  next text found =>
    cases read
    cases Text.ofBytes?_eq_some_iff.mp found
    exact ⟨fits, rfl⟩
  next => cases read

/-- A signature is written without regard to its length, which is checked when it is read. -/
theorem signature_canonical : signature.Canonical := by
  refine bytes_canonical.refine fun bytes value _ read => ⟨trivial, ?_⟩
  split at read
  next s found =>
    cases read
    exact (FixedBytes.ofBytes?_eq_some_iff.mp found).symm
  next => cases read

end Form

/-! ## Parts of records -/

theorem Leg.form_canonical : Leg.form.CanonicalOn Leg.Storable := by
  refine (Form.text_canonical.pair <| Form.uint64_canonical.pair Form.amount_canonical).iso ?_
  rintro ⟨recipient, assetId, amount⟩ ⟨fits, -⟩
  exact ⟨fits, rfl⟩

theorem Genesis.form_canonical :
    Genesis.form.CanonicalOn fun g => Form.Fits (Text.size g.recipient) := by
  refine (Form.int64_canonical.pair <| Form.text_canonical.pair Form.amount_canonical).iso ?_
  rintro ⟨timestamp, recipient, amount⟩ ⟨-, fits, -⟩
  exact ⟨fits, rfl⟩

theorem Envelope.form_canonical : Envelope.form.Canonical := by
  refine (Form.int64_canonical.pair <| Form.signature_canonical.pair <|
    Form.amount_canonical.pair Form.signature_canonical.option).iso ?_
  rintro ⟨timestamp, reference, fee, signature⟩ -
  exact ⟨trivial, rfl⟩

theorem AtPayment.form_canonical : AtPayment.form.Canonical := by
  refine (Form.uint64_canonical.pair Form.amount_canonical).iso ?_
  rintro ⟨assetId, amount⟩ -
  exact ⟨trivial, rfl⟩

/-! ## Actions -/

theorem Payment.form_canonical :
    Payment.form.CanonicalOn fun p => (Action.payment p).Storable := by
  refine (Form.publicKey_canonical.pair <|
    Form.text_canonical.pair Form.amount_canonical).iso ?_
  rintro ⟨sender, recipient, amount⟩ ⟨-, fits, -⟩
  exact ⟨fits, rfl⟩

theorem PollCreation.form_canonical :
    PollCreation.form.CanonicalOn fun c => (Action.createPoll c).Storable := by
  refine (Form.publicKey_canonical.pair <| Form.text_canonical.pair <| Form.text_canonical.pair <|
    Form.text_canonical.pair Form.text_canonical.list).iso ?_
  rintro ⟨creator, owner, name, description, options⟩ ⟨-, fits⟩
  exact ⟨fits, rfl⟩

theorem Ballot.form_canonical :
    Ballot.form.CanonicalOn fun b => (Action.voteOnPoll b).Storable := by
  refine (Form.publicKey_canonical.pair <| Form.text_canonical.pair <|
    Form.int32_canonical.pair Form.int32_canonical.option).iso ?_
  rintro ⟨voter, poll, option, previous⟩ ⟨-, fits, -⟩
  exact ⟨fits, rfl⟩

theorem AssetIssue.form_canonical :
    AssetIssue.form.CanonicalOn fun i => (Action.issueAsset i).Storable := by
  refine (Form.publicKey_canonical.pair <| Form.text_canonical.pair <| Form.text_canonical.pair <|
    Form.text_canonical.pair <| Form.int64_canonical.pair <| Form.bool_canonical.pair
      Form.uint64_canonical.option).iso ?_
  rintro ⟨issuer, owner, name, description, quantity, isDivisible, assetId⟩
    ⟨-, owned, named, described, -⟩
  exact ⟨⟨owned, named, described⟩, rfl⟩

theorem AssetTransfer.form_canonical :
    AssetTransfer.form.CanonicalOn fun t => (Action.transferAsset t).Storable := by
  refine (Form.publicKey_canonical.pair Leg.form_canonical).iso ?_
  rintro ⟨sender, leg⟩ ⟨-, fits⟩
  exact ⟨fits, rfl⟩

theorem MultiPayment.form_canonical :
    MultiPayment.form.CanonicalOn fun m => (Action.multiPayment m).Storable := by
  refine (Form.publicKey_canonical.pair Leg.form_canonical.list).iso ?_
  rintro ⟨sender, legs⟩ ⟨-, fits⟩
  exact ⟨fits, rfl⟩

theorem AtDeployment.form_canonical :
    AtDeployment.form.CanonicalOn fun d => (Action.deployAt d).Storable := by
  refine (Form.publicKey_canonical.pair <| Form.text_canonical.pair <| Form.text_canonical.pair <|
    Form.text_canonical.pair <| Form.text_canonical.pair <| Form.bytes_canonical.pair <|
    Form.amount_canonical.pair Form.text_canonical.option).iso ?_
  rintro ⟨creator, name, description, atType, tags, creationBytes, amount, atAddress⟩
    ⟨-, named, described, typed, tagged, created, -, placed⟩
  exact ⟨⟨named, described, typed, tagged, created, placed⟩, rfl⟩

theorem AtSettlement.form_canonical :
    AtSettlement.form.CanonicalOn fun s => (Action.settleAt s).Storable := by
  refine (Form.text_canonical.pair <| Form.text_canonical.pair <|
    AtPayment.form_canonical.option.pair Form.bytes_canonical).iso ?_
  rintro ⟨atAddress, recipient, payment, message⟩ ⟨placed, received, -, said⟩
  exact ⟨⟨placed, received, said⟩, rfl⟩

/-! ## Records -/

namespace Record

/-- Behind its number, an action that is read is what is written of it and of the envelope. -/
theorem of_readStandard {α : Type} {fields : Form α} {domain : α → Prop}
    (law : fields.CanonicalOn domain) {wrap : α → Action} {bytes : Bytes} {r : Record}
    {rest : Bytes} (read : readStandard fields wrap bytes = .ok (r, rest)) (number : Nat) :
    ∃ envelope value, r = .standard envelope (wrap value) ∧ domain value ∧
      variant.write number ++ bytes = writeStandard number fields envelope value ++ rest := by
  obtain ⟨⟨⟨envelope, value⟩, after⟩, readFields, last⟩ := Except.bind_eq_ok_iff.mp read
  cases Except.pure_eq_ok_iff.mp last
  obtain ⟨⟨-, inside⟩, rfl⟩ := (Envelope.form_canonical.pair law) readFields
  refine ⟨envelope, value, rfl, inside, ?_⟩
  rw [writeStandard, List.append_assoc]

/-- **The stored form is canonical.** A record that is read is storable, and is read from what it
is written as. -/
theorem form_canonical : Record.form.CanonicalOn Record.Storable := by
  intro bytes r rest readAll
  obtain ⟨⟨number, after⟩, readNumber, read⟩ := Except.bind_eq_ok_iff.mp readAll
  obtain ⟨-, rfl⟩ := Form.word_canonical 4 readNumber
  dsimp only at read
  split at read
  · obtain ⟨⟨g, after'⟩, readFields, last⟩ := Except.bind_eq_ok_iff.mp read
    cases Except.pure_eq_ok_iff.mp last
    obtain ⟨fits, rfl⟩ := Genesis.form_canonical readFields
    exact ⟨fits, (List.append_assoc ..).symm⟩
  · obtain ⟨_, _, rfl, fits, wrote⟩ := of_readStandard Payment.form_canonical read 1
    exact ⟨fits, wrote⟩
  · obtain ⟨_, _, rfl, fits, wrote⟩ := of_readStandard PollCreation.form_canonical read 2
    exact ⟨fits, wrote⟩
  · obtain ⟨_, _, rfl, fits, wrote⟩ := of_readStandard Ballot.form_canonical read 3
    exact ⟨fits, wrote⟩
  · obtain ⟨_, _, rfl, fits, wrote⟩ := of_readStandard AssetIssue.form_canonical read 4
    exact ⟨fits, wrote⟩
  · obtain ⟨_, _, rfl, fits, wrote⟩ := of_readStandard AssetTransfer.form_canonical read 5
    exact ⟨fits, wrote⟩
  · obtain ⟨_, _, rfl, fits, wrote⟩ := of_readStandard MultiPayment.form_canonical read 6
    exact ⟨fits, wrote⟩
  · obtain ⟨_, _, rfl, fits, wrote⟩ := of_readStandard AtDeployment.form_canonical read 7
    exact ⟨fits, wrote⟩
  · obtain ⟨_, _, rfl, fits, wrote⟩ := of_readStandard AtSettlement.form_canonical read 8
    exact ⟨fits, wrote⟩
  · cases read

/-- **Stored records round-trip.** A record is read back, its derived fields included, from what it
is written as, whatever follows; what a record is read from begins with what it is written as; and
a record that is saved is found under its signature as it was saved, then and once the session is
committed. -/
theorem stored_faithfully :
    (∀ r rest, r.Storable → form.read (form.write r ++ rest) = .ok (r, rest)) ∧
      (∀ bytes r rest, form.read bytes = .ok (r, rest) →
        r.Storable ∧ bytes = form.write r ++ rest) ∧
      ∀ (s : Session) (r : Record) (signature : Signature), r.Storable →
        r.signature? = some signature →
          ∃ t, s.saveTransaction r = .ok t ∧ t.transaction? signature = .ok (some r) ∧
            t.commit.session.transaction? signature = .ok (some r) := by
  refine ⟨form_readsBack, fun bytes r rest read => form_canonical read, ?_⟩
  intro s r signature storable signed
  have saved : s.saveTransaction r = .ok (s.write (.transaction signature) r) :=
    Except.map_eq_ok_iff.mpr ⟨signature, Session.storedUnder_eq_ok_iff.mpr signed, rfl⟩
  have found : (s.write (.transaction signature) r).transaction? signature = .ok (some r) :=
    Session.read_write_self (c := .transaction signature) form_readsBack s storable
  refine ⟨_, saved, found, ?_⟩
  exact (Session.read_congr (Session.get?_commit _ _)).trans found

/-- A deployment that has received its address. -/
def placedDeployment : Record :=
  .standard ⟨1411308000000, .fill 5, ⟨100000000⟩, some (.fill 170)⟩
    (.deployAt ⟨.fill 6, "counter", "counts to ten", "demo", "", [1, 2], ⟨5⟩, some "AT1"⟩)

/-- It is read back in front of other bytes, which are no part of it, and found in a ledger that it
is stored in. -/
theorem stored_faithfully_placedDeployment :
    placedDeployment.Storable ∧ placedDeployment.signature? = some (.fill 170) ∧
      form.read (form.write placedDeployment ++ [1, 2]) = .ok (placedDeployment, [1, 2]) ∧
      ∃ t, OrderedMap.empty.session.saveTransaction placedDeployment = .ok t ∧
        t.transaction? (.fill 170) = .ok (some placedDeployment) := by
  obtain ⟨readsBack, canonical, found⟩ := stored_faithfully
  have storable : placedDeployment.Storable := by decide
  have read := readsBack placedDeployment [1, 2] storable
  have written := canonical _ placedDeployment [1, 2] read
  obtain ⟨t, saved, read', -⟩ := found OrderedMap.empty.session placedDeployment _ written.1 rfl
  exact ⟨storable, rfl, read, t, saved, read'⟩

end Record

end ChainLedger

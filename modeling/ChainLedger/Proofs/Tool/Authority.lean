import ChainLedger.Proofs.Tool.Reach
import ChainLedger.Proofs.Transaction.Authority
import ChainLedger.Proofs.Transaction.Replay

/-!
# Whose signature a line needs

A line deprives an account of assets, or of the reference it has, only with a signature
under a key of that account. The exception are settlements: they carry no key, and the
account that a settlement names as its AT is not looked at, so that it may be the account
of anybody.
-/

namespace ChainLedger

open Change

variable {params : ChainParams} {s t : Session} {envelope : Envelope} {action : Action}
  {account recipient : Address} {reference : Signature} {held : Amount}

/-! ## What needs no key -/

/-- What no key signs is a settlement, of the account that it names as its AT. -/
theorem Action.settles_of_no_key (keyless : action.creatorKey? = none) :
    ∃ settlement, action = .settleAt settlement ∧ settlement.atAddress = action.creator := by
  cases action with
  | settleAt settlement => exact ⟨settlement, rfl, rfl⟩
  | _ => cases keyless

namespace Tool

variable {records : List Record} {line : String}

/-- Next to a reached ledger nothing wraps around, if its coins fit an amount and the numbers of
assets do not run out. -/
theorem Reaches.addsExactly (reached : Reaches records s)
    (coins : mintedBy records ≤ Amount.largest) (assets : issuedBy records + 1 < 2 ^ 64)
    (accepted : (Submission.mk params (.standard envelope action)).IsAccepted s) :
    (Submission.mk params (.standard envelope action)).AddsExactly s ∧
      s.nextAssetId ≠ .ok nativeAsset := by
  have solvent := reached.solvent coins (by omega)
  have one : (Record.standard envelope action).issues ≤ 1 := by
    cases action <;> simp [Record.issues]
  have faultless := (Submission.solvent_after (x := ⟨params, .standard envelope action⟩) solvent
    (fun _ => (add_zero _).trans_le coins)
    fun _ => (Nat.add_le_add_left one _).trans_lt assets).1
  obtain ⟨id, next, unused, -⟩ := solvent.numbered.exists_nextAssetId assets
  exact ⟨fun _ _ => faultless.exact accepted,
    fun wrapped => unused (Except.ok.inj (next.symm.trans wrapped))⟩

/-- **A line deprives an ordinary account only with its signature**, or it is a settlement that
names the account as its AT, if processing it wraps no balance around and the numbers of assets did
not run out. -/
theorem signed_of_deprives (reached : Reaches records s)
    (applied : Applies params line s (.standard envelope action) t)
    (exact : (Submission.mk params (.standard envelope action)).AddsExactly s)
    (left : s.nextAssetId ≠ .ok nativeAsset) (ordinary : Address.isAt account = false)
    (deprived : s.Deprives account t) :
    (∃ settlement, action = .settleAt settlement ∧ settlement.atAddress = account) ∨
      ∃ key signature message, action.creatorKey? = some key ∧
        Address.ofPublicKey key.bytes = account ∧ envelope.signature = some signature ∧
        (Record.standard envelope action).signingBytes params = .ok message ∧
        Ed25519.verify key message signature = true := by
  rw [← applied.left] at deprived
  rcases Submission.creator_of_deprives rfl reached.holdsIssued left exact applied.accepted
    applied.done deprived with created | deployed
  · cases keyed : action.creatorKey? with
    | none =>
      obtain ⟨settlement, settles, named⟩ := Action.settles_of_no_key keyed
      exact .inl ⟨settlement, settles, named.trans created⟩
    | some key =>
      obtain ⟨signature, signed⟩ := (Submission.isAccepted_iff.mp applied.accepted).2
      have signed' : envelope.signature = some signature := signed
      have verified := applied.verified
      simp only [Record.isSignatureValid, signed', keyed] at verified
      obtain ⟨message, signing, good⟩ := Except.map_eq_ok_iff.mp verified
      exact .inr ⟨key, signature, message, rfl, (Action.creator_of_key keyed).symm.trans created,
        signed', Except.mapError_eq_ok_iff.mp signing, good⟩
  · rw [Record.isAt_of_deployed deployed] at ordinary
    cases ordinary

end Tool

/-! ## Settlements that nobody signed -/

/-- A settlement without a signature that moves coins. -/
def unsignedSettlement (reference : Signature) (account recipient : Address) (amount : Amount) :
    Record :=
  .standard ⟨0, reference, Amount.zero, none⟩
    (.settleAt ⟨account, recipient, some ⟨nativeAsset, amount⟩, []⟩)

/-- It has bytes, which its signature is derived from. -/
theorem exists_encode_unsignedSettlement (params : ChainParams) (reference : Signature)
    (amount : Amount) (valid : Address.isValid account = true)
    (valid' : Address.isValid recipient = true) :
    ∃ bytes, (unsignedSettlement reference account recipient amount).encode params = .ok bytes ∧
      (unsignedSettlement reference account recipient amount).signingBytes params = .ok bytes := by
  have payment : (Codec.optional "AT payment flag" AtSettlement.paymentCodec).Writes
      (some ⟨nativeAsset, amount⟩) := by
    obtain ⟨bytes, wrote⟩ : AtSettlement.paymentCodec.Writes ⟨nativeAsset, amount⟩ :=
      .iso (.pair (.iso (Codec.writes_word 8 _)) (Codec.writes_amount _))
    exact ⟨_, Codec.append_eq_ok_iff.mpr ⟨_, bytes, rfl, wrote, rfl⟩⟩
  have message : (Codec.sizedByRest "AT message").Writes [] :=
    Codec.writes_sized (Nat.zero_le _) le_rfl
  obtain ⟨fields, wrote⟩ : AtSettlement.codec.Writes
      ⟨account, recipient, some ⟨nativeAsset, amount⟩, []⟩ :=
    .iso (.pair (Codec.writes_address valid) (.pair (Codec.writes_address valid')
      (.pair payment message)))
  obtain ⟨bytes, unsigned⟩ : ∃ bytes, Record.encodeUnsigned params
      ⟨0, reference, Amount.zero, none⟩
      (.settleAt ⟨account, recipient, some ⟨nativeAsset, amount⟩, []⟩) noAssetReference =
        .ok bytes :=
    Record.exists_encodeUnsigned wrote
  have whole := Record.encode_standard_eq_ok.mpr ⟨bytes, unsigned, rfl⟩
  rw [Codec.encodeLastSignature, List.append_nil] at whole
  exact ⟨bytes, whole, Except.bind_eq_ok_iff.mpr ⟨bytes, unsigned, rfl⟩⟩

/-- It is found good where the account has the reference and the coins, signed or not. -/
theorem verdict_settlement {signature : Option Signature}
    (known : s.lastReference account = .ok (some reference))
    (funded : s.balance account nativeAsset = .ok held) (nonneg : 0 ≤ held.toInt)
    (valid : Address.isValid recipient = true) :
    ((unsignedSettlement reference account recipient held).withSignature signature).verdict params
      s = .ok .ok :=
  AtSettlement.verdict_eq_ok known (Nat.zero_le _) rfl nonneg valid funded le_rfl

namespace Tool

/-- **Anybody can take the coins of an account that has a reference.** A settlement that names the
account as its AT, and that nobody signed, is applied on a line. -/
theorem applies_unsignedSettlement (params : ChainParams) {minted : Int} {issued : Nat}
    (solvent : s.Solvent minted issued) (bounded : minted ≤ Amount.largest)
    (left : issued < 2 ^ 64) (valid : Address.isValid account = true)
    (valid' : Address.isValid recipient = true) (apart : account ≠ recipient)
    (known : s.lastReference account = .ok (some reference))
    (funded : s.balance account nativeAsset = .ok held) :
    ∃ line signature t, readRecord params line =
        .ok (unsignedSettlement reference account recipient held) ∧
      Applies params line s
        ((unsignedSettlement reference account recipient held).withSignature (some signature)) t ∧
      t.balance account nativeAsset = .ok (held + -held) := by
  obtain ⟨bytes, wrote, signing⟩ :=
    exists_encode_unsignedSettlement params reference held valid valid'
  have nonneg : 0 ≤ held.toInt := by
    rw [← Session.units_of_balance funded]
    exact solvent.backed.nonneg account nativeAsset
  let signature := Signature.derive bytes
  let r := (unsignedSettlement reference account recipient held).withSignature (some signature)
  have read : readRecord params (Hexadecimal.encode bytes) =
      .ok (unsignedSettlement reference account recipient held) :=
    readRecord_standard wrote trivial
  have message : (unsignedSettlement reference account recipient held).messageBytes params =
      .ok bytes := Except.mapError_eq_ok_iff.mpr signing
  have completed : completed params (unsignedSettlement reference account recipient held) =
      .ok r := by
    have keyless : ((unsignedSettlement reference account recipient held).kind = .at &&
        !(unsignedSettlement reference account recipient held).isSigned) = true := rfl
    rw [Tool.completed, if_pos keyless]
    exact Except.mapError_eq_ok_iff.mpr (Except.map_eq_ok_iff.mpr ⟨bytes, message, rfl⟩)
  have verified : r.isSignatureValid params = .ok true :=
    Except.map_eq_ok_iff.mpr ⟨bytes, message, beq_self_eq_true _⟩
  have accepted : (Submission.mk params r).IsAccepted s :=
    Submission.isAccepted_iff.mpr ⟨verdict_settlement known funded nonneg valid', signature, rfl⟩
  have planned : r.processing params s signature = .ok (.same r (.setReference account signature ::
      moveAll account signature [⟨recipient, nativeAsset, held⟩] ++ [.saveTransaction r])) := rfl
  have done := (Submission.solvent_after solvent (x := ⟨params, r⟩)
    (fun _ => (add_zero minted).trans_le bounded) fun _ => left).1.processed accepted
  refine ⟨_, signature, _, read, ⟨⟨_, read, completed⟩, verified, accepted, done, rfl⟩, ?_⟩
  rw [← accepted.after_eq, accepted.balance_after rfl planned done, funded]
  simp [Plan.same, moveAll, Leg.move, onBalanceAll, onBalance, Except.map, apart]

/-! ## Lines of a ledger to start from -/

/-- An allocation to a valid address is applied on a line. -/
theorem applies_allocation (params : ChainParams) {g : Genesis} {minted : Int} {issued : Nat}
    (solvent : s.Solvent minted issued) (bounded : minted + g.amount.toInt ≤ Amount.largest)
    (left : issued < 2 ^ 64) (valid : Address.isValid g.recipient = true)
    (nonneg : 0 ≤ g.amount.toInt) :
    ∃ line, Applies params line s (.genesis g) ((Submission.mk params (.genesis g)).after s) := by
  obtain ⟨signature, signed, accepted⟩ := Genesis.exists_accepted params s valid nonneg
  have done := (Submission.solvent_after solvent (x := ⟨params, .genesis g⟩)
    (fun _ => bounded) fun _ => left).1.processed accepted
  obtain ⟨bytes, wrote⟩ : ∃ bytes, Record.encode params (.genesis g) = .ok bytes := by
    rw [Record.signature?, Record.genesisSignature?] at signed
    split at signed
    next bytes wrote => exact ⟨bytes, wrote⟩
    next => cases signed
  have denotes : Record.decode params bytes = .ok (.genesis g) := by
    obtain ⟨tag, fields, wroteTag, wroteFields, rfl⟩ := Record.encode_genesis_eq_ok.mp wrote
    have found := Genesis.codec_lawful.readsBack [] trivial wroteFields
    rw [List.append_nil] at found
    exact Record.decode_eq_ok.mpr ⟨.genesis, fields,
      Codec.int32_lawful.readsBack _ trivial wroteTag, rfl,
      Record.decodeGenesis_eq_ok.mpr ⟨g, found, rfl⟩⟩
  exact ⟨_, ⟨_, readRecord_encode denotes, rfl⟩, rfl, accepted, done, accepted.after_eq.symm⟩

/-- The ledger with one allocation is reached by a line. -/
theorem reaches_opened : Reaches [Replayed.allocation] Replayed.opened := by
  obtain ⟨line, applied⟩ := applies_allocation .mainChain (g := ⟨0, Replayed.account, ⟨2000⟩⟩)
    Session.solvent_empty (by decide) (by decide) (Address.isValid_ofPublicKey Replayed.key.bytes)
    (by decide)
  exact Reaches.empty.line applied

/-- A payment that the account signed is applied on a line to that ledger. -/
theorem applies_payment : ∃ line t,
    Applies .mainChain line Replayed.opened (Replayed.payment Replayed.firstReference) t ∧
      t.balance Replayed.account nativeAsset = .ok ⟨1600⟩ := by
  obtain ⟨known, funded, solvent⟩ := Replayed.opened_facts
  have accepted := Replayed.isAccepted_payment known funded (by decide)
  have done := (Replayed.solvent_payment solvent accepted).1
  obtain ⟨unsigned, wrote, -⟩ :=
    Except.bind_eq_ok_iff.mp (Replayed.signingBytes_payment Replayed.firstReference)
  have whole : (Replayed.payment Replayed.firstReference).encode .mainChain =
      .ok (unsigned ++ Codec.encodeLastSignature (some Replayed.signature)) :=
    Record.encode_standard_eq_ok.mpr ⟨unsigned, wrote, rfl⟩
  have read := readRecord_standard whole trivial
  exact ⟨_, _, ⟨⟨_, read, rfl⟩, Replayed.isSignatureValid_payment _, accepted, done, rfl⟩,
    accepted.after_eq ▸ (Replayed.after_payment known funded (by decide) done).2⟩

theorem signed_of_deprives_payment :
    Reaches [Replayed.allocation] Replayed.opened ∧
      (Submission.mk .mainChain (Replayed.payment Replayed.firstReference)).AddsExactly
        Replayed.opened ∧
      Replayed.opened.nextAssetId ≠ .ok nativeAsset ∧ Address.isAt Replayed.account = false ∧
      ∃ line t,
        Applies .mainChain line Replayed.opened (Replayed.payment Replayed.firstReference) t ∧
        Replayed.opened.Deprives Replayed.account t ∧
        ∃ key message, (Replayed.payment Replayed.firstReference).creatorKey? = some key ∧
          Address.ofPublicKey key.bytes = Replayed.account ∧
          (Replayed.payment Replayed.firstReference).signingBytes .mainChain = .ok message ∧
          Ed25519.verify key message Replayed.signature = true := by
  obtain ⟨-, funded, -⟩ := Replayed.opened_facts
  obtain ⟨line, t, applied, paid⟩ := applies_payment
  obtain ⟨exact, left⟩ :=
    reaches_opened.addsExactly (by decide) (by decide) applied.accepted
  have ordinary : Address.isAt Replayed.account = false :=
    Address.isAt_ofPublicKey Replayed.key.bytes
  have deprived : Replayed.opened.Deprives Replayed.account t :=
    .inl ⟨nativeAsset, _, _, funded, paid, by decide⟩
  refine ⟨reaches_opened, exact, left, ordinary, line, t, applied, deprived, ?_⟩
  rcases signed_of_deprives reaches_opened applied exact left ordinary deprived with
    ⟨settlement, settles, -⟩ | ⟨key, signature, message, keyed, holder, signed, signing, verified⟩
  · cases settles
  · cases signed
    exact ⟨key, message, keyed, holder, signing, verified⟩

/-- **An ordinary account is deprived without its signature**: an allocation to an account is all
that it takes for a settlement without a key to move its coins to another account. -/
theorem deprived_unsigned :
    Address.isValid Replayed.account = true ∧ Address.isAt Replayed.account = false ∧
      Reaches [Replayed.allocation] Replayed.opened ∧
      ∃ line signature t,
        let r := (unsignedSettlement Replayed.firstReference Replayed.account
          Address.Sample.account ⟨2000⟩).withSignature (some signature)
        Applies .mainChain line Replayed.opened r t ∧
          Replayed.opened.Deprives Replayed.account t ∧ r.creatorKey? = none := by
  obtain ⟨known, funded, solvent⟩ := Replayed.opened_facts
  have valid := Address.isValid_ofPublicKey Replayed.key.bytes
  obtain ⟨line, signature, t, -, applied, left⟩ := applies_unsignedSettlement .mainChain solvent
    (by decide) (by decide) valid Address.Sample.isValid_account Replayed.account_ne known funded
  exact ⟨valid, Address.isAt_ofPublicKey Replayed.key.bytes, reaches_opened, line, signature, t,
    applied, .inl ⟨nativeAsset, _, _, funded, left, by decide⟩, rfl⟩

end Tool

end ChainLedger

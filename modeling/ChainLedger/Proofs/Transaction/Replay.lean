import ChainLedger.Proofs.Run.Solvency
import ChainLedger.Proofs.Transaction.References
import ChainLedger.Proofs.Wire.Signing
import ChainLedger.Transaction.Signing

/-!
# Records that come again

Once a record is processed its signature is the reference of its creator, so that the
same record is refused if it comes again, as long as it does not declare its own
signature as the reference. Nothing forbids it to. Its signature covers the reference
in all layouts but one, and then a signer would need a signature of bytes that contain
it. The exception are multi-payments of a time when only their end was signed.
-/

namespace ChainLedger

open Change Rule

variable {params : ChainParams} {s : Session} {envelope : Envelope} {action : Action}

/-! ## The rule on the reference -/

namespace Rule

/-- No rule is one on the reference. -/
def Unreferring (rules : List Rule) : Prop := ∀ rule ∈ rules, rule.verdict ≠ .invalidReference

theorem unreferring_assetAmount (id : AssetId) (amount : Amount) :
    Unreferring (assetAmount s id amount) := by
  unfold assetAmount
  split <;> simp [Unreferring]

/-- Such rules do not find the reference wrong. -/
theorem judge_ne_invalidReference {rules : List Rule} (unreferring : Unreferring rules) :
    judge rules ≠ .ok .invalidReference := by
  induction rules with
  | nil => simp [judge]
  | cons rule rest ih =>
    rcases List.forall_mem_cons.mp unreferring with ⟨here, later⟩
    rw [judge]
    split
    · simp
    · exact ih later
    · simpa using here

end Rule

theorem unreferring_legRules (fee : Amount) (before legs : List Leg) :
    Unreferring (legRules s fee before legs) := by
  induction legs generalizing before with
  | nil => simp [Unreferring, legRules]
  | cons leg rest ih =>
    have amounts := unreferring_assetAmount (s := s) leg.assetId leg.amount
    simp only [Unreferring, legRules, Leg.rules, List.forall_mem_append] at ih amounts ⊢
    exact ⟨⟨⟨by simp [plain, validAddress], amounts⟩, by simp [plain]⟩, ih _⟩

theorem unreferring_paymentRules (sender : Address) (legs : List Leg) (fee : Amount) :
    Unreferring (paymentRules s sender legs fee) := by
  have each := unreferring_legRules (s := s) fee [] legs
  refine List.forall_mem_cons.mpr ⟨by simp [positiveFee, plain], ?_⟩
  exact List.forall_mem_append.mpr ⟨each, by simp [balance]⟩

theorem PollCreation.unreferring_optionRules (before options : List String) :
    Unreferring (optionRules before options) := by
  induction options generalizing before with
  | nil => simp [Unreferring, optionRules]
  | cons option rest ih =>
    exact List.forall_mem_append.mpr ⟨by simp [plain, Rule.length], ih _⟩

theorem AtSettlement.unreferring_paymentRules (settlement : AtSettlement) (payment : AtPayment) :
    Unreferring (settlement.paymentRules s payment) := by
  have amounts := unreferring_assetAmount (s := s) payment.assetId payment.amount
  simp only [Unreferring, paymentRules, List.forall_mem_append] at amounts ⊢
  exact ⟨⟨by simp [plain, validAddress], amounts⟩, by simp [balance]⟩

/-- **Only one rule is on the reference**: none of those for the action is. -/
theorem Action.unreferring_rules (params : ChainParams) (s : Session) (envelope : Envelope)
    (action : Action) : Unreferring (action.rules params s envelope) := by
  cases action with
  | payment p => exact unreferring_paymentRules _ _ _
  | createPoll c =>
    refine List.forall_mem_append.mpr ⟨List.forall_mem_append.mpr ⟨?_, ?_⟩, ?_⟩
    · simp [plain, released, validAddress, Rule.length, lowerCase]
    · exact PollCreation.unreferring_optionRules _ _
    · simp [positiveFee, plain, balance]
  | voteOnPoll b =>
    simp [Unreferring, rules, Ballot.rules, plain, released, Rule.length, lowerCase, positiveFee,
      balance]
  | issueAsset i =>
    simp [Unreferring, rules, AssetIssue.rules, plain, released, validAddress, Rule.length,
      positiveFee, balance]
  | transferAsset t =>
    exact List.forall_mem_cons.mpr ⟨by simp [released, plain], unreferring_paymentRules _ _ _⟩
  | multiPayment m =>
    refine List.forall_mem_append.mpr ⟨List.forall_mem_append.mpr ⟨?_, ?_⟩, ?_⟩
    · simp [released, plain]
    · split <;> simp [balance]
    · exact unreferring_paymentRules _ _ _
  | deployAt d =>
    simp [Unreferring, rules, AtDeployment.rules, plain, released, Rule.length, positiveFee,
      balance]
  | settleAt settlement =>
    refine List.forall_mem_cons.mpr ⟨by simp [plain], fun rule member => ?_⟩
    rcases List.mem_flatMap.mp member with ⟨payment, -, inside⟩
    exact settlement.unreferring_paymentRules payment rule inside

/-- **The reference is found wrong exactly if it is**, where the one that the account has is
known. -/
theorem Record.verdict_eq_invalidReference_iff {held : Signature}
    (known : s.lastReference action.creator = .ok (some held)) :
    (Record.standard envelope action).verdict params s = .ok .invalidReference ↔
      held ≠ envelope.reference := by
  have first : (Rule.reference s action.creator envelope.reference).holds =
      .ok (held == envelope.reference) := by
    rw [Rule.reference, known]
    simp [Except.map]
  rw [verdict, rules, judge, first]
  by_cases same : held = envelope.reference
  · subst same
    simpa using judge_ne_invalidReference (action.unreferring_rules params s envelope)
  · have differs : (held == envelope.reference) = false := beq_eq_false_iff_ne.mpr same
    simp [differs, same, Rule.reference]

/-! ## Coming again -/

/-- A processed record leaves its signature as the reference of its creator. -/
theorem Submission.lastReference_creator {x : Submission} {signature : Signature}
    (standard : x.record = .standard envelope action) (accepted : x.IsAccepted s)
    (signed : x.record.signature? = some signature) (done : (x.processed s).outcome = .ok ()) :
    (x.processed s).session.lastReference action.creator = .ok (some signature) := by
  have created : x.record.creator? = some action.creator := by
    rw [standard]
    rfl
  rw [lastReference_processed standard accepted signed done, Record.onReference,
    if_pos (.inl created)]

/-- **A processed record is refused if it comes again, unless it declares its own signature.** A
record with a valid signature that does declare it is a multi-payment that is signed by its end
alone, or its signature is one of bytes that contain it. -/
theorem Submission.refused_again {x : Submission} {key : PublicKey} {signature : Signature}
    (standard : x.record = .standard envelope action) (keyed : action.creatorKey? = some key)
    (signed : envelope.signature = some signature)
    (valid : x.record.isSignatureValid x.params = .ok true) (accepted : x.IsAccepted s)
    (done : (x.processed s).outcome = .ok ()) :
    (((Transaction.received x.record).validate x.params (x.processed s).session).1 =
        .ok .invalidReference ↔ signature ≠ envelope.reference) ∧
      (signature = envelope.reference →
        x.record.signsEndOnly x.params = true ∨
          ∃ message, x.record.signingBytes x.params = .ok message ∧
            (message.drop 12).take 64 = signature.bytes ∧
            Ed25519.verify key message signature = true) := by
  have signed' : x.record.signature? = some signature := by
    rw [standard]
    exact signed
  have moved := lastReference_creator standard accepted signed' done
  constructor
  · rw [Transaction.validate_received_fst_eq_ok_iff, standard]
    exact Record.verdict_eq_invalidReference_iff moved
  · intro itself
    rw [standard] at valid ⊢
    cases endOnly : (Record.standard envelope action).signsEndOnly x.params with
    | true => exact .inl rfl
    | false =>
      simp only [Record.isSignatureValid, signed, keyed] at valid
      rcases Except.map_eq_ok_iff.mp valid with ⟨message, signing, verified⟩
      have signing' := Except.mapError_eq_ok_iff.mp signing
      refine .inr ⟨message, signing', ?_, verified⟩
      rw [Record.reference_of_signingBytes endOnly signing', itself]

/-! ## A record that is not refused -/

namespace Replayed

/-- A public key. -/
def key : PublicKey :=
  ⟨[138, 136, 227, 221, 116, 9, 241, 149, 253, 82, 219, 45, 60, 186, 93, 114, 202, 103, 9, 191, 29,
    148, 18, 27, 243, 116, 136, 1, 180, 15, 111, 92], rfl⟩

/-- The account that the key controls. -/
def account : Address := Address.ofPublicKey key.bytes

/-- The end of a multi-payment: its last payment and its fee. -/
def lastBytes : Bytes :=
  Address.Sample.accountBytes ++ List.replicate 8 0 ++ (List.replicate 10 0 ++ [1, 44]) ++
    [0, 0, 0, 0, 0, 0, 0, 100]

/-- The signature of that end under the key. -/
def signature : Signature :=
  ⟨[119, 32, 138, 176, 100, 92, 217, 199, 28, 33, 220, 165, 84, 51, 0, 64, 147, 156, 238, 156, 253,
    120, 17, 245, 101, 73, 7, 34, 53, 174, 34, 180, 245, 24, 77, 119, 21, 64, 89, 120, 210, 45,
    202, 23, 144, 52, 165, 13, 64, 150, 19, 87, 187, 110, 156, 44, 117, 250, 61, 148, 145, 251,
    117, 8], rfl⟩

/-- A multi-payment with that end, after any other record. -/
def payment (reference : Signature) : Record :=
  .standard ⟨1500000000000, reference, ⟨100⟩, some signature⟩
    (.multiPayment ⟨key, [⟨Address.Sample.account, nativeAsset, ⟨300⟩⟩]⟩)

theorem verify_signature : Ed25519.verify key lastBytes signature = true := by decide +kernel

/-- The bytes that stand before that end. -/
def firstBytes (reference : Signature) : Bytes :=
  [0, 0, 0, 15] ++ ([0, 0, 1, 93, 62, 247, 152, 0] ++ reference.bytes) ++
    (key.bytes ++ [0, 0, 0, 1])

theorem signingBytes_payment (reference : Signature) :
    (payment reference).signingBytes .mainChain = .ok lastBytes := by
  have amounts : (Codec.uint64.pair Codec.assetAmount).encode (nativeAsset, ⟨300⟩) =
      .ok (List.replicate 8 0 ++ (List.replicate 10 0 ++ [1, 44])) := rfl
  have leg : Codec.leg.encode ⟨Address.Sample.account, nativeAsset, ⟨300⟩⟩ = .ok _ :=
    Codec.encode_iso (Codec.encode_pair Record.encode_sampleAccount amounts)
  have legs : (Codec.counted "payments count" Limits.payments (fun _ => .ok ()) Codec.leg).encode
      [⟨Address.Sample.account, nativeAsset, ⟨300⟩⟩] = .ok _ :=
    Codec.counted_encode_eq_ok.mpr ⟨[0, 0, 0, 1], _, rfl,
      Codec.encodeList_cons_eq_ok.mpr ⟨_, _, leg, rfl, rfl⟩, rfl⟩
  have fields : MultiPayment.codec.encode
      ⟨key, [⟨Address.Sample.account, nativeAsset, ⟨300⟩⟩]⟩ = .ok _ :=
    Codec.encode_iso (Codec.encode_pair (rfl : Codec.publicKey.encode key = .ok key.bytes) legs)
  have fee : Codec.amount.encode ⟨100⟩ = .ok [0, 0, 0, 0, 0, 0, 0, 100] := rfl
  have unsigned : Record.encodeUnsigned .mainChain ⟨1500000000000, reference, ⟨100⟩, some signature⟩
      (.multiPayment ⟨key, [⟨Address.Sample.account, nativeAsset, ⟨300⟩⟩]⟩) noAssetReference =
        .ok (firstBytes reference ++ lastBytes) := by
    refine Record.encodeUnsigned_eq_ok.mpr ⟨[0, 0, 0, 15],
      [0, 0, 1, 93, 62, 247, 152, 0] ++ reference.bytes, _, [0, 0, 0, 0, 0, 0, 0, 100],
      rfl, ?_, fields, fee, by simp [firstBytes, lastBytes]⟩
    have time : Codec.int64.encode 1500000000000 = .ok [0, 0, 1, 93, 62, 247, 152, 0] := rfl
    exact Codec.encode_pair time rfl
  have cut : (firstBytes reference ++ lastBytes).length - Record.lastPaymentSize =
      (firstBytes reference).length := by
    have size : lastBytes.length = Record.lastPaymentSize := rfl
    rw [List.length_append, size, Nat.add_sub_cancel]
  have endOnly : ChainParams.mainChain.isLegacyMultiPayment 1500000000000 = true := by decide
  simp only [payment, Record.signingBytes, unsigned, Except.bind_eq_ok_iff]
  refine ⟨_, rfl, ?_⟩
  rw [endOnly, if_pos rfl, cut, List.drop_left]
  rfl

/-- The signature is valid, whatever the reference. -/
theorem isSignatureValid_payment (reference : Signature) :
    (payment reference).isSignatureValid .mainChain = .ok true := by
  have message : (payment reference).messageBytes .mainChain = .ok lastBytes :=
    Except.mapError_eq_ok_iff.mpr (signingBytes_payment reference)
  exact Except.map_eq_ok_iff.mpr ⟨lastBytes, message, verify_signature⟩

/-- The account is not the one that the payment is to. -/
theorem account_ne : account ≠ Address.Sample.account := by
  intro same
  have raw := Address.toRaw_ofPublicKey key.bytes
  rw [← account, same, Address.Sample.toRaw_account] at raw
  have bytes := congrArg (fun raw : RawAddress => (raw.bytes.drop 1).take 20) (Except.ok.inj raw)
  have hashes : Address.Sample.hash = Address.keyHash key.bytes :=
    bytes.trans (List.take_left' (by simp [Address.keyHash]))
  have differ : Address.keyHash key.bytes ≠ Address.Sample.hash := by decide +kernel
  exact differ hashes.symm

section Steps

variable {s : Session} {reference : Signature} {held : Amount}

/-- The payment is accepted wherever the account has what it takes and the reference. -/
theorem isAccepted_payment (known : s.lastReference account = .ok (some reference))
    (funded : s.balance account nativeAsset = .ok held) (enough : 400 ≤ held.toInt) :
    (Submission.mk .mainChain (payment reference)).IsAccepted s := by
  have released : ChainParams.mainChain.isAssetsReleased 1500000000000 = true := by decide
  have powfix : ChainParams.mainChain.isPowfixReleased 1500000000000 = true := by decide
  have fee : 0 < (⟨100⟩ : Amount).toInt := by decide
  have feeOnly : (balance s account nativeAsset 100).holds = .ok true :=
    Except.map_eq_ok_iff.mpr ⟨held, funded, decide_eq_true (le_trans (by decide) enough)⟩
  refine Submission.isAccepted_iff.mpr ⟨?_, signature, rfl⟩
  refine Record.verdict_eq_ok_iff.mpr (List.forall_mem_cons.mpr ⟨?_, ?_⟩)
  · exact Except.map_eq_ok_iff.mpr ⟨_, known, beq_self_eq_true _⟩
  refine List.forall_mem_append.mpr ⟨List.forall_mem_append.mpr ⟨?_, ?_⟩, ?_⟩
  · exact List.forall_mem_cons.mpr
      ⟨plain_holds_iff.mpr released, List.forall_mem_singleton.mpr (plain_holds_iff.mpr rfl)⟩
  · rw [powfix, if_pos rfl]
    exact List.forall_mem_singleton.mpr feeOnly
  · exact paymentRules_hold Address.Sample.isValid_account fee (by decide) funded enough

/-- It leaves the account its signature as reference, and what it does not take. -/
theorem after_payment (known : s.lastReference account = .ok (some reference))
    (funded : s.balance account nativeAsset = .ok held) (enough : 400 ≤ held.toInt)
    (done : ((Submission.mk .mainChain (payment reference)).processed s).outcome = .ok ()) :
    let t := (Submission.mk .mainChain (payment reference)).after s
    t.lastReference account = .ok (some signature) ∧
      t.balance account nativeAsset = .ok (held + -⟨100⟩ + -⟨300⟩) := by
  have accepted := isAccepted_payment known funded enough
  constructor
  · have standard : (Submission.mk .mainChain (payment reference)).record = .standard _ _ := rfl
    have moved := Submission.lastReference_creator standard accepted rfl done
    rw [accepted.after_eq]
    exact moved
  · have planned : (payment reference).processing .mainChain s signature =
        .ok (.same (payment reference)
          (chargeFee account ⟨100⟩ signature ++
            moveAll account signature [⟨Address.Sample.account, nativeAsset, ⟨300⟩⟩] ++
            [.saveTransaction (payment reference)])) := rfl
    rw [accepted.balance_after rfl planned done, funded]
    simp [Plan.same, chargeFee, moveAll, Leg.move, onBalanceAll, onBalance, Except.map, account_ne]

end Steps

/-! ### Its ledgers -/

/-- Coins for the account. -/
def allocation : Record := .genesis ⟨0, account, ⟨2000⟩⟩

/-- The signature of the allocation. -/
def firstReference : Signature := allocation.signature?.getD (.fill 0)

/-- The ledger that the allocation opens. -/
def opened : Session := (Submission.mk .mainChain allocation).after OrderedMap.empty.session

/-- The ledger after a first payment with that end. -/
def paid : Session := (Submission.mk .mainChain (payment firstReference)).after opened

/-- The first payment does not declare its own signature, which is no derived one. -/
theorem signature_ne_firstReference : signature ≠ firstReference := by
  have halves : signature.bytes.take 32 ≠ signature.bytes.drop 32 := by decide
  obtain ⟨known, signed⟩ : ∃ known, allocation.signature? = some known :=
    Genesis.exists_signature (Address.isValid_ofPublicKey key.bytes)
  intro same
  refine halves (Genesis.halves_of_signature (signed.trans (congrArg some ?_)))
  rw [same, firstReference, signed, Option.getD_some]

theorem opened_facts : opened.lastReference account = .ok (some firstReference) ∧
    opened.balance account nativeAsset = .ok ⟨2000⟩ ∧ opened.Solvent 2000 0 := by
  obtain ⟨known, signed, reference, funded, solvent⟩ :=
    Genesis.opens (g := ⟨0, account, ⟨2000⟩⟩) .mainChain (Address.isValid_ofPublicKey key.bytes)
      (by decide)
  have first : firstReference = known := congrArg (fun known => known.getD (.fill 0)) signed
  rw [first]
  exact ⟨reference, funded, solvent⟩

/-- Wherever the payment is accepted in a solvent ledger, it is processed and leaves one. -/
theorem solvent_payment {s : Session} {reference : Signature} (solvent : s.Solvent 2000 0)
    (accepted : (Submission.mk .mainChain (payment reference)).IsAccepted s) :
    ((Submission.mk .mainChain (payment reference)).processed s).outcome = .ok () ∧
      ((Submission.mk .mainChain (payment reference)).after s).Solvent 2000 0 := by
  obtain ⟨faultless, later⟩ := Submission.solvent_after solvent
    (x := ⟨.mainChain, payment reference⟩) (fun _ => (by decide : (2000 + 0 : Int) ≤ _))
    fun _ => (by decide : 0 + 0 < 2 ^ 64)
  rw [if_pos accepted] at later
  exact ⟨faultless.processed accepted, later⟩

theorem refused_again_payment :
    let x : Submission := ⟨.mainChain, payment firstReference⟩
    x.record.isSignatureValid x.params = .ok true ∧ x.IsAccepted opened ∧
      (x.processed opened).outcome = .ok () ∧
      ((Transaction.received x.record).validate x.params (x.processed opened).session).1 =
        .ok .invalidReference := by
  intro x
  obtain ⟨known, funded, solvent⟩ := opened_facts
  have valid := isSignatureValid_payment firstReference
  have accepted : x.IsAccepted opened := isAccepted_payment known funded (by decide)
  have done := (solvent_payment solvent accepted).1
  have again := Submission.refused_again rfl rfl rfl valid accepted done
  exact ⟨valid, accepted, done, again.1.mpr signature_ne_firstReference⟩

theorem paid_facts : paid.lastReference account = .ok (some signature) ∧
    paid.balance account nativeAsset = .ok ⟨1600⟩ ∧ paid.Solvent 2000 0 := by
  obtain ⟨known, funded, solvent⟩ := opened_facts
  have first := isAccepted_payment known funded (by decide)
  obtain ⟨done, solvent'⟩ := solvent_payment solvent first
  obtain ⟨known', funded'⟩ := after_payment known funded (by decide) done
  exact ⟨known', funded', solvent'⟩

/-- The payment that declares its own signature is accepted, processed and found good again. -/
theorem accepted_again_payment :
    let x : Submission := ⟨.mainChain, payment signature⟩
    x.record.creatorKey? = some key ∧ x.record.isSignatureValid x.params = .ok true ∧
      x.IsAccepted paid ∧ (x.processed paid).outcome = .ok () ∧
      ((Transaction.received x.record).validate x.params (x.processed paid).session).1 =
        .ok .ok := by
  intro x
  obtain ⟨known, funded, solvent⟩ := paid_facts
  have accepted : x.IsAccepted paid := isAccepted_payment known funded (by decide)
  have done := (solvent_payment solvent accepted).1
  obtain ⟨known', funded'⟩ := after_payment known funded (by decide) done
  have again : x.IsAccepted (x.after paid) := isAccepted_payment known' funded' (by decide)
  rw [accepted.after_eq] at again
  exact ⟨rfl, isSignatureValid_payment signature, accepted, done, again.1⟩

end Replayed

end ChainLedger

import ChainLedger.Proofs.Ledger.Total
import ChainLedger.Proofs.Run.Solvency
import ChainLedger.Proofs.Transaction.Issuance
import ChainLedger.Proofs.Transaction.Orphan

/-!
# Conservation of assets

Legs take from one balance what they give to another, a fee goes to nobody, and an
issue brings units of an asset that nobody had. So processing a record changes the
totals of all assets by what its kind says and by nothing else, whoever pays whom, in
how many legs, and whether or not a balance is read and written several times.
-/

namespace ChainLedger

open Change

variable {params : ChainParams} {s : Session} {envelope : Envelope} {action : Action}
  {signature : Signature} {creator sender : Address} {fee : Amount} {legs : List Leg}
  {asset : AssetId} {plan : Plan}

/-! ## What parts of plans add -/

/-- What a fee adds to the total of an asset. -/
def Amount.asFee (fee : Amount) (asset : AssetId) : Int :=
  if asset = nativeAsset then -fee.toInt else 0

@[simp] theorem Amount.asFee_nativeAsset (fee : Amount) : fee.asFee nativeAsset = -fee.toInt :=
  if_pos rfl

/-- A fee is taken and given to nobody. -/
theorem adds_chargeFee (creator : Address) (signature : Signature) (negates : fee.NegatesExactly) :
    Adds fee.asFee (chargeFee creator fee signature) := by
  have negated : (-fee).toInt = -fee.toInt := negates
  exact ⟨by simp [chargeFee, ReplacesNoBalance], by simp [chargeFee, added, negated, Amount.asFee]⟩

/-- A leg takes what it gives. -/
theorem adds_move (sender : Address) (signature : Signature) {leg : Leg}
    (negates : leg.amount.NegatesExactly) :
    Adds 0 (leg.move sender signature) := by
  have negated : (-leg.amount).toInt = -leg.amount.toInt := negates
  have taken : Adds 0 [.adjust sender leg.assetId (-leg.amount),
      .adjust leg.recipient leg.assetId leg.amount] := by
    refine ⟨by simp [ReplacesNoBalance], fun asset => ?_⟩
    by_cases moved : asset = leg.assetId <;> simp [added, moved, negated]
  have first : Adds 0
      (if leg.assetId = nativeAsset then [.introduce leg.recipient signature] else []) := by
    split
    next => exact ⟨by simp [ReplacesNoBalance], fun _ => rfl⟩
    next => exact ⟨by simp, fun _ => rfl⟩
  exact taken.append first

/-- **Legs take what they give**, however many they are. -/
theorem adds_moveAll (sender : Address) (signature : Signature)
    (negate : ∀ leg ∈ legs, leg.amount.NegatesExactly) :
    Adds 0 (moveAll sender signature legs) := by
  induction legs with
  | nil => exact ⟨by simp [moveAll], fun _ => rfl⟩
  | cons leg rest ih =>
    rw [List.forall_mem_cons] at negate
    exact (adds_move sender signature negate.1).append (ih negate.2)

/-- A payment takes a fee. -/
theorem IsPayable.adds (payable : IsPayable s sender legs fee) (signature : Signature) :
    Adds fee.asFee (chargeFee sender fee signature ++ moveAll sender signature legs) := by
  have negates := payable.negatesExactly
  have adds := (adds_chargeFee sender signature negates.1).append
    (adds_moveAll sender signature negates.2)
  exact ⟨adds.keep, fun asset => (adds.sum asset).trans (add_zero _)⟩

/-- A settlement takes no fee. -/
theorem AtSettlement.IsGood.adds {settlement : AtSettlement} (good : settlement.IsGood s)
    (signature : Signature) :
    Adds 0 (.setReference settlement.atAddress signature ::
      moveAll settlement.atAddress signature settlement.legs) := by
  refine .cons (by simp [families]) (adds_moveAll _ signature fun leg member => ?_)
  exact Amount.negatesExactly_of_nonneg (good.nonneg leg member)

/-- A fee is taken after a change that touches no balance. -/
theorem HasFee.adds {change : Change} (has : HasFee s creator fee) (signature : Signature)
    (other : "balance/" ∉ change.families) :
    Adds fee.asFee (change :: chargeFee creator fee signature) :=
  .cons other (adds_chargeFee creator signature has.negatesExactly)

/-- The sum that a good deployment takes does not wrap around, because its account has it. -/
theorem AtDeployment.IsGood.negatesExactly {d : AtDeployment} (good : d.IsGood s fee creator) :
    (-(fee + d.amount)).toInt = -(fee.toInt + d.amount.toInt) := by
  have amount := good.amount
  have positive := good.positive
  have covered := good.covered
  have most := s.units_le_largest creator nativeAsset
  have sum : (fee + d.amount).toInt = fee.toInt + d.amount.toInt :=
    Amount.addsExactly_of_range (by omega) (by omega)
  have negated : (-(fee + d.amount)).toInt = -(fee + d.amount).toInt :=
    Amount.negatesExactly_of_nonneg (by omega)
  rw [negated, sum]

/-- A deployment takes a fee; what it takes besides it gives to the AT. -/
theorem AtDeployment.IsGood.adds {d : AtDeployment} (good : d.IsGood s fee creator)
    (deployed : DeployedAt) (signature : Signature) :
    Adds fee.asFee [.saveAt deployed, .adjust creator nativeAsset (-(fee + d.amount)),
      .adjust deployed.address nativeAsset d.amount, .setReference creator signature,
      .setReference deployed.address signature] := by
  refine ⟨by simp [ReplacesNoBalance], fun asset => ?_⟩
  simp only [addedBy_cons, addedBy_nil, added, good.negatesExactly, Amount.asFee]
  split <;> omega

/-- An issue brings its quantity of an asset that nobody had, and takes a fee. -/
theorem AssetIssue.IsGood.total {i : AssetIssue} {id : AssetId} {changes : List Change}
    (good : i.IsGood s fee creator) (unheld : ∀ account, s.units account id = 0)
    (planned : [.saveAsset (i.toAsset id signature),
      .setBalance i.owner id (Amount.ofCoins i.quantity)] ++ chargeFee creator fee signature =
        changes)
    (made : (makeAll changes s).outcome = .ok ()) (exact : AllExact changes s) (asset : AssetId) :
    (makeAll changes s).session.total asset = s.total asset +
      if id = asset then i.quantity.toInt * unitsPerCoin.toInt else fee.asFee asset := by
  have coins : id ≠ nativeAsset := by
    rintro rfl
    have positive := good.fee.positive
    have covered := good.fee.covered
    rw [unheld] at covered
    omega
  have same := balance_saveAsset s (i.toAsset id signature)
  have empty : (s.saveAsset (i.toAsset id signature)).units i.owner id = 0 := by
    rw [Session.units_congr (same i.owner id), unheld]
  have brought : ((s.saveAsset (i.toAsset id signature)).setBalance i.owner id
      (Amount.ofCoins i.quantity)).total asset = _ := total_setBalance empty asset
  rw [Session.total_congr fun account => same account asset, good.units_eq] at brought
  subst planned
  have charged := (adds_chargeFee creator signature good.fee.negatesExactly).total_makeAll made
    exact.2.2 asset
  refine charged.trans ?_
  change Session.total (((s.saveAsset (i.toAsset id signature)).setBalance i.owner id
    (Amount.ofCoins i.quantity))) asset + _ = _
  rw [brought, Amount.asFee]
  by_cases here : asset = id
  · subst here
    simp [coins]
  · simp [here, Ne.symm here]

/-! ## Totals after a plan -/

/-- What processing an action adds to the total of an asset, if an issue is given the next number.
The fee is gone, except that of an AT, which pays none, and an issue brings its quantity. -/
def Action.netIssue (envelope : Envelope) (next : Except DataError AssetId) (action : Action)
    (asset : AssetId) : Int :=
  match action with
  | .settleAt _ => 0
  | .issueAsset i =>
    if next = .ok asset then i.quantity.toInt * unitsPerCoin.toInt else envelope.fee.asFee asset
  | _ => envelope.fee.asFee asset

/-- An issue is given the next number. -/
theorem Action.numbered_processing {i : AssetIssue}
    (planned : (Action.issueAsset i).processing params s signature envelope = .ok plan) :
    ∃ id, s.nextAssetId = .ok id ∧
      plan.after = .standard envelope (.issueAsset { i with assetId := some id }) := by
  rcases processing_issueAsset_eq_ok_iff.mp planned with ⟨id, next, rfl⟩
  exact ⟨id, next, rfl⟩

/-- **A good action changes totals by what its kind says.** -/
theorem Action.total_processing
    (good : (Record.standard envelope action).verdict params s = .ok .ok)
    (planned : action.processing params s signature envelope = .ok plan)
    (unheld : action.kind = .issueAsset → ∀ id, s.nextAssetId = .ok id →
      ∀ account, s.units account id = 0)
    (made : (makeAll plan.changes s).outcome = .ok ()) (exact : AllExact plan.changes s)
    (asset : AssetId) : (makeAll plan.changes s).session.total asset =
      s.total asset + action.netIssue envelope s.nextAssetId asset := by
  have rules := Record.rules_of_verdict good
  cases action with
  | payment p =>
    cases planned
    have payable := isPayable_of_rules rules
    exact (payable.adds signature).total_makeAll made exact asset
  | transferAsset t =>
    cases planned
    have payable := isPayable_of_rules (List.forall_mem_cons.mp rules).2
    exact (payable.adds signature).total_makeAll made exact asset
  | multiPayment m =>
    cases planned
    have payable := isPayable_of_rules (List.forall_mem_append.mp rules).2
    exact (payable.adds signature).total_makeAll made exact asset
  | settleAt settlement =>
    cases planned
    have pays := AtSettlement.isGood_of_rules rules
    exact (pays.adds signature).total_makeAll made exact asset
  | createPoll c =>
    cases planned
    have creates := PollCreation.isGood_of_rules rules
    exact (creates.fee.adds signature (by simp [families])).total_makeAll made exact asset
  | voteOnPoll b =>
    rcases processing_voteOnPoll_eq_ok_iff.mp planned with ⟨vote, -, rfl⟩
    have votes := Ballot.isGood_of_rules rules
    exact (votes.fee.adds signature (by simp [families])).total_makeAll made exact asset
  | issueAsset i =>
    rcases processing_issueAsset_eq_ok_iff.mp planned with ⟨id, next, rfl⟩
    have issues := AssetIssue.isGood_of_rules rules
    refine (issues.total (unheld rfl id next) rfl made exact asset).trans ?_
    simp [netIssue, next]
  | deployAt d =>
    rcases processing_deployAt_eq_ok_iff.mp planned with ⟨version, seed, -, -, rfl⟩
    have deploys := AtDeployment.isGood_of_rules rules
    exact (deploys.adds (.fresh ..) signature).total_makeAll made exact asset

/-! ## Accepted records -/

/-- No balance wraps around that processing the record changes, at the moment of each change. -/
def Submission.AddsExactly (x : Submission) (s : Session) : Prop :=
  ∀ signature plan, x.record.signature? = some signature →
    x.record.processing x.params s signature = .ok plan → AllExact plan.changes s

/-- Processing an accepted record makes the changes planned for its action, and those of no balance
besides. -/
theorem Submission.IsAccepted.exists_plan {x : Submission} (accepted : x.IsAccepted s)
    (standard : x.record = .standard envelope action) (done : (x.processed s).outcome = .ok ()) :
    ∃ signature plan, action.processing x.params s signature envelope = .ok plan ∧
      (makeAll plan.changes s).outcome = .ok () ∧
      (x.AddsExactly s → AllExact plan.changes s) ∧
      (x.processed s).transaction.record = plan.after ∧
      ∀ account asset, (x.processed s).session.balance account asset =
        (makeAll plan.changes s).session.balance account asset := by
  obtain ⟨signature, all, signed, whole, made, same⟩ := accepted.exists_of_processed done
  obtain ⟨plan, planned, rfl⟩ := Record.processing_standard_eq_ok_iff.mp (standard ▸ whole)
  have first := (makeAll_append_eq_ok_iff.mp made).1
  rw [same, makeAll_append_of_ok first]
  refine ⟨signature, plan, planned, first, fun exact => ?_, rfl, ?_⟩
  · exact ((allExact_append first).mp (exact signature _ signed whole)).1
  · exact fun account asset => AllSafe.balance_makeAll_of_other (by simp [families]) account asset

/-- **Every asset is conserved.** Processing an accepted record other than an allocation succeeds in
a sound ledger. Where it does, and no balance wraps around, all accounts together have less coins by
the fee, unless the record is a settlement, more of an asset that the record issued by its quantity,
if nobody had anything under the next number before, and as much of anything else as they had. -/
theorem Submission.conserves {x : Submission} (standard : x.record = .standard envelope action)
    (accepted : x.IsAccepted s) (exact : x.AddsExactly s)
    (unheld : action.kind = .issueAsset → ∀ id, s.nextAssetId = .ok id →
      ∀ account, s.units account id = 0) :
    (s.Sound → (x.processed s).outcome = .ok ()) ∧
      ((x.processed s).outcome = .ok () →
        (∀ i, action = .issueAsset i → ∃ id, s.nextAssetId = .ok id ∧
          (x.processed s).transaction.record =
            .standard envelope (.issueAsset { i with assetId := some id })) ∧
        ∀ asset, (x.processed s).session.total asset =
          s.total asset + action.netIssue envelope s.nextAssetId asset) := by
  have good := (isAccepted_iff.mp accepted).1
  rw [standard] at good
  constructor
  · exact accepted.processed_of_sound
  · intro done
    obtain ⟨_, plan, planned, made, allExact, stored, balances⟩ :=
      accepted.exists_plan standard done
    constructor
    · rintro i rfl
      rw [stored]
      exact Action.numbered_processing planned
    · intro asset
      rw [← Action.total_processing good planned unheld made (allExact exact) asset]
      exact Session.total_congr fun account => balances account asset

/-- An issue of an asset that an opening allocation pays for. -/
def openingIssue : Record :=
  .standard ⟨1, openingAllocation.signature?.getD (.fill 0), ⟨100⟩, some (.fill 170)⟩
    (.issueAsset ⟨.fill 6, "QjSSfvVj4hqM5PwYwjZn7UL4mZKzUCtoeR", "gold", "a metal", 21, true, none⟩)

theorem openingIssue_isAccepted :
    (Submission.mk .allReleased openingIssue).IsAccepted openedLedger := by
  obtain ⟨reference, funded⟩ := openedLedger.opened
  have unnamed : openedLedger.holds (.assetName "gold") = false :=
    openedLedger.holds_other (by simp [Cell.family])
  exact Submission.isAccepted_iff.mpr ⟨AssetIssue.verdict_eq_ok reference rfl
    Address.Sample.isValid_other (by decide) (by decide) (by decide) (by decide) funded (by decide)
    unnamed, _, rfl⟩

theorem Submission.conserves_openingIssue :
    let issue : Submission := ⟨.allReleased, openingIssue⟩
    issue.IsAccepted openedLedger ∧ issue.AddsExactly openedLedger ∧
      ∃ id, openedLedger.nextAssetId = .ok id ∧
        (∀ account, openedLedger.units account id = 0) ∧
        (issue.processed openedLedger).outcome = .ok () ∧
        (issue.processed openedLedger).session.total id = openedLedger.total id + 2100000000 ∧
        (issue.processed openedLedger).session.total nativeAsset =
          openedLedger.total nativeAsset - 100 := by
  intro issue
  have solvent := openedLedger.solvent
  have accepted : issue.IsAccepted openedLedger := openingIssue_isAccepted
  have exact : issue.AddsExactly openedLedger := fun signature plan =>
    (Submission.solvent_after solvent (fun _ => by decide) fun _ => by decide).1.exact accepted
  obtain ⟨id, next, unused, -⟩ := solvent.numbered.exists_nextAssetId (by decide)
  have unheld : ∀ other, openedLedger.nextAssetId = .ok other →
      ∀ account, openedLedger.units account other = 0 := by
    intro other next'
    cases Except.ok.inj (next.symm.trans next')
    exact solvent.holdsIssued.unheld next unused
  obtain ⟨succeeds, conserved⟩ := Submission.conserves rfl accepted exact fun _ => unheld
  have done := succeeds (solvent.sound (by decide))
  obtain ⟨-, totals⟩ := conserved done
  refine ⟨accepted, exact, id, next, unheld id next, done, ?_, ?_⟩
  · rw [totals, Action.netIssue, next, if_pos rfl]
    rfl
  · have other : Except.ok (ε := DataError) id ≠ .ok nativeAsset :=
      fun same => unused (Except.ok.inj same)
    rw [totals, Action.netIssue, next, if_neg other]
    rfl

end ChainLedger

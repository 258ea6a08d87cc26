import ChainLedger.Proofs.Run.Reached
import ChainLedger.Proofs.Transaction.BalanceChange

/-!
# Good verdicts that outlive their ledger

A verdict is given on the ledger as it stands, and a record may be processed when the
ledger has moved on. What was found of the amounts of the record is then still true. What
was found of those of its creator is as long as it has no less of the assets that there
were. A record takes only from its creator, only of assets that there were, and no more
than the creator had of them: so processing it late leaves no balance negative, and upholds
what was found of everybody else.
-/

namespace ChainLedger

open Change

variable {params params' : ChainParams} {s t u : Session} {r : Record} {envelope : Envelope}
  {action : Action} {signature : Signature} {account creator sender : Address} {asset : AssetId}
  {fee : Amount} {legs : List Leg} {plan : Plan}

/-! ## What changes take -/

namespace Change

variable {changes first : List Change}

/-- The changes take only from one account, only of issued assets, and no more than it has. -/
def TakeWithin (s : Session) (creator : Address) (changes : List Change) : Prop :=
  ∀ account asset, 0 ≤ creditBy account asset changes ∨
    account = creator ∧ s.IsIssued asset ∧ -s.units creator asset ≤ creditBy creator asset changes

/-- Changes that take at most a cost are within what the account has if the cost is. -/
theorem TakeWithin.of_cost (cost : AssetId → Int)
    (most : ∀ account asset,
      (if account = creator then -cost asset else 0) ≤ creditBy account asset changes)
    (covered : ∀ asset, cost asset ≤ 0 ∨ s.IsIssued asset ∧ cost asset ≤ s.units creator asset) :
    TakeWithin s creator changes := by
  intro account asset
  have taken := most account asset
  by_cases takes : account = creator
  · rw [if_pos takes] at taken
    rcases covered asset with free | ⟨issued, has⟩
    · exact .inl (by omega)
    · exact .inr ⟨takes, issued, by rw [takes] at taken; omega⟩
  · exact .inl (by rwa [if_neg takes] at taken)

/-- Changes that credit the same take the same. -/
theorem TakeWithin.of_credit {more : List Change} (within : TakeWithin s creator changes)
    (same : ∀ account asset, creditBy account asset more = creditBy account asset changes) :
    TakeWithin s creator more := by
  intro account asset
  rw [same, same]
  exact within account asset

end Change

/-! ## What parts of plans take -/

theorem Leg.neg_le_netFor {leg : Leg} (nonneg : 0 ≤ leg.amount.toInt) :
    (if account = sender then -leg.amount.toInt else 0) ≤ leg.netFor account sender := by
  rw [Leg.netFor]
  split <;> split <;> omega

/-- Legs take no more from their sender than they owe, and nothing from anyone else. -/
theorem le_creditBy_moveAll (nonneg : ∀ leg ∈ legs, 0 ≤ leg.amount.toInt) (account sender : Address)
    (asset : AssetId) (signature : Signature) :
    (if account = sender then -owed asset legs else 0) ≤
      creditBy account asset (moveAll sender signature legs) := by
  induction legs with
  | nil => simp [moveAll, owed]
  | cons leg rest ih =>
    rw [List.forall_mem_cons] at nonneg
    have later := ih nonneg.2
    have net : (if account = sender then -leg.amount.toInt else 0) ≤ leg.netFor account sender :=
      leg.neg_le_netFor nonneg.1
    have split : moveAll sender signature (leg :: rest) =
        leg.move sender signature ++ moveAll sender signature rest := List.flatMap_cons
    rw [split, creditBy_append, creditBy_move (Amount.negatesExactly_of_nonneg nonneg.1), owed_cons]
    by_cases moved : leg.assetId = asset
    · rw [if_pos moved, if_pos moved.symm]
      by_cases sends : account = sender
      · rw [if_pos sends] at net later ⊢
        omega
      · rw [if_neg sends] at net later ⊢
        omega
    · rw [if_neg moved, if_neg (Ne.symm moved), zero_add, zero_add]
      exact later

/-- A payment takes its total, which its sender has. -/
theorem IsPayable.takeWithin (payable : IsPayable s sender legs fee) (signature : Signature) :
    TakeWithin s sender (chargeFee sender fee signature ++ moveAll sender signature legs) := by
  refine .of_cost (fun asset => totalOf asset legs fee) (fun account asset => ?_) fun asset => ?_
  · have moved := le_creditBy_moveAll (fun leg member => (payable.amounts leg member).le)
      account sender asset signature
    rw [creditBy_append, creditBy_chargeFee payable.negatesExactly.1, totalOf_eq, Amount.asFee]
    by_cases sends : account = sender
    · rw [if_pos sends] at moved
      rw [if_pos sends, if_pos sends]
      split <;> omega
    · rw [if_neg sends] at moved
      rwa [if_neg sends, if_neg sends, zero_add]
  · by_cases named : asset ∈ nativeAsset :: legs.map Leg.assetId
    · refine .inr ⟨?_, payable.covered asset named⟩
      rcases List.mem_cons.mp named with rfl | moved
      · exact .inl rfl
      · obtain ⟨leg, member, rfl⟩ := List.mem_map.mp moved
        exact payable.issued leg member
    · rw [List.mem_cons, not_or] at named
      have unmoved : ∀ leg ∈ legs, leg.assetId ≠ asset := fun leg member same =>
        named.2 (List.mem_map.mpr ⟨leg, member, same⟩)
      rw [totalOf_eq, if_neg named.1, owed_eq_zero unmoved]
      exact .inl le_rfl

/-- A settlement takes what it pays, which its AT has. -/
theorem AtSettlement.IsGood.takeWithin {settlement : AtSettlement} (good : settlement.IsGood s)
    (signature : Signature) : TakeWithin s settlement.atAddress
      (moveAll settlement.atAddress signature settlement.legs) := by
  refine .of_cost (fun asset => owed asset settlement.legs)
    (fun account asset => le_creditBy_moveAll good.nonneg ..) fun asset => ?_
  cases paid : settlement.payment with
  | none =>
    have legs : settlement.legs = [] := by simp [AtSettlement.legs, paid]
    rw [legs]
    exact .inl le_rfl
  | some payment =>
    have legs : settlement.legs = [⟨settlement.recipient, payment.assetId, payment.amount⟩] := by
      simp [AtSettlement.legs, paid]
    rw [legs, owed_cons, owed_eq_zero (by simp), add_zero]
    split
    next same =>
      rw [same]
      exact .inr ⟨good.issued payment paid, good.covered payment paid⟩
    next => exact .inl le_rfl

/-- A fee is taken in coins, of which its account has enough. -/
theorem HasFee.takeWithin (has : HasFee s creator fee) (signature : Signature) :
    TakeWithin s creator (chargeFee creator fee signature) := by
  refine .of_cost (fun asset => -fee.asFee asset) (fun account asset => ?_) fun asset => ?_
  · rw [creditBy_chargeFee has.negatesExactly, neg_neg]
  · by_cases coins : asset = nativeAsset
    · subst coins
      exact .inr ⟨.inl rfl, by rw [Amount.asFee_nativeAsset, neg_neg]; exact has.covered⟩
    · exact .inl (by simp [Amount.asFee, coins])

/-- A deployment takes its fee and its amount, which its account has. -/
theorem AtDeployment.IsGood.takeWithin {d : AtDeployment} (good : d.IsGood s fee creator)
    (deployed : DeployedAt) (signature : Signature) :
    TakeWithin s creator [.saveAt deployed, .adjust creator nativeAsset (-(fee + d.amount)),
      .adjust deployed.address nativeAsset d.amount, .setReference creator signature,
      .setReference deployed.address signature] := by
  have amount := good.amount
  have negated := good.negatesExactly
  refine .of_cost (fun asset => if asset = nativeAsset then fee.toInt + d.amount.toInt else 0)
    (fun account asset => ?_) fun asset => ?_
  · by_cases coins : asset = nativeAsset
    · simp only [creditBy_cons, creditBy_nil, credit, coins, and_true, if_true, negated]
      split <;> split <;> omega
    · simp [credit, coins]
  · by_cases coins : asset = nativeAsset
    · rw [if_pos coins, coins]
      exact .inr ⟨.inl rfl, good.covered⟩
    · rw [if_neg coins]
      exact .inl le_rfl

/-! ## What records take -/

/-- **A record takes within what its creator had** when it was found good, wherever it is
planned. -/
theorem Action.takeWithin_processing
    (good : (Record.standard envelope action).verdict params s = .ok .ok)
    (planned : action.processing params' t signature envelope = .ok plan) :
    TakeWithin s action.creator plan.changes := by
  have rules := Record.rules_of_verdict good
  cases action with
  | payment p =>
    cases planned
    exact (isPayable_of_rules rules).takeWithin signature
  | transferAsset t =>
    cases planned
    exact (isPayable_of_rules (List.forall_mem_cons.mp rules).2).takeWithin signature
  | multiPayment m =>
    cases planned
    exact (isPayable_of_rules (List.forall_mem_append.mp rules).2).takeWithin signature
  | settleAt settlement =>
    cases planned
    exact ((AtSettlement.isGood_of_rules rules).takeWithin signature).of_credit fun _ _ => by
      simp [Plan.same, credit, Action.creator, legs]
  | createPoll c =>
    cases planned
    exact ((PollCreation.isGood_of_rules rules).fee.takeWithin signature).of_credit fun _ _ => by
      simp [Plan.same, credit]
  | voteOnPoll b =>
    rcases processing_voteOnPoll_eq_ok_iff.mp planned with ⟨vote, -, rfl⟩
    exact ((Ballot.isGood_of_rules rules).fee.takeWithin signature).of_credit fun _ _ => by
      simp [Plan.same, credit]
  | issueAsset i =>
    rcases processing_issueAsset_eq_ok_iff.mp planned with ⟨id, next, rfl⟩
    exact ((AssetIssue.isGood_of_rules rules).fee.takeWithin signature).of_credit fun _ _ => by
      simp [Plan.same, credit]
  | deployAt d =>
    rcases processing_deployAt_eq_ok_iff.mp planned with ⟨version, seed, -, -, rfl⟩
    exact (AtDeployment.isGood_of_rules rules).takeWithin (.fresh ..) signature

theorem Record.takeWithin_processing (good : r.verdict params s = .ok .ok)
    (creates : r.creator? = some creator)
    (planned : r.processing params' t signature = .ok plan) :
    TakeWithin s creator plan.changes := by
  cases r with
  | genesis => cases creates
  | standard envelope action =>
    obtain ⟨actionPlan, actionPlanned, rfl⟩ := processing_standard_eq_ok_iff.mp planned
    cases creates
    exact (Action.takeWithin_processing good actionPlanned).of_credit fun _ _ => by simp [credit]

theorem Record.keeps_processing (creates : r.creator? = some creator)
    (planned : r.processing params t signature = .ok plan) (account : Address) (asset : AssetId) :
    (∀ change ∈ plan.changes, change.Keeps account asset) ∨
      ∃ envelope i, r = .standard envelope (.issueAsset i) ∧ account = i.owner ∧
        t.nextAssetId = .ok asset := by
  cases r with
  | genesis => cases creates
  | standard envelope action =>
    obtain ⟨actionPlan, actionPlanned, rfl⟩ := processing_standard_eq_ok_iff.mp planned
    rcases Action.keeps_processing actionPlanned account asset with keep | ⟨i, rfl, brings⟩
    · exact .inl (List.forall_mem_append.mpr ⟨keep, List.forall_mem_singleton.mpr trivial⟩)
    · exact .inr ⟨envelope, i, rfl, brings⟩

/-- The owner of a new asset is left with its quantity. -/
theorem AssetIssue.balance_makeAll {i : AssetIssue}
    (planned : (Record.standard envelope (.issueAsset i)).processing params t signature = .ok plan)
    (made : (makeAll plan.changes t).outcome = .ok ()) (next : t.nextAssetId = .ok asset)
    (left : asset ≠ nativeAsset) :
    (makeAll plan.changes t).session.balance i.owner asset = .ok (Amount.ofCoins i.quantity) := by
  obtain ⟨_, actionPlanned, rfl⟩ := Record.processing_standard_eq_ok_iff.mp planned
  obtain ⟨id, next', rfl⟩ := Action.processing_issueAsset_eq_ok_iff.mp actionPlanned
  cases Except.ok.inj (next.symm.trans next')
  refine (balance_makeAll made _ _).trans ?_
  simp [Plan.same, chargeFee, onBalanceAll, onBalance, left]

/-! ## Ledgers that have moved on -/

/-- What was found of the amounts of an account is still true: the assets that there were are there,
and of each of them it has no less. -/
structure Session.Upholds (account : Address) (s t : Session) : Prop where
  issued : ∀ asset, s.IsIssued asset → t.IsIssued asset
  units : ∀ asset, s.IsIssued asset → s.units account asset ≤ t.units account asset

/-- What a good record declares is the reference that its creator has. -/
theorem Record.exists_reference_of_verdict (good : r.verdict params s = .ok .ok)
    (creates : r.creator? = some creator) :
    ∃ held, r.reference? = some held ∧ s.lastReference creator = .ok (some held) := by
  cases r with
  | genesis => cases creates
  | standard envelope action =>
    cases creates
    exact ⟨envelope.reference, rfl, lastReference_of_verdict good⟩

namespace Session.Upholds

theorem refl (account : Address) (s : Session) : s.Upholds account s :=
  ⟨fun _ issued => issued, fun _ _ => le_rfl⟩

theorem trans (first : s.Upholds account t) (second : t.Upholds account u) :
    s.Upholds account u where
  issued asset there := second.issued asset (first.issued asset there)
  units asset there :=
    (first.units asset there).trans (second.units asset (first.issued asset there))

end Session.Upholds

section CarriedOut

variable (good : r.verdict params s = .ok .ok) (creates : r.creator? = some creator)
  (planned : r.processing params' t signature = .ok plan)
  (made : (makeAll plan.changes t).outcome = .ok ()) (exact : AllExact plan.changes t)
  (left : r.kind = .issueAsset → t.holds (.asset lastAsset) = false)
include good creates planned made exact left

/-- **Processing upholds what was found of others.** -/
theorem Record.upholds_processing (other : creator ≠ account) :
    t.Upholds account (makeAll plan.changes t).session where
  issued asset issued := issued.imp_right (isSome_get?_makeAll (makes_processing planned))
  units asset issued := by
    rcases keeps_processing creates planned account asset with keep | ⟨_, i, rfl, -, next⟩
    · rw [units_makeAll made exact keep]
      rcases takeWithin_processing good creates planned account asset with free | ⟨itself, -⟩
      · omega
      · exact absurd itself.symm other
    · have numbered := Session.ne_nativeAsset_of_left next (left rfl)
      have held := issued.resolve_left numbered
      rw [Session.not_holds_nextAssetId next numbered] at held
      cases held

/-- **Processing leaves no balance negative**, as long as what was found of the creator is true. -/
theorem Session.Upholds.inCredit_processing (upholds : s.Upholds creator t) (credit : t.InCredit) :
    (makeAll plan.changes t).session.InCredit := by
  intro account asset
  obtain ⟨before, had, least⟩ := credit account asset
  obtain ⟨after, has⟩ := Session.legible_balance_iff.mp
    (legible_balance_makeAll (Session.legible_balance_iff.mpr ⟨before, had⟩) made)
  refine ⟨after, has, ?_⟩
  rcases Record.keeps_processing creates planned account asset with keep | ⟨_, i, rfl, rfl, next⟩
  · have units := units_makeAll made exact keep
    rw [Session.units_of_balance has, Session.units_of_balance had] at units
    rcases Record.takeWithin_processing good creates planned account asset with
      free | ⟨rfl, issued, within⟩
    · omega
    · have most := upholds.units asset issued
      rw [Session.units_of_balance had] at most
      omega
  · have numbered := Session.ne_nativeAsset_of_left next (left rfl)
    cases Except.ok.inj (has.symm.trans (AssetIssue.balance_makeAll planned made next numbered))
    exact (AssetIssue.isGood_of_rules (Record.rules_of_verdict good)).units_range.1

end CarriedOut

end ChainLedger

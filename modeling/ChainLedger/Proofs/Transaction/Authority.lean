import ChainLedger.Proofs.Transaction.Conservation
import ChainLedger.Proofs.Transaction.References

/-!
# Who pays for a record

Of all the accounts that a record names only one can lose by it: its creator. Legs, fees
and deployments take from the creator alone, what the others are given is not negative,
and an issue puts its quantity where nothing was. So what an account has to fear is a
record that it is the creator of, and, for its reference, one that deploys it as an AT.
-/

namespace ChainLedger

open Change

variable {params : ChainParams} {s t : Session} {envelope : Envelope} {action : Action}
  {signature : Signature} {account creator sender : Address} {fee : Amount} {legs : List Leg}
  {asset : AssetId} {plan : Plan}

/-! ## Changes that take nothing -/

namespace Change

variable {change : Change} {changes : List Change}

/-- The change takes nothing from an account. -/
def Spares (account : Address) : Change → Prop
  | .adjust other _ delta => other = account → 0 ≤ delta.toInt
  | .setBalance other .. | .clearBalance other _ => other ≠ account
  | _ => True

theorem units_le_make (made : (change.make s).outcome = .ok ()) (exact : change.IsExact s)
    (spares : change.Spares account) (asset : AssetId) :
    s.units account asset ≤ (change.make s).session.units account asset := by
  cases change with
  | adjust other asset' delta =>
    rw [units_make_adjust (make_eq_ok_iff.mp made) exact]
    split
    next here =>
      have given := spares here.1.symm
      omega
    next => exact (add_zero _).ge
  | setBalance other | clearBalance other =>
    have apart : account ≠ other := Ne.symm spares
    have same := balance_make made account asset
    rw [onBalance, if_neg fun here => apart here.1] at same
    exact (Session.units_congr same).ge
  | setReference | clearReference | introduce | retract | savePoll | deletePoll | saveVote
  | deleteVote | saveAsset | deleteAsset | saveAt | deleteAt | saveTransaction
  | deleteTransaction =>
    exact (Session.units_congr (balance_make made account asset)).ge

/-- **Changes that take nothing from an account leave it all that it has.** -/
theorem units_le_makeAll (made : (makeAll changes s).outcome = .ok ()) (exact : AllExact changes s)
    (spare : ∀ change ∈ changes, change.Spares account) (asset : AssetId) :
    s.units account asset ≤ (makeAll changes s).session.units account asset := by
  induction changes generalizing s with
  | nil => exact le_rfl
  | cons change rest ih =>
    rw [List.forall_mem_cons] at spare
    rcases makeAll_cons_eq_ok_iff.mp made with ⟨first, later⟩
    rw [makeAll_cons_of_ok first]
    exact (units_le_make first exact.1 spare.1 asset).trans (ih later exact.2 spare.2)

end Change

/-! ## Parts of plans -/

/-- A fee takes from the creator alone. -/
theorem spares_chargeFee (other : creator ≠ account) :
    ∀ change ∈ chargeFee creator fee signature, change.Spares account := by
  simp [chargeFee, Spares, other]

/-- Legs take from the sender alone. -/
theorem spares_moveAll (other : sender ≠ account) (nonneg : ∀ leg ∈ legs, 0 ≤ leg.amount.toInt) :
    ∀ change ∈ moveAll sender signature legs, change.Spares account := by
  intro change member
  rcases List.mem_flatMap.mp member with ⟨leg, sent, moved⟩
  have given := nonneg leg sent
  rcases List.mem_append.mp moved with adjusted | introduced
  · simp only [List.mem_cons, List.not_mem_nil, or_false] at adjusted
    rcases adjusted with rfl | rfl
    · exact fun itself => absurd itself other
    · exact fun _ => given
  · split at introduced
    next =>
      rw [List.mem_singleton] at introduced
      subst introduced
      trivial
    next => cases introduced

theorem IsPayable.spares (payable : IsPayable s sender legs fee) (other : sender ≠ account) :
    ∀ change ∈ chargeFee sender fee signature ++ moveAll sender signature legs,
      change.Spares account :=
  List.forall_mem_append.mpr ⟨spares_chargeFee other,
    spares_moveAll other fun leg member => (payable.amounts leg member).le⟩

/-- An issue takes nothing from its owner, where that account had nothing of the asset. -/
theorem AssetIssue.IsGood.units_le {i : AssetIssue} {id : AssetId} {changes : List Change}
    (good : i.IsGood s fee creator) (unheld : ∀ account, s.units account id = 0)
    (planned : [.saveAsset (i.toAsset id signature),
      .setBalance i.owner id (Amount.ofCoins i.quantity)] ++ chargeFee creator fee signature =
        changes)
    (made : (makeAll changes s).outcome = .ok ()) (exact : AllExact changes s)
    (other : creator ≠ account) (asset : AssetId) :
    s.units account asset ≤ (makeAll changes s).session.units account asset := by
  subst planned
  have positive := good.units_range.1
  have brought : s.units account asset ≤ ((s.saveAsset (i.toAsset id signature)).setBalance i.owner
      id (Amount.ofCoins i.quantity)).units account asset := by
    have same := balance_saveAsset s (i.toAsset id signature) account asset
    have after := (s.saveAsset (i.toAsset id signature)).balance_setBalance i.owner account id asset
      (Amount.ofCoins i.quantity)
    split at after
    next here =>
      rw [here.2, unheld, Session.units_of_balance (here.2 ▸ after)]
      exact positive
    next => exact (Session.units_congr (after.trans same)).ge
  have charged : (makeAll (chargeFee creator fee signature) ((s.saveAsset
      (i.toAsset id signature)).setBalance i.owner id (Amount.ofCoins i.quantity))).outcome =
        .ok () := made
  exact brought.trans (units_le_makeAll charged exact.2.2 (spares_chargeFee other) asset)

/-! ## Accepted records -/

/-- **A good action takes from its creator alone.** -/
theorem Action.units_le_processing
    (good : (Record.standard envelope action).verdict params s = .ok .ok)
    (planned : action.processing params s signature envelope = .ok plan)
    (unheld : action.kind = .issueAsset → ∀ id, s.nextAssetId = .ok id →
      ∀ account, s.units account id = 0)
    (made : (makeAll plan.changes s).outcome = .ok ()) (exact : AllExact plan.changes s)
    (other : action.creator ≠ account) (asset : AssetId) :
    s.units account asset ≤ (makeAll plan.changes s).session.units account asset := by
  have rules := Record.rules_of_verdict good
  have fee : ∀ change ∈ chargeFee action.creator envelope.fee signature, change.Spares account :=
    spares_chargeFee other
  cases action with
  | payment p =>
    cases planned
    exact units_le_makeAll made exact ((isPayable_of_rules rules).spares other) asset
  | transferAsset t =>
    cases planned
    have payable := isPayable_of_rules (List.forall_mem_cons.mp rules).2
    exact units_le_makeAll made exact (payable.spares other) asset
  | multiPayment m =>
    cases planned
    have payable := isPayable_of_rules (List.forall_mem_append.mp rules).2
    exact units_le_makeAll made exact (payable.spares other) asset
  | settleAt settlement =>
    cases planned
    have pays := AtSettlement.isGood_of_rules rules
    refine units_le_makeAll made exact (List.forall_mem_cons.mpr ⟨trivial, ?_⟩) asset
    exact spares_moveAll other pays.nonneg
  | createPoll c =>
    cases planned
    exact units_le_makeAll made exact (List.forall_mem_cons.mpr ⟨trivial, fee⟩) asset
  | voteOnPoll b =>
    rcases processing_voteOnPoll_eq_ok_iff.mp planned with ⟨vote, -, rfl⟩
    exact units_le_makeAll made exact (List.forall_mem_cons.mpr ⟨trivial, fee⟩) asset
  | issueAsset i =>
    rcases processing_issueAsset_eq_ok_iff.mp planned with ⟨id, next, rfl⟩
    have issues := AssetIssue.isGood_of_rules rules
    exact issues.units_le (unheld rfl id next) rfl made exact other asset
  | deployAt d =>
    rcases processing_deployAt_eq_ok_iff.mp planned with ⟨version, seed, -, -, rfl⟩
    have given := (AtDeployment.isGood_of_rules rules).amount
    refine units_le_makeAll made exact ?_ asset
    simp only [List.forall_mem_cons]
    exact ⟨trivial, fun itself => absurd itself other, fun _ => given.le, trivial, trivial, nofun⟩

/-- An accepted record takes from its creator alone, if no balance wraps around. -/
theorem Submission.units_le_processed {x : Submission}
    (standard : x.record = .standard envelope action) (accepted : x.IsAccepted s)
    (exact : x.AddsExactly s)
    (unheld : action.kind = .issueAsset → ∀ id, s.nextAssetId = .ok id →
      ∀ account, s.units account id = 0)
    (done : (x.processed s).outcome = .ok ()) (other : action.creator ≠ account)
    (asset : AssetId) : s.units account asset ≤ (x.processed s).session.units account asset := by
  rcases isAccepted_iff.mp accepted with ⟨good, -⟩
  rw [standard] at good
  obtain ⟨_, plan, planned, made, allExact, -, balances⟩ :=
    accepted.exists_plan standard done
  have most := Action.units_le_processing good planned unheld made (allExact exact) other asset
  exact most.trans (Session.units_congr (balances account asset)).ge

/-- It leaves an account the reference that it has, unless it is of that account or deploys it. -/
theorem Submission.lastReference_kept {x : Submission} {held : Signature}
    (standard : x.record = .standard envelope action) (accepted : x.IsAccepted s)
    (done : (x.processed s).outcome = .ok ()) (other : action.creator ≠ account)
    (undeployed : x.record.deployed? x.params ≠ some account)
    (had : s.lastReference account = .ok (some held)) :
    (x.processed s).session.lastReference account = .ok (some held) := by
  rcases isAccepted_iff.mp accepted with ⟨-, signature, signed⟩
  have apart : x.record.creator? ≠ some account := by
    rw [standard]
    exact fun itself => other (Option.some.inj itself)
  rw [lastReference_processed standard accepted signed done, had]
  exact Record.onReference_some apart undeployed

/-- An account has less of an asset than it had, or another reference than the one it had. -/
def Session.Deprives (account : Address) (s t : Session) : Prop :=
  (∃ asset before after, s.balance account asset = .ok before ∧
    t.balance account asset = .ok after ∧ after.toInt < before.toInt) ∨
  ∃ held, s.lastReference account = .ok (some held) ∧ t.lastReference account ≠ .ok (some held)

/-- **A record deprives no account but its creator and an AT that it deploys**, if no balance wraps
around, nobody has anything of an asset that is not issued, and the numbers did not run out. -/
theorem Submission.creator_of_deprives {x : Submission}
    (standard : x.record = .standard envelope action) (holds : s.HoldsIssued)
    (left : s.nextAssetId ≠ .ok nativeAsset) (exact : x.AddsExactly s) (accepted : x.IsAccepted s)
    (done : (x.processed s).outcome = .ok ())
    (deprived : s.Deprives account (x.processed s).session) :
    action.creator = account ∨ x.record.deployed? x.params = some account := by
  by_contra neither
  rw [not_or] at neither
  rcases deprived with ⟨asset, before, after, had, has, less⟩ | ⟨held, had, lost⟩
  · have unheld : ∀ id, s.nextAssetId = .ok id → ∀ account, s.units account id = 0 :=
      fun id next => holds.unheld next fun coins => left (coins ▸ next)
    have most := units_le_processed standard accepted exact (fun _ => unheld) done neither.1 asset
    rw [Session.units_of_balance had, Session.units_of_balance has] at most
    exact absurd less most.not_gt
  · exact lost (lastReference_kept standard accepted done neither.1 neither.2 had)

end ChainLedger

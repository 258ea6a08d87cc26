import ChainLedger.Proofs.Transaction.BalanceChange
import ChainLedger.Proofs.Transaction.Lifecycle

/-!
# Which balance changes can be reported

Every record that is found good somewhere reports a balance change for every account, at any
time of the life of its transaction, if it is not a settlement. What its sender has bounds the
sums of all other kinds; no rule is on the fee of a settlement, so that what it takes from the
balance of its AT may be out of range. For all others a settlement has something to report.
-/

namespace ChainLedger

variable {params : ChainParams} {s : Session} {envelope : Envelope} {action : Action}
  {account : Address} {fee amount : Amount} {r : Record}

/-! ## Settlements -/

namespace AtSettlement

variable {settlement : AtSettlement}

/-- The fee fits an amount, together with the coins that are paid and on its own, where its
opposite has to. -/
structure FeeFits (fee : Amount) (settlement : AtSettlement) : Prop where
  low : -Amount.largest ≤ fee.toInt + settlement.coins.toInt
  high : fee.toInt + settlement.coins.toInt ≤ Amount.largest
  /-- An AT that pays itself is left with the fee alone to report. -/
  alone : settlement.atAddress = settlement.recipient → -Amount.largest ≤ fee.toInt

theorem IsGood.coins_nonneg (good : settlement.IsGood s) : 0 ≤ settlement.coins.toInt := by
  unfold coins
  split
  next payment paid =>
    split
    next => exact good.amounts payment paid
    next => exact le_rfl
  next => exact le_rfl

/-- **A good settlement can be reported to its AT exactly if its fee fits**, and to all others
anyhow. -/
theorem IsGood.exists_change?_iff (good : settlement.IsGood s) :
    (∃ change, settlement.change? account fee = some change) ↔
      (account = settlement.atAddress → settlement.FeeFits fee) := by
  rw [change?_eq_transfer?, exists_transfer?_iff good.coins_nonneg]
  refine forall_congr' fun self => ?_
  rw [self]
  exact ⟨fun ⟨low, high, alone⟩ => ⟨low, high, alone⟩,
    fun ⟨low, high, alone⟩ => ⟨low, high, alone⟩⟩

end AtSettlement

/-! ## Good records -/

namespace Record

/-- If the account is the AT of a settlement, its fee fits. -/
def FeeFits (account : Address) : Record → Prop
  | .standard envelope (.settleAt settlement) =>
    account = settlement.atAddress → settlement.FeeFits envelope.fee
  | _ => True

/-- What is only known once a record is processed makes no difference to its fee. -/
theorem feeFits_withoutDerived : r.withoutDerived.FeeFits account ↔ r.FeeFits account := by
  cases r with
  | genesis => rfl
  | standard envelope action => cases action <;> rfl

/-- Nor to the rules for it. -/
theorem verdict_withoutDerived : r.withoutDerived.verdict params s = r.verdict params s := by
  cases r with
  | genesis => rfl
  | standard envelope action => cases action <;> rfl

/-- **A good record has something to report exactly if it is not a settlement whose fee does not
fit**, reported to its AT. -/
theorem exists_amountFor?_iff (good : r.verdict params s = .ok .ok) (account : Address) :
    (∃ change, r.amountFor? account = some change) ↔ r.FeeFits account := by
  cases r with
  | genesis g => exact iff_of_true ⟨_, rfl⟩ trivial
  | standard envelope action =>
    have rules := rules_of_verdict good
    cases action with
    | payment p =>
      exact iff_of_true ((isPayable_of_rules rules).exists_paymentChange? account) trivial
    | transferAsset t =>
      have payable := isPayable_of_rules (List.forall_mem_cons.mp rules).2
      exact iff_of_true (payable.exists_paymentChange? account) trivial
    | multiPayment m =>
      have payable := isPayable_of_rules (List.forall_mem_append.mp rules).2
      exact iff_of_true (payable.exists_paymentChange? account) trivial
    | createPoll c =>
      have has := (PollCreation.isGood_of_rules rules).fee
      exact iff_of_true (exists_feeChange? (Int.le_of_lt has.positive)) trivial
    | voteOnPoll b =>
      have has := (Ballot.isGood_of_rules rules).fee
      exact iff_of_true (exists_feeChange? (Int.le_of_lt has.positive)) trivial
    | issueAsset i =>
      have has := (AssetIssue.isGood_of_rules rules).fee
      exact iff_of_true (exists_feeChange? (Int.le_of_lt has.positive)) trivial
    | deployAt d =>
      have deploys := AtDeployment.isGood_of_rules rules
      exact iff_of_true (deploys.exists_change? d.atAddress account) trivial
    | settleAt settlement => exact (AtSettlement.isGood_of_rules rules).exists_change?_iff

end Record

/-! ## What calls leave of a record -/

variable {signature : Signature} {plan : Plan} {t : Transaction}

/-- A plan changes of a record what is only known once it is processed, and nothing else. -/
structure Plan.IsOf (r : Record) (plan : Plan) : Prop where
  during : plan.during.withoutDerived = r.withoutDerived
  after : plan.after.withoutDerived = r.withoutDerived

theorem Plan.IsOf.same {later : Record} {changes : List Change}
    (alike : later.withoutDerived = r.withoutDerived) : (Plan.same later changes).IsOf r :=
  ⟨alike, alike⟩

theorem Action.isOf_processing
    (planned : action.processing params s signature envelope = .ok plan) :
    plan.IsOf (.standard envelope action) := by
  cases action with
  | payment | transferAsset | multiPayment | settleAt | createPoll =>
    cases planned
    exact .same rfl
  | voteOnPoll b =>
    rcases processing_voteOnPoll_eq_ok_iff.mp planned with ⟨vote, -, rfl⟩
    exact .same rfl
  | issueAsset i =>
    rcases processing_issueAsset_eq_ok_iff.mp planned with ⟨id, -, rfl⟩
    exact .same rfl
  | deployAt d =>
    rcases processing_deployAt_eq_ok_iff.mp planned with ⟨version, seed, -, -, rfl⟩
    exact ⟨rfl, rfl⟩

theorem Record.isOf_processing (planned : r.processing params s signature = .ok plan) :
    plan.IsOf r := by
  cases r with
  | genesis g =>
    cases planned
    exact ⟨rfl, rfl⟩
  | standard envelope action =>
    obtain ⟨actionPlan, inner, rfl⟩ := processing_standard_eq_ok_iff.mp planned
    have of := Action.isOf_processing inner
    exact ⟨of.during, of.after⟩

theorem Record.isOf_undoing (planned : r.undoing signature = .ok plan) : plan.IsOf r := by
  cases r with
  | genesis g =>
    cases planned
    exact .same rfl
  | standard envelope action =>
    cases action with
    | payment | transferAsset | multiPayment | settleAt | createPoll | voteOnPoll =>
      cases planned
      exact .same rfl
    | issueAsset i =>
      cases numbered : i.assetId with
      | none => simp [undoing, Action.undoing, numbered] at planned
      | some id =>
        simp only [undoing, Action.undoing, numbered, Except.ok.injEq] at planned
        exact planned ▸ .same rfl
    | deployAt d =>
      cases placed : d.atAddress with
      | none => simp [undoing, Action.undoing, placed] at planned
      | some address =>
        simp only [undoing, Action.undoing, placed, Except.ok.injEq] at planned
        exact planned ▸ .same rfl

namespace Transaction

theorem withoutDerived_carryOut (of : plan.IsOf t.record) (stage : Stage) :
    (t.carryOut s stage plan).transaction.record.withoutDerived = t.record.withoutDerived := by
  obtain ⟨error, failed⟩ | done := carryOut_cases t s stage plan
  · rw [failed]
    exact of.during
  · rw [done]
    exact of.after

/-- **A call changes of a record only what is only known once it is processed.** -/
theorem withoutDerived_serve (t : Transaction) (call : Call) :
    (t.serve call).after.record.withoutDerived = t.record.withoutDerived := by
  obtain ⟨operation, params, s⟩ := call
  cases operation with
  | validate =>
    change (t.validate params s).2.record.withoutDerived = _
    obtain ⟨error, failed⟩ | ⟨verdict, -, -, decided⟩ := validate_cases params s t
    · rw [failed]
    · rw [decided]
  | process =>
    change (t.process params s).transaction.record.withoutDerived = _
    obtain ⟨error, refused⟩ | ⟨signature, plan, -, -, planned, carried⟩ := process_cases params s t
    · rw [refused]
      rfl
    · rw [carried]
      exact withoutDerived_carryOut (Record.isOf_processing planned) _
  | orphan =>
    change (t.orphan s).transaction.record.withoutDerived = _
    obtain ⟨error, refused⟩ | ⟨signature, -, -, -, failed | carries⟩ := orphan_cases s t
    · rw [refused]
      rfl
    · obtain ⟨error, -, refused⟩ := failed
      rw [refused]
      rfl
    · obtain ⟨plan, planned, carried⟩ := carries
      rw [carried]
      exact withoutDerived_carryOut (Record.isOf_undoing planned) _

/-- The transaction after calls. -/
def lived (t : Transaction) (calls : List Call) : Transaction :=
  calls.foldl (fun t call => (t.serve call).after) t

theorem withoutDerived_lived (t : Transaction) (calls : List Call) :
    (t.lived calls).record.withoutDerived = t.record.withoutDerived := by
  induction calls generalizing t with
  | nil => rfl
  | cons call rest ih => exact (ih _).trans (t.withoutDerived_serve call)

/-- **Good records report a balance change at any time**, settlements to their ATs apart. Once the
transaction was found good in some ledger, it has something to report for an account before and
after any calls of operations, in whatever ledgers, if it is not a settlement of that account; and
if it is, exactly if its fee fits. -/
theorem reports_iff (judged : (t.validate params s).1 = .ok .ok) (calls : List Call)
    (account : Address) :
    (∃ change, (t.lived calls).amountFor account = .ok change) ↔ t.record.FeeFits account := by
  have good : t.record.verdict params s = .ok .ok :=
    (good_of_validate (Prod.ext judged rfl)).1
  have alike := t.withoutDerived_lived calls
  have later : (t.lived calls).record.verdict params s = .ok .ok := by
    rw [← Record.verdict_withoutDerived, alike, Record.verdict_withoutDerived, good]
  simp only [amountFor_eq_ok_iff]
  rw [Record.exists_amountFor?_iff later account, ← Record.feeFits_withoutDerived, alike,
    Record.feeFits_withoutDerived]

end Transaction

/-! ## A settlement with too high a fee -/

namespace Reportable.Sample

/-- The address of an AT. -/
def deployed : Address := Address.ofSeed []

/-- What the AT has. -/
def allocation : Genesis := ⟨0, deployed, ⟨1000⟩⟩

/-- The ledger with these coins. -/
def ledger : Session :=
  (Submission.mk .allReleased (.genesis allocation)).after OrderedMap.empty.session

/-- A settlement of one unit and the highest fee there is. -/
def settlement : Record :=
  .standard ⟨1, (Record.genesis allocation).signature?.getD (.fill 0), ⟨Int64.maxValue⟩, none⟩
    (.settleAt ⟨deployed, Address.Sample.other, some ⟨nativeAsset, ⟨1⟩⟩, []⟩)

theorem judged_settlement :
    ((Transaction.received settlement).validate .allReleased ledger).1 = .ok .ok := by
  obtain ⟨reference, signed, known, funded, -⟩ := Genesis.opens (g := allocation) .allReleased
    (Address.isValid_ofSeed []) (by decide)
  have referred : (Record.genesis allocation).signature?.getD (.fill 0) = reference := by
    rw [signed]
    rfl
  rw [← referred] at known
  exact Transaction.validate_received_fst_eq_ok_iff.mpr (AtSettlement.verdict_eq_ok known
    (Nat.zero_le _) rfl (by decide) Address.Sample.isValid_other funded (by decide))

end Reportable.Sample

open Reportable.Sample

/-- The settlement reports nothing to its AT, and something to everybody else. -/
theorem Transaction.reports_iff_settlement :
    let t := Transaction.received settlement
    (t.validate .allReleased ledger).1 = .ok .ok ∧
      (¬∃ change, t.amountFor deployed = .ok change) ∧
      ∀ account, account ≠ deployed → ∃ change, t.amountFor account = .ok change := by
  refine ⟨judged_settlement, fun reported => ?_, fun account other => ?_⟩
  · have exceeds : ¬(Amount.toInt ⟨Int64.maxValue⟩ + Amount.toInt ⟨1⟩ ≤ Amount.largest) := by
      decide
    exact exceeds ((reports_iff judged_settlement [] deployed).mp reported rfl).high
  · exact (reports_iff judged_settlement [] account).mpr fun self => absurd self other

/-- **A good settlement overflows**: it is found good, and its report to its AT does not fit an
amount. -/
theorem Transaction.good_settlement_overflows :
    let t := Transaction.received settlement
    (t.validate .allReleased ledger).1 = .ok .ok ∧
      t.amountFor deployed = .error (.amountOverflow .at) := by
  have nothing : settlement.amountFor? deployed = none := by
    simp only [settlement, Record.amountFor?, AtSettlement.change?, if_true]
    rfl
  -- For any record: the address of this one would be reckoned out.
  have overflows : ∀ r : Record, r.amountFor? deployed = none →
      (received r).amountFor deployed = .error (.amountOverflow r.kind) := by
    intro r nothing
    simp only [amountFor, received, nothing]
  exact ⟨judged_settlement, overflows settlement nothing⟩

end ChainLedger

import ChainLedger.Proofs.Ledger.Agreement
import ChainLedger.Proofs.Run

/-!
# Judging and processing over ledgers that read alike

What a record is judged by, and what is planned for it, comes from rows that are read. So
over ledgers that read alike a record gets the same verdict, and processing it ends in the
same way and leaves them alike.
-/

namespace ChainLedger

open Change

variable {params : ChainParams} {s t : Session}

/-! ## Rules -/

section Assets

variable (same : s.asset? = t.asset?)
include same

/-- The rules for legs look at assets alone. -/
theorem Rule.assetAmount_congr : Rule.assetAmount s = Rule.assetAmount t := by
  have there : s.assetExists = t.assetExists := by
    funext id
    rw [Session.assetExists, Session.assetExists, same]
  funext id amount
  rw [Rule.assetAmount, Rule.assetAmount, there, same]

theorem Leg.rules_congr : Leg.rules s = Leg.rules t := by
  funext fee before leg
  rw [Leg.rules, Leg.rules, Rule.assetAmount_congr same]

theorem legRules_congr (fee : Amount) (before legs : List Leg) :
    legRules s fee before legs = legRules t fee before legs := by
  induction legs generalizing before with
  | nil => rfl
  | cons leg rest ih => rw [legRules, legRules, Leg.rules_congr same, ih]

end Assets

section Rules

variable (same : s.Agree t)
include same

theorem Rule.reference_congr : Rule.reference s = Rule.reference t := by
  funext account reference
  rw [Rule.reference, Rule.reference, same.lastReference]

theorem Rule.balance_congr : Rule.balance s = Rule.balance t := by
  funext account asset units
  rw [Rule.balance, Rule.balance, same.balance]

theorem paymentRules_congr : paymentRules s = paymentRules t := by
  funext sender legs fee
  rw [paymentRules, paymentRules, legRules_congr same.asset?, Rule.balance_congr same]

theorem Ballot.rules_congr (envelope : Envelope) (b : Ballot) (voter : Address) :
    b.rules params s envelope voter = b.rules params t envelope voter := by
  rw [Ballot.rules, Ballot.rules, same.pollExists, same.poll?, same.vote?, Rule.balance_congr same]

theorem AtSettlement.rules_congr (settlement : AtSettlement) :
    settlement.rules s = settlement.rules t := by
  have payments : settlement.paymentRules s = settlement.paymentRules t := by
    funext payment
    rw [AtSettlement.paymentRules, AtSettlement.paymentRules, Rule.assetAmount_congr same.asset?,
      Rule.balance_congr same]
  rw [AtSettlement.rules, AtSettlement.rules, payments]

theorem Action.rules_congr (envelope : Envelope) (action : Action) :
    action.rules params s envelope = action.rules params t envelope := by
  cases action with
  | payment _ | transferAsset _ => rw [Action.rules, Action.rules, paymentRules_congr same]
  | createPoll c =>
    rw [Action.rules, Action.rules, PollCreation.rules, PollCreation.rules, same.pollExists,
      Rule.balance_congr same]
  | voteOnPoll b => exact Ballot.rules_congr same envelope b _
  | issueAsset i =>
    rw [Action.rules, Action.rules, AssetIssue.rules, AssetIssue.rules, same.assetNameExists,
      Rule.balance_congr same]
  | multiPayment m =>
    rw [Action.rules, Action.rules, MultiPayment.rules, MultiPayment.rules,
      paymentRules_congr same, Rule.balance_congr same]
  | deployAt d =>
    rw [Action.rules, Action.rules, AtDeployment.rules, AtDeployment.rules,
      Rule.balance_congr same]
  | settleAt settlement => exact AtSettlement.rules_congr same settlement

/-- **A record is judged alike over ledgers that read alike.** -/
theorem Record.verdict_congr (r : Record) : r.verdict params s = r.verdict params t := by
  cases r with
  | genesis g => rfl
  | standard envelope action =>
    rw [Record.verdict, Record.verdict, Record.rules, Record.rules, Rule.reference_congr same,
      Action.rules_congr same]

/-! ## Plans -/

theorem Action.processing_congr (signature : Signature) (envelope : Envelope) (action : Action) :
    action.processing params s signature envelope =
      action.processing params t signature envelope := by
  cases action with
  | voteOnPoll b => rw [Action.processing, Action.processing, same.vote?]
  | issueAsset i => rw [Action.processing, Action.processing, same.nextAssetId]
  | payment _ | transferAsset _ | multiPayment _ | settleAt _ | createPoll _ | deployAt _ => rfl

theorem Record.processing_congr (signature : Signature) (r : Record) :
    r.processing params s signature = r.processing params t signature := by
  cases r with
  | genesis g => rfl
  | standard envelope action =>
    rw [Record.processing, Record.processing, Action.processing_congr same]

end Rules

/-! ## Processing -/

namespace Submission

variable {x : Submission}

theorem isAccepted_congr (same : s.Agree t) : x.IsAccepted s ↔ x.IsAccepted t := by
  rw [isAccepted_iff, isAccepted_iff, Record.verdict_congr same]

/-- **A record that is processed over a ledger is processed over each that reads alike**, and
the ledgers that it leaves read alike. -/
theorem agree_processed (same : s.Agree t) (accepted : x.IsAccepted s)
    (done : (x.processed s).outcome = .ok ()) :
    (x.processed t).outcome = .ok () ∧ (x.processed s).session.Agree (x.processed t).session := by
  obtain ⟨signature, plan, signed, planned, made, left⟩ := accepted.exists_of_processed done
  have both := agree_makeAll same plan.changes
  have planned' := (Record.processing_congr same signature x.record).symm.trans planned
  have made' := both.outcome.symm.trans made
  rw [left,
    ((isAccepted_congr same).mp accepted).processed_eq_of_plan signed planned' made']
  exact ⟨rfl, both.session⟩

end Submission

end ChainLedger

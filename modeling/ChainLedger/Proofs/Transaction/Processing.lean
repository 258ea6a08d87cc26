import ChainLedger.Proofs.Transaction.Plan
import ChainLedger.Proofs.Transaction.Step

/-!
# When processing can be planned

Processing reads balances, references and the numbers of the assets. A vote is planned from
the vote before it, an issue from the numbers of the assets, a deployment from its own
bytes, and anything else from nothing but the record. What is planned for the action of a
record ends by storing the record.
-/

namespace ChainLedger

open Change

/-- The rows that processing may have to read can be read. -/
structure Session.Sound (s : Session) : Prop where
  balance : ∀ account asset, s.Legible (.balance account asset)
  reference : ∀ account, s.Legible (.reference account)
  numbering : ∃ id, s.nextAssetId = .ok id

namespace Action

variable {params : ChainParams} {s : Session} {signature : Signature} {envelope : Envelope}
  {plan : Plan}

/-- A vote is planned as soon as the one before it is known. -/
theorem processing_voteOnPoll_eq_ok_iff {b : Ballot} :
    (Action.voteOnPoll b).processing params s signature envelope = .ok plan ↔
      ∃ vote, s.vote? b.poll b.voter = .ok vote ∧
        .same (.standard envelope (.voteOnPoll { b with previous := vote.map Vote.option }))
          (.saveVote b.toVote ::
            chargeFee (Action.voteOnPoll b).creator envelope.fee signature) = plan := by
  unfold processing
  cases found : s.vote? b.poll b.voter <;> simp [found]

/-- An issue is planned as soon as the number of the asset is known. -/
theorem processing_issueAsset_eq_ok_iff {i : AssetIssue} :
    (Action.issueAsset i).processing params s signature envelope = .ok plan ↔
      ∃ id, s.nextAssetId = .ok id ∧
        .same (.standard envelope (.issueAsset { i with assetId := some id }))
          ([.saveAsset (i.toAsset id signature),
              .setBalance i.owner id (Amount.ofCoins i.quantity)] ++
            chargeFee (Action.issueAsset i).creator envelope.fee signature) = plan := by
  unfold processing
  cases found : s.nextAssetId <;> simp

/-- A deployment is planned if its bytes begin with a version and the record has signing bytes,
from which the address of the AT comes. -/
theorem processing_deployAt_eq_ok_iff {d : AtDeployment} :
    (Action.deployAt d).processing params s signature envelope = .ok plan ↔
      ∃ version seed, d.codeVersion? = some version ∧
        (Record.standard envelope (.deployAt d)).signingBytes params = .ok seed ∧
        ⟨[.saveAt (.fresh (Address.ofSeed seed) (Action.deployAt d).creator envelope.timestamp
              version d.creationBytes),
            .adjust (Action.deployAt d).creator nativeAsset (-(envelope.fee + d.amount)),
            .adjust (Address.ofSeed seed) nativeAsset d.amount,
            .setReference (Action.deployAt d).creator signature,
            .setReference (Address.ofSeed seed) signature],
          .standard envelope (.deployAt d),
          .standard envelope (.deployAt { d with atAddress := some (Address.ofSeed seed) })⟩ =
            plan := by
  unfold processing
  cases versioned : d.codeVersion? <;>
    cases found : (Record.standard envelope (.deployAt d)).signingBytes params <;>
    simp [versioned, found]

end Action

namespace Record

variable {params : ChainParams} {s : Session} {signature : Signature} {r : Record} {plan : Plan}

/-- A plan of processing ends by storing what becomes of the record. -/
theorem processing_standard_eq_ok_iff {envelope : Envelope} {action : Action} :
    (Record.standard envelope action).processing params s signature = .ok plan ↔
      ∃ actionPlan, action.processing params s signature envelope = .ok actionPlan ∧
        { actionPlan with changes := actionPlan.changes ++ [.saveTransaction actionPlan.after] } =
          plan :=
  Except.map_eq_ok_iff

/-- Processing adds to the action of a record alone. -/
theorem exists_after {envelope : Envelope} {action : Action}
    (planned : action.processing params s signature envelope = .ok plan) :
    ∃ after, plan.after = .standard envelope after := by
  cases action with
  | payment | transferAsset | multiPayment | settleAt | createPoll =>
    cases planned
    exact ⟨_, rfl⟩
  | voteOnPoll b =>
    rcases Action.processing_voteOnPoll_eq_ok_iff.mp planned with ⟨vote, -, rfl⟩
    exact ⟨_, rfl⟩
  | issueAsset i =>
    rcases Action.processing_issueAsset_eq_ok_iff.mp planned with ⟨id, -, rfl⟩
    exact ⟨_, rfl⟩
  | deployAt d =>
    rcases Action.processing_deployAt_eq_ok_iff.mp planned with ⟨version, seed, -, -, rfl⟩
    exact ⟨_, rfl⟩

/-- It leaves the signature alone. -/
theorem signature?_after (planned : r.processing params s signature = .ok plan) :
    plan.after.signature? = r.signature? := by
  cases r with
  | genesis g =>
    cases planned
    rfl
  | standard envelope action =>
    obtain ⟨actionPlan, actionPlanned, rfl⟩ := processing_standard_eq_ok_iff.mp planned
    obtain ⟨after, same⟩ := exists_after actionPlanned
    change actionPlan.after.signature? = _
    rw [same]
    rfl

/-- The record is stored last. -/
theorem exists_saving (planned : r.processing params s signature = .ok plan) :
    ∃ changes, plan.changes = changes ++ [.saveTransaction plan.after] := by
  obtain ⟨inner, -, rfl⟩ := Except.map_eq_ok_iff.mp planned
  exact ⟨inner.changes, rfl⟩

end Record

end ChainLedger

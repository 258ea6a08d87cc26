import ChainLedger.Proofs.Address
import ChainLedger.Proofs.Transaction.Conditions
import ChainLedger.Proofs.Transaction.Processing

/-!
# Good records can be stored

The rules bound every text, list and byte string of a record, and a valid address is a
short text, so that what a good record saves is read back, and so is the record itself.
What no rule looks at are the account of a settlement, its recipient where it pays
nothing, and the address in a deployment that was processed before.
-/

namespace ChainLedger

open Form (Fits)

variable {params : ChainParams} {s : Session} {creator : Address} {fee : Amount}

/-- Short texts can be stored. -/
theorem fits_of_le {length limit : Nat} (within : length ≤ limit)
    (short : limit ≤ 4096) : Fits length := by
  unfold Fits
  omega

theorem fits_of_isValid {address : Address} (valid : Address.isValid address = true) :
    Fits (Text.size address) :=
  fits_of_le (Address.size_le_of_isValid valid) (by decide)

/-! ## Rows -/

/-- What a good creation of a poll saves is read back. -/
theorem PollCreation.IsGood.storable {c : PollCreation} (good : c.IsGood s fee creator)
    (published : Timestamp) : (c.toPoll published).Storable :=
  ⟨fits_of_isValid good.owner, fits_of_le good.name (by decide),
    fits_of_le good.description (by decide), fits_of_le good.count (by decide),
    fun option member => fits_of_le (good.options option member) (by decide)⟩

/-- What a good vote saves is read back. -/
theorem Ballot.IsGood.storable {b : Ballot} (good : b.IsGood s fee creator) :
    b.toVote.Storable :=
  fits_of_le good.poll (by decide)

/-- What a good issue saves is read back. -/
theorem AssetIssue.IsGood.storable {i : AssetIssue} (good : i.IsGood s fee creator) (id : AssetId)
    (signature : Signature) : (i.toAsset id signature).Storable :=
  ⟨fits_of_isValid good.owner, fits_of_le good.name (by decide),
    fits_of_le good.description (by decide)⟩

/-! ## Records -/

/-- The addresses that no rule looks at are shorter than 2⁶⁴ bytes, as all texts are that a program
can hold. -/
def Record.AddressesFit : Record → Prop
  | .standard _ (.settleAt settlement) =>
    Fits (Text.size settlement.atAddress) ∧ Fits (Text.size settlement.recipient)
  | .standard _ (.deployAt d) => ∀ address ∈ d.atAddress, Fits (Text.size address)
  | .genesis _ | .standard .. => True

/-- **A good record can be stored.** -/
theorem Record.storable_of_verdict {r : Record} (good : r.verdict params s = .ok .ok)
    (fit : r.AddressesFit) : r.Storable := by
  cases r with
  | genesis g => exact fits_of_isValid (Genesis.isValid_of_verdict good)
  | standard envelope action =>
    have rules := rules_of_verdict good
    cases action with
    | payment p =>
      have payable := isPayable_of_rules rules
      exact fits_of_isValid (payable.recipients _ List.mem_cons_self)
    | transferAsset t =>
      have payable := isPayable_of_rules (List.forall_mem_cons.mp rules).2
      exact fits_of_isValid (payable.recipients _ List.mem_cons_self)
    | multiPayment m =>
      have payable := isPayable_of_rules (List.forall_mem_append.mp rules).2
      exact ⟨fits_of_le (MultiPayment.count_of_rules rules) (by decide),
        fun leg member => fits_of_isValid (payable.recipients leg member)⟩
    | createPoll c => exact (PollCreation.isGood_of_rules rules).storable envelope.timestamp
    | voteOnPoll b => exact (Ballot.isGood_of_rules rules).storable
    | issueAsset i => exact (AssetIssue.isGood_of_rules rules).storable 0 envelope.reference
    | deployAt d =>
      have deploys := AtDeployment.isGood_of_rules rules
      exact ⟨fits_of_le deploys.name (by decide), fits_of_le deploys.description (by decide),
        fits_of_le deploys.atType (by decide), fits_of_le deploys.tags (by decide),
        fits_of_le deploys.creationBytes (by decide), fit⟩
    | settleAt settlement =>
      have settles := AtSettlement.isGood_of_rules rules
      exact ⟨fit.1, fit.2, fits_of_le settles.message (by decide)⟩

/-- **So can what processing makes of it**: the address that a deployment is given is valid. -/
theorem Record.storable_after {r : Record} {signature : Signature} {plan : Plan}
    (good : r.verdict params s = .ok .ok) (fit : r.AddressesFit)
    (planned : r.processing params s signature = .ok plan) : plan.after.Storable := by
  have storable := storable_of_verdict good fit
  cases r with
  | genesis g =>
    cases planned
    exact storable
  | standard envelope action =>
    obtain ⟨_, actionPlanned, rfl⟩ := processing_standard_eq_ok_iff.mp planned
    cases action with
    | payment | transferAsset | multiPayment | settleAt | createPoll =>
      cases actionPlanned
      exact storable
    | voteOnPoll b =>
      obtain ⟨_, -, rfl⟩ := Action.processing_voteOnPoll_eq_ok_iff.mp actionPlanned
      exact storable
    | issueAsset i =>
      obtain ⟨_, -, rfl⟩ := Action.processing_issueAsset_eq_ok_iff.mp actionPlanned
      exact storable
    | deployAt d =>
      obtain ⟨_, seed, -, -, rfl⟩ := Action.processing_deployAt_eq_ok_iff.mp actionPlanned
      obtain ⟨name, description, atType, tags, creationBytes, -⟩ := storable
      refine ⟨name, description, atType, tags, creationBytes, fun address given => ?_⟩
      rw [← Option.mem_some.mp given]
      exact fits_of_isValid (Address.isValid_ofSeed seed)

end ChainLedger

import ChainLedger.Proofs.Transaction.Making

/-!
# What undoing makes

Undoing makes changes of eleven forms. The rows of polls and votes are touched only where a
poll was created or a vote was cast, those of assets only where one was issued, and those of
ATs only where one was deployed.
-/

namespace ChainLedger

open Change

variable {r : Record} {change : Change} {signature : Signature} {plan : Plan}

/-- The vote that a ballot took the place of, if it is known that there was one. -/
def Record.replacedVote? : Record → Option Vote
  | .standard _ (.voteOnPoll b) => b.previous.map fun option => ⟨b.poll, b.voter, option⟩
  | .genesis _ | .standard .. => none

/-- The changes that undoing a record may make. -/
inductive Record.Unmakes : Record → Change → Prop
  | adjust {r account asset delta} : Unmakes r (.adjust account asset delta)
  | setReference {r account reference} : Unmakes r (.setReference account reference)
  | retract {r account reference} : Unmakes r (.retract account reference)
  | setBalance {g account asset balance} :
    Unmakes (.genesis g) (.setBalance account asset balance)
  | clearReference {r account} : Unmakes r (.clearReference account)
  | deletePoll {envelope} {c : PollCreation} :
    Unmakes (.standard envelope (.createPoll c)) (.deletePoll c.name)
  | saveVote {r vote} (replaced : vote ∈ r.replacedVote?) : Unmakes r (.saveVote vote)
  | deleteVote {envelope} {b : Ballot} :
    Unmakes (.standard envelope (.voteOnPoll b)) (.deleteVote b.poll b.voter)
  | deleteAsset {envelope i id} : Unmakes (.standard envelope (.issueAsset i)) (.deleteAsset id)
  | clearBalance {envelope i account asset} :
    Unmakes (.standard envelope (.issueAsset i)) (.clearBalance account asset)
  | deleteAt {envelope d address} :
    Unmakes (.standard envelope (.deployAt d)) (.deleteAt address)

theorem Record.unmakes_refundFee {creator : Address} {fee : Amount} {reference : Signature} :
    ∀ change ∈ refundFee creator fee reference, r.Unmakes change := by
  rw [refundFee, List.forall_mem_cons, List.forall_mem_singleton]
  exact ⟨.adjust, .setReference⟩

theorem Record.unmakes_moveAllBack {creator : Address} {legs : List Leg} :
    ∀ change ∈ moveAllBack creator signature legs, r.Unmakes change := by
  intro change member
  rcases List.mem_flatMap.mp member with ⟨leg, -, moved⟩
  rcases List.mem_append.mp moved with adjusted | retracted
  · simp only [List.mem_cons, List.not_mem_nil, or_false] at adjusted
    rcases adjusted with rfl | rfl <;> exact .adjust
  · split at retracted
    next =>
      rw [List.mem_singleton.mp retracted]
      exact .retract
    next => cases retracted

/-- **What undoing makes** of the ledger, kind by kind. -/
theorem Record.unmakes_undoing (planned : r.undoing signature = .ok plan) :
    ∀ change ∈ plan.changes, r.Unmakes change := by
  cases r with
  | genesis g =>
    cases planned
    exact List.forall_mem_cons.mpr ⟨.setBalance, List.forall_mem_singleton.mpr .clearReference⟩
  | standard envelope action =>
    cases action with
    | payment | transferAsset | multiPayment =>
      cases planned
      refine List.forall_mem_append.mpr ⟨unmakes_moveAllBack, ?_⟩
      exact List.forall_mem_cons.mpr ⟨.setReference, List.forall_mem_singleton.mpr .adjust⟩
    | settleAt =>
      cases planned
      exact List.forall_mem_append.mpr
        ⟨unmakes_moveAllBack, List.forall_mem_singleton.mpr .setReference⟩
    | createPoll c =>
      cases planned
      exact List.forall_mem_cons.mpr ⟨.deletePoll, unmakes_refundFee⟩
    | voteOnPoll b =>
      cases planned
      refine List.forall_mem_cons.mpr ⟨?_, unmakes_refundFee⟩
      cases earlier : b.previous with
      | none => exact .deleteVote
      | some option => exact .saveVote (by simp [replacedVote?, earlier])
    | issueAsset i =>
      simp only [undoing, Action.undoing] at planned
      split at planned
      next => cases planned
      next =>
        cases planned
        exact List.forall_mem_append.mpr
          ⟨List.forall_mem_cons.mpr ⟨.deleteAsset, List.forall_mem_singleton.mpr .clearBalance⟩,
            unmakes_refundFee⟩
    | deployAt d =>
      simp only [undoing, Action.undoing] at planned
      split at planned
      next => cases planned
      next =>
        cases planned
        simp only [Plan.same, List.forall_mem_cons, List.not_mem_nil, false_implies, implies_true,
          and_true]
        exact ⟨.deleteAt, .adjust, .clearReference, .adjust, .setReference⟩

/-- No stored record is touched. -/
theorem Record.Unmakes.unstored (unmakes : r.Unmakes change) : "tx/" ∉ change.families := by
  cases unmakes <;> simp [families]

/-! ## When it can be planned -/

/-- **What was processed can be undone**: what undoing uses of the record was put there. -/
theorem Record.exists_undoing {params : ChainParams} {s : Session}
    (planned : r.processing params s signature = .ok plan) :
    ∃ back, plan.after.undoing signature = .ok back := by
  cases r with
  | genesis g =>
    cases planned
    exact ⟨_, rfl⟩
  | standard envelope action =>
    obtain ⟨_, actionPlanned, rfl⟩ := processing_standard_eq_ok_iff.mp planned
    cases action with
    | payment | transferAsset | multiPayment | settleAt | createPoll =>
      cases actionPlanned
      exact ⟨_, rfl⟩
    | voteOnPoll b =>
      obtain ⟨_, -, rfl⟩ := Action.processing_voteOnPoll_eq_ok_iff.mp actionPlanned
      exact ⟨_, rfl⟩
    | issueAsset i =>
      obtain ⟨_, -, rfl⟩ := Action.processing_issueAsset_eq_ok_iff.mp actionPlanned
      exact ⟨_, rfl⟩
    | deployAt d =>
      obtain ⟨_, _, -, -, rfl⟩ := Action.processing_deployAt_eq_ok_iff.mp actionPlanned
      exact ⟨_, rfl⟩

end ChainLedger

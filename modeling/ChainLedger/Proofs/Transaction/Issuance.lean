import ChainLedger.Proofs.Run
import ChainLedger.Proofs.Transaction.SolventStep

/-!
# Balances of issued assets

Nobody has anything of an asset that was not issued. What a leg moves has to be there,
and an issue saves its asset before it brings any units of it. That needs no bound on
the coins: it also holds of ledgers in which balances have wrapped around. So nobody
has anything under the next number, as long as the numbers do not run out.
-/

namespace ChainLedger

open Change

/-- Coins are there from the start, any other asset once it was issued. -/
def Session.IsIssued (s : Session) (asset : AssetId) : Prop :=
  asset = nativeAsset ∨ s.holds (.asset asset) = true

/-- Nobody has anything of an asset that was not issued. -/
def Session.HoldsIssued (s : Session) : Prop :=
  ∀ account asset, ¬s.IsIssued asset → s.units account asset = 0

namespace Session

variable {s t : Session}

theorem holdsIssued_empty : OrderedMap.empty.session.HoldsIssued := fun _ _ _ => rfl

/-- Where the same rows are read, the same assets are issued and held. -/
theorem HoldsIssued.congr (holds : s.HoldsIssued) (same : ∀ key, t.get? key = s.get? key) :
    t.HoldsIssued := by
  intro account asset unissued
  rw [IsIssued, Session.holds, contains, same] at unissued
  rw [units_congr (balance_congr (same _)), holds account asset unissued]

/-- Nobody has anything under the next number. -/
theorem HoldsIssued.unheld (holds : s.HoldsIssued) {id : AssetId} (next : s.nextAssetId = .ok id)
    (left : id ≠ nativeAsset) (account : Address) : s.units account id = 0 := by
  refine holds account id (not_or.mpr ⟨left, ?_⟩)
  rw [not_holds_nextAssetId next left]
  exact Bool.false_ne_true

/-- In a solvent ledger balances are backed by what was issued. -/
theorem Solvent.holdsIssued {minted : Int} {issued : Nat} (solvent : s.Solvent minted issued) :
    s.HoldsIssued := by
  intro account asset unissued
  rw [IsIssued, not_or] at unissued
  have most := solvent.backed.units_le account asset
  have least := solvent.backed.nonneg account asset
  rw [supplies, if_neg unissued.1, if_neg unissued.2] at most
  exact le_antisymm most least

end Session

/-! ## Changes -/

namespace Change

variable {s t : Session} {change : Change} {changes : List Change} {asset : AssetId}

/-- The change takes no asset away, and touches no balance but those of issued assets. -/
def OnIssued (s : Session) : Change → Prop
  | .adjust _ asset _ | .setBalance _ asset _ | .clearBalance _ asset => s.IsIssued asset
  | .deleteAsset _ => False
  | _ => True

theorem OnIssued.mono (on : change.OnIssued s)
    (more : ∀ asset, s.IsIssued asset → t.IsIssued asset) : change.OnIssued t := by
  cases change with
  | adjust | setBalance | clearBalance => exact more _ on
  | _ => exact on

/-- An asset stays issued. -/
theorem isIssued_make (on : change.OnIssued s) (issued : s.IsIssued asset) :
    (change.make s).session.IsIssued asset := by
  rcases issued with coins | held
  · exact .inl coins
  · right
    cases change with
    | saveAsset saved => exact (s.holds_saveAsset saved asset).trans (by rw [held, Bool.or_true])
    | deleteAsset => exact on.elim
    | _ =>
      rw [Session.holds, Session.contains,
        get?_make (not_writes_of_family (by simp [Cell.family, families]))]
      exact held

theorem holdsIssued_make (holds : s.HoldsIssued) (on : change.OnIssued s)
    (made : (change.make s).outcome = .ok ()) : (change.make s).session.HoldsIssued := by
  intro account asset unissued
  have before : ¬s.IsIssued asset := fun issued => unissued (isIssued_make on issued)
  have kept : onBalance account asset change (s.balance account asset) =
      s.balance account asset := by
    cases change with
    | adjust | setBalance | clearBalance =>
      refine if_neg ?_
      rintro ⟨-, rfl⟩
      exact before on
    | _ => rfl
  rw [Session.units_congr ((balance_make made account asset).trans kept),
    holds account asset before]

/-- **Changes of issued assets give nobody anything else.** -/
theorem holdsIssued_makeAll (holds : s.HoldsIssued) (on : ∀ change ∈ changes, change.OnIssued s)
    (made : (makeAll changes s).outcome = .ok ()) : (makeAll changes s).session.HoldsIssued := by
  induction changes generalizing s with
  | nil => exact holds
  | cons change rest ih =>
    rw [List.forall_mem_cons] at on
    rcases makeAll_cons_eq_ok_iff.mp made with ⟨first, later⟩
    rw [makeAll_cons_of_ok first]
    refine ih (holdsIssued_make holds on.1 first) (fun next member => ?_) later
    exact (on.2 next member).mono fun asset => isIssued_make on.1

end Change

/-! ## Parts of plans -/

section Plans

variable {params : ChainParams} {s : Session} {envelope : Envelope} {action : Action}
  {signature : Signature} {creator sender : Address} {fee : Amount} {legs : List Leg} {plan : Plan}
  {changes : List Change}

theorem onIssued_chargeFee : ∀ change ∈ chargeFee creator fee signature, change.OnIssued s := by
  simp [chargeFee, OnIssued, Session.IsIssued]

theorem onIssued_moveAll (issued : ∀ leg ∈ legs, s.IsIssued leg.assetId) :
    ∀ change ∈ moveAll sender signature legs, change.OnIssued s := by
  intro change member
  rcases List.mem_flatMap.mp member with ⟨leg, sent, moved⟩
  rcases List.mem_append.mp moved with adjusted | introduced
  · simp only [List.mem_cons, List.not_mem_nil, or_false] at adjusted
    rcases adjusted with rfl | rfl <;> exact issued leg sent
  · split at introduced
    next =>
      rw [List.mem_singleton] at introduced
      subst introduced
      trivial
    next => cases introduced

theorem IsPayable.onIssued (payable : IsPayable s sender legs fee) :
    ∀ change ∈ chargeFee sender fee signature ++ moveAll sender signature legs,
      change.OnIssued s :=
  List.forall_mem_append.mpr ⟨onIssued_chargeFee, onIssued_moveAll payable.issued⟩

/-- What a settlement pays is issued. -/
theorem AtSettlement.IsGood.onIssued {settlement : AtSettlement} (good : settlement.IsGood s) :
    ∀ change ∈ moveAll sender signature settlement.legs, change.OnIssued s := by
  refine onIssued_moveAll fun leg member => ?_
  rcases List.mem_map.mp member with ⟨payment, paid, rfl⟩
  exact good.issued payment (Option.mem_toList.mp paid)

/-- An issue brings units of the asset that it saves. -/
theorem holdsIssued_issue {i : AssetIssue} {id : AssetId} (holds : s.HoldsIssued)
    (planned : [.saveAsset (i.toAsset id signature),
      .setBalance i.owner id (Amount.ofCoins i.quantity)] ++ chargeFee creator fee signature =
        changes)
    (made : (makeAll changes s).outcome = .ok ()) : (makeAll changes s).session.HoldsIssued := by
  subst planned
  rcases makeAll_cons_eq_ok_iff.mp made with ⟨saved, later⟩
  rw [List.cons_append, makeAll_cons_of_ok saved]
  have issued : (s.saveAsset (i.toAsset id signature)).IsIssued id := by
    right
    rw [Session.holds_saveAsset]
    simp [AssetIssue.toAsset]
  refine holdsIssued_makeAll (holdsIssued_make holds trivial saved) ?_ later
  exact List.forall_mem_cons.mpr ⟨issued, onIssued_chargeFee⟩

/-! ## Accepted records -/

/-- **A good action gives nobody anything of an asset that is not issued.** -/
theorem Action.holdsIssued_processing (holds : s.HoldsIssued)
    (good : (Record.standard envelope action).verdict params s = .ok .ok)
    (planned : action.processing params s signature envelope = .ok plan)
    (made : (makeAll plan.changes s).outcome = .ok ()) :
    (makeAll plan.changes s).session.HoldsIssued := by
  have rules := Record.rules_of_verdict good
  have fee : ∀ change ∈ chargeFee action.creator envelope.fee signature, change.OnIssued s :=
    onIssued_chargeFee
  cases action with
  | payment p =>
    cases planned
    exact holdsIssued_makeAll holds (isPayable_of_rules rules).onIssued made
  | transferAsset t =>
    cases planned
    have payable := isPayable_of_rules (List.forall_mem_cons.mp rules).2
    exact holdsIssued_makeAll holds payable.onIssued made
  | multiPayment m =>
    cases planned
    have payable := isPayable_of_rules (List.forall_mem_append.mp rules).2
    exact holdsIssued_makeAll holds payable.onIssued made
  | settleAt settlement =>
    cases planned
    have pays := AtSettlement.isGood_of_rules rules
    exact holdsIssued_makeAll holds (List.forall_mem_cons.mpr ⟨trivial, pays.onIssued⟩) made
  | createPoll c =>
    cases planned
    exact holdsIssued_makeAll holds (List.forall_mem_cons.mpr ⟨trivial, fee⟩) made
  | voteOnPoll b =>
    rcases processing_voteOnPoll_eq_ok_iff.mp planned with ⟨vote, -, rfl⟩
    exact holdsIssued_makeAll holds (List.forall_mem_cons.mpr ⟨trivial, fee⟩) made
  | issueAsset i =>
    rcases processing_issueAsset_eq_ok_iff.mp planned with ⟨id, -, rfl⟩
    exact holdsIssued_issue holds rfl made
  | deployAt d =>
    rcases processing_deployAt_eq_ok_iff.mp planned with ⟨version, seed, -, -, rfl⟩
    exact holdsIssued_makeAll holds (by simp [OnIssued, Session.IsIssued]) made

/-- **Every record that is accepted and processed** leaves it so that nobody has anything of an
asset that is not issued. -/
theorem Submission.holdsIssued_processed {x : Submission} (holds : s.HoldsIssued)
    (accepted : x.IsAccepted s) (done : (x.processed s).outcome = .ok ()) :
    (x.processed s).session.HoldsIssued := by
  have good := (isAccepted_iff.mp accepted).1
  obtain ⟨signature, all, signed, whole, made, same⟩ := accepted.exists_of_processed done
  rw [same]
  cases kind : x.record with
  | genesis g =>
    rw [kind] at whole
    cases whole
    exact holdsIssued_makeAll holds (by simp [Plan.same, OnIssued, Session.IsIssued]) made
  | standard envelope action =>
    rw [kind] at good whole
    rcases Record.processing_standard_eq_ok_iff.mp whole with ⟨plan, planned, rfl⟩
    rcases makeAll_append_eq_ok_iff.mp made with ⟨first, stored⟩
    rw [makeAll_append_of_ok first]
    refine holdsIssued_makeAll (Action.holdsIssued_processing holds good planned first) ?_ stored
    exact List.forall_mem_singleton.mpr trivial

end Plans

end ChainLedger

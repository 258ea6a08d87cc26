import ChainLedger.Proofs.Ledger.Order
import ChainLedger.Proofs.Run.Reached
import ChainLedger.Proofs.Transaction.Agreement
import ChainLedger.Proofs.Transaction.Authority
import ChainLedger.Proofs.Transaction.Replay

/-!
# Payments of different senders

A record takes from its creator alone, so another account is judged no worse after it: the
account has the reference that it had, at least as much of every asset, and the assets are
those that there were. Payments, moreover, only add to balances, and what they plan does
not depend on the ledger. So payments of different senders are independent: each of them is
good after the other one, and both orders leave the same balances and the same references
to all who had one.
-/

namespace ChainLedger

open Change

variable {params : ChainParams} {s t : Session} {envelope : Envelope} {action : Action}
  {signature : Signature} {account sender : Address} {legs : List Leg} {fee : Amount}
  {x y : Submission}

/-! ## Ledgers that are no worse for an account -/

/-- What an account is judged by as a payer is no worse in the other ledger: its reference is the
same, it has as much of every asset or more, and the assets are the same. -/
structure Session.Favours (account : Address) (s t : Session) : Prop where
  reference : ∀ held, s.lastReference account = .ok (some held) →
    t.lastReference account = .ok (some held)
  balance : ∀ asset before, s.balance account asset = .ok before →
    ∃ after, t.balance account asset = .ok after ∧ before.toInt ≤ after.toInt
  assets : s.asset? = t.asset?

namespace Session.Favours

/-- An account that had enough still has. -/
theorem holds_balance {asset : AssetId} {units : Int} (favours : s.Favours account t)
    (holds : (Rule.balance s account asset units).holds = .ok true) :
    (Rule.balance t account asset units).holds = .ok true := by
  obtain ⟨before, had, enough⟩ := Except.map_eq_ok_iff.mp holds
  obtain ⟨after, has, most⟩ := favours.balance asset before had
  have enough := of_decide_eq_true enough
  exact Except.map_eq_ok_iff.mpr ⟨after, has, decide_eq_true (enough.trans most)⟩

/-- Payments that were good still are. -/
theorem hold_paymentRules (favours : s.Favours sender t)
    (rules : ∀ rule ∈ paymentRules s sender legs fee, rule.holds = .ok true) :
    ∀ rule ∈ paymentRules t sender legs fee, rule.holds = .ok true := by
  rcases List.forall_mem_append.mp rules with ⟨front, balances⟩
  rw [legRules_congr favours.assets] at front
  refine List.forall_mem_append.mpr ⟨front, List.forall_mem_map.mpr fun asset among => ?_⟩
  exact favours.holds_balance (List.forall_mem_map.mp balances asset among)

end Session.Favours

/-! ## Kinds that pay -/

/-- The kinds that do nothing but to move what their creator has, for a fee. -/
def Kind.paying : List Kind := [.payment, .transferAsset, .multiPayment]

/-- What such a record plans depends on the record alone. -/
theorem Action.processing_paying (pays : action.kind ∈ Kind.paying) :
    action.processing params s signature envelope =
      .ok (.same (.standard envelope action) (chargeFee action.creator envelope.fee signature ++
        moveAll action.creator signature action.legs)) := by
  cases action with
  | payment | transferAsset | multiPayment => rfl
  | createPoll | voteOnPoll | issueAsset | deployAt | settleAt =>
    simp [Kind.paying, Action.kind] at pays

/-- It is judged by the rules for payments, among others. -/
theorem Action.paymentRules_hold_of_rules (pays : action.kind ∈ Kind.paying)
    (rules : ∀ rule ∈ action.rules params s envelope, rule.holds = .ok true) :
    ∀ rule ∈ paymentRules s action.creator action.legs envelope.fee, rule.holds = .ok true := by
  cases action with
  | payment => exact rules
  | transferAsset => exact (List.forall_mem_cons.mp rules).2
  | multiPayment => exact (List.forall_mem_append.mp rules).2
  | createPoll | voteOnPoll | issueAsset | deployAt | settleAt =>
    simp [Kind.paying, Action.kind] at pays

/-- The rules for it still hold where its creator is no worse off. -/
theorem Action.rules_of_favours (pays : action.kind ∈ Kind.paying)
    (favours : s.Favours action.creator t)
    (rules : ∀ rule ∈ action.rules params s envelope, rule.holds = .ok true) :
    ∀ rule ∈ action.rules params t envelope, rule.holds = .ok true := by
  have paid := favours.hold_paymentRules (paymentRules_hold_of_rules pays rules)
  cases action with
  | payment => exact paid
  | transferAsset =>
    exact List.forall_mem_cons.mpr ⟨(List.forall_mem_cons.mp rules).1, paid⟩
  | multiPayment m =>
    rcases List.forall_mem_append.mp rules with ⟨front, -⟩
    rcases List.forall_mem_append.mp front with ⟨plain, fees⟩
    refine List.forall_mem_append.mpr ⟨List.forall_mem_append.mpr ⟨plain, ?_⟩, paid⟩
    by_cases released : params.isPowfixReleased envelope.timestamp = true
    · rw [if_pos released, List.forall_mem_singleton] at fees ⊢
      exact favours.holds_balance fees
    · rw [if_neg released] at fees ⊢
      exact fees
  | createPoll | voteOnPoll | issueAsset | deployAt | settleAt =>
    simp [Kind.paying, Action.kind] at pays

/-- **A payment that was good still is** where its creator is no worse off. -/
theorem Record.verdict_of_favours (pays : action.kind ∈ Kind.paying)
    (favours : s.Favours action.creator t)
    (good : (Record.standard envelope action).verdict params s = .ok .ok) :
    (Record.standard envelope action).verdict params t = .ok .ok := by
  have kept := favours.reference _ (lastReference_of_verdict good)
  refine verdict_eq_ok_iff.mpr (List.forall_mem_cons.mpr ⟨?_, ?_⟩)
  · exact Except.map_eq_ok_iff.mpr ⟨_, kept, beq_self_eq_true _⟩
  · exact Action.rules_of_favours pays favours (rules_of_verdict good)

/-- Such a record is planned alike over all ledgers. -/
theorem Record.processing_paying (pays : action.kind ∈ Kind.paying) (s t : Session) :
    (Record.standard envelope action).processing params s signature =
      (Record.standard envelope action).processing params t signature := by
  rw [processing, processing, Action.processing_paying pays, Action.processing_paying pays]

/-- It replaces no balance. -/
theorem Record.replacesNoBalance_paying {plan : Plan} (pays : action.kind ∈ Kind.paying)
    (good : (Record.standard envelope action).verdict params s = .ok .ok)
    (planned : (Record.standard envelope action).processing params t signature = .ok plan) :
    ∀ change ∈ plan.changes, change.ReplacesNoBalance := by
  have payable := isPayable_of_rules
    (Action.paymentRules_hold_of_rules pays (rules_of_verdict good))
  rcases processing_standard_eq_ok_iff.mp planned with ⟨actionPlan, actionPlanned, rfl⟩
  rw [Action.processing_paying pays] at actionPlanned
  cases actionPlanned
  exact List.forall_mem_append.mpr ⟨(payable.adds signature).keep,
    List.forall_mem_singleton.mpr trivial⟩

/-- It deploys nothing. -/
theorem Record.deployed?_paying (pays : action.kind ∈ Kind.paying) :
    (Record.standard envelope action).deployed? params = none := by
  cases action with
  | payment | transferAsset | multiPayment => rfl
  | createPoll | voteOnPoll | issueAsset | deployAt | settleAt =>
    simp [Kind.paying, Action.kind] at pays

/-- It gives an account that had a reference none but its own signature, and that to its creator
alone. -/
theorem Record.onReference_paying {held : Signature} (pays : action.kind ∈ Kind.paying) :
    (Record.standard envelope action).onReference params signature account (.ok (some held)) =
      .ok (some (if action.creator = account then signature else held)) := by
  have creates : (Record.standard envelope action).creator? = some account ↔
      action.creator = account := by
    simp [Record.creator?]
  simp only [Record.onReference, Record.deployed?_paying pays, creates,
    onReference_introduce_some, ite_self, reduceCtorEq, or_false]
  split <;> rfl

namespace Submission

/-- **Whoever did not create a record is no worse off by it**, unless the record issues an asset or
deploys an AT at the account. -/
theorem favours_processed (standard : x.record = .standard envelope action)
    (accepted : x.IsAccepted s) (exact : x.AddsExactly s)
    (done : (x.processed s).outcome = .ok ()) (unissuing : action.kind ≠ .issueAsset)
    (undeployed : x.record.deployed? x.params ≠ some account) (other : action.creator ≠ account) :
    s.Favours account (x.processed s).session where
  reference held had := lastReference_kept standard accepted done other undeployed had
  balance asset before had := by
    have most := units_le_processed standard accepted exact
      (fun issues => absurd issues unissuing) done other asset
    obtain ⟨signature, plan, -, -, made, left⟩ := accepted.exists_of_processed done
    obtain ⟨after, has⟩ := Session.legible_balance_iff.mp
      (legible_balance_makeAll (Session.legible_balance_iff.mpr ⟨before, had⟩) made)
    rw [left] at most ⊢
    rw [Session.units_of_balance had, Session.units_of_balance has] at most
    exact ⟨after, has, most⟩
  assets := by
    obtain ⟨signature, plan, -, planned, -, left⟩ := accepted.exists_of_processed done
    have issues : x.record.kind ≠ .issueAsset := by
      rw [standard]
      exact unissuing
    rw [left]
    exact (Record.sameAssets_processing issues planned).asset?.symm

/-! ## One payment after the other -/

/-- Two payments of different senders. -/
structure Apart (x y : Submission) : Prop where
  pays : x.record.kind ∈ Kind.paying
  pays' : y.record.kind ∈ Kind.paying
  creators : x.record.creator? ≠ y.record.creator?

theorem exists_standard (pays : x.record.kind ∈ Kind.paying) :
    ∃ envelope action, x.record = .standard envelope action ∧ action.kind ∈ Kind.paying := by
  cases form : x.record with
  | genesis => simp [form, Record.kind, Kind.paying] at pays
  | standard envelope action =>
    rw [form] at pays
    exact ⟨envelope, action, rfl, pays⟩

/-- What a payment makes of a reference that an account has. -/
theorem lastReference_paying {held : Signature} (pays : x.record.kind ∈ Kind.paying)
    (accepted : x.IsAccepted s) (signed : x.record.signature? = some signature)
    (done : (x.processed s).outcome = .ok ())
    (had : s.lastReference account = .ok (some held)) :
    (x.processed s).session.lastReference account =
      .ok (some (if x.record.creator? = some account then signature else held)) := by
  obtain ⟨envelope, action, form, pays⟩ := exists_standard pays
  have creates : x.record.creator? = some account ↔ action.creator = account := by
    simp [form, Record.creator?]
  have moved : (Record.standard envelope action).onReference x.params signature account
      (.ok (some held)) = .ok (some (if action.creator = account then signature else held)) :=
    Record.onReference_paying pays
  rw [lastReference_processed form accepted signed done, had, form, moved]
  simp only [← form, creates]

/-- A payment replaces no balance. -/
theorem replacesNoBalance_paying {plan : Plan} (pays : x.record.kind ∈ Kind.paying)
    (accepted : x.IsAccepted s)
    (planned : x.record.processing x.params t signature = .ok plan) :
    ∀ change ∈ plan.changes, change.ReplacesNoBalance := by
  obtain ⟨envelope, action, form, pays⟩ := exists_standard pays
  have good := (isAccepted_iff.mp accepted).1
  rw [form] at good planned
  exact Record.replacesNoBalance_paying pays good planned

/-- An accepted payment is processed where balances and references can be read. -/
theorem processed_paying (pays : x.record.kind ∈ Kind.paying) (accepted : x.IsAccepted s)
    (balance : ∀ account asset, s.Legible (.balance account asset))
    (reference : ∀ account, s.Legible (.reference account)) :
    (x.processed s).outcome = .ok () := by
  obtain ⟨envelope, action, form, pays⟩ := exists_standard pays
  obtain ⟨-, signature, signed⟩ := isAccepted_iff.mp accepted
  obtain ⟨plan, planned⟩ : ∃ plan, x.record.processing x.params s signature = .ok plan := by
    rw [form]
    exact ⟨_, Record.processing_standard_eq_ok_iff.mpr
      ⟨_, Action.processing_paying pays, rfl⟩⟩
  rw [accepted.processed_eq_of_plan signed planned
    (Record.makeAll_planned balance reference signed planned)]

namespace Apart

variable (apart : Apart x y)
include apart

theorem symm : Apart y x := ⟨apart.pays', apart.pays, apart.creators.symm⟩

/-- **A payment is good after one of another sender**, if it was good before. -/
theorem isAccepted_processed (accepted : x.IsAccepted s) (accepted' : y.IsAccepted s)
    (exact : x.AddsExactly s) (done : (x.processed s).outcome = .ok ()) :
    y.IsAccepted (x.processed s).session := by
  obtain ⟨envelope, action, form, pays⟩ := exists_standard apart.pays
  obtain ⟨envelope', action', form', pays'⟩ := exists_standard apart.pays'
  rcases isAccepted_iff.mp accepted' with ⟨good, signed⟩
  refine isAccepted_iff.mpr ⟨?_, signed⟩
  rw [form'] at good ⊢
  have unissuing : action.kind ≠ .issueAsset := by
    intro issues
    simp [issues, Kind.paying] at pays
  have undeployed : x.record.deployed? x.params ≠ some action'.creator := by
    rw [form, Record.deployed?_paying pays]
    exact nofun
  have other : action.creator ≠ action'.creator := by
    intro same
    apply apart.creators
    rw [form, form', Record.creator?, Record.creator?, same]
  exact Record.verdict_of_favours pays'
    (favours_processed form accepted exact done unissuing undeployed other) good

/-- **The second payment is then processed** by the changes that were planned for it at first. -/
theorem processed_processed {plan plan' : Plan} {signature' : Signature}
    (accepted : x.IsAccepted s) (accepted' : y.IsAccepted s) (exact : x.AddsExactly s)
    (made : (makeAll plan.changes s).outcome = .ok ())
    (left : x.processed s =
      ⟨.ok (), ⟨plan.after, .processed⟩, (makeAll plan.changes s).session⟩)
    (signed' : y.record.signature? = some signature')
    (planned' : y.record.processing y.params s signature' = .ok plan')
    (made' : (makeAll plan'.changes s).outcome = .ok ()) :
    (makeAll (plan.changes ++ plan'.changes) s).outcome = .ok () ∧
      y.processed (x.processed s).session = ⟨.ok (), ⟨plan'.after, .processed⟩,
        (makeAll (plan.changes ++ plan'.changes) s).session⟩ := by
  have done : (x.processed s).outcome = .ok () := congrArg Step.outcome left
  have accepted'' := apart.isAccepted_processed accepted accepted' exact done
  obtain ⟨envelope', action', form', pays'⟩ := exists_standard apart.pays'
  have steady : ∀ change ∈ plan'.changes, change.IsSteady := fun change member =>
    (Record.makes_processing planned' change member).isSteady
  have made'' : (makeAll plan'.changes (makeAll plan.changes s).session).outcome = .ok () :=
    makeAll_of_asLegible steady (asLegible_makeAll made) made'
  have planned'' : y.record.processing y.params (makeAll plan.changes s).session signature' =
      .ok plan' := by
    rw [form'] at planned' ⊢
    rw [Record.processing_paying pays' _ s, planned']
  rw [left] at accepted'' ⊢
  refine ⟨makeAll_append_eq_ok_iff.mpr ⟨made, made''⟩, ?_⟩
  rw [makeAll_append_of_ok made]
  exact accepted''.processed_eq_of_plan signed' planned'' made''

section Orders

variable (accepted : x.IsAccepted s) (accepted' : y.IsAccepted s) (exact : x.AddsExactly s)
  (exact' : y.AddsExactly s) (done : (x.processed s).outcome = .ok ())
  (done' : (y.processed s).outcome = .ok ())
include accepted accepted' exact done done'

theorem outcome_processed : (y.processed (x.processed s).session).outcome = .ok () := by
  obtain ⟨_, plan, -, -, made, left⟩ := accepted.exists_of_processed done
  obtain ⟨_, plan', signed', planned', made', -⟩ := accepted'.exists_of_processed done'
  exact congrArg Step.outcome
    (apart.processed_processed accepted accepted' exact made left signed' planned' made').2

include exact'

/-- Both orders leave the same balances. -/
theorem balance_processed (account : Address) (asset : AssetId) :
    (y.processed (x.processed s).session).session.balance account asset =
      (x.processed (y.processed s).session).session.balance account asset := by
  obtain ⟨_, plan, signed, planned, made, left⟩ := accepted.exists_of_processed done
  obtain ⟨_, plan', signed', planned', made', left'⟩ := accepted'.exists_of_processed done'
  obtain ⟨both, forth⟩ :=
    apart.processed_processed accepted accepted' exact made left signed' planned' made'
  obtain ⟨both', back⟩ :=
    apart.symm.processed_processed accepted' accepted exact' made' left' signed planned made
  have keep : ∀ change ∈ plan.changes ++ plan'.changes, change.ReplacesNoBalance :=
    List.forall_mem_append.mpr ⟨replacesNoBalance_paying apart.pays accepted planned,
      replacesNoBalance_paying apart.pays' accepted' planned'⟩
  rw [forth, back]
  exact (balance_makeAll both account asset).trans
    ((onBalanceAll_perm List.perm_append_comm keep _).trans
      (balance_makeAll both' account asset).symm)

/-- Both orders leave the same reference to an account that had one. -/
theorem lastReference_processed {held : Signature}
    (had : s.lastReference account = .ok (some held)) :
    (y.processed (x.processed s).session).session.lastReference account =
      (x.processed (y.processed s).session).session.lastReference account := by
  obtain ⟨-, signature, signed⟩ := isAccepted_iff.mp accepted
  obtain ⟨-, signature', signed'⟩ := isAccepted_iff.mp accepted'
  have first := lastReference_paying apart.pays accepted signed done had
  have first' := lastReference_paying apart.pays' accepted' signed' done' had
  have forth := lastReference_paying apart.pays'
    (apart.isAccepted_processed accepted accepted' exact done) signed'
    (apart.outcome_processed accepted accepted' exact done done') first
  have back := lastReference_paying apart.pays
    (apart.symm.isAccepted_processed accepted' accepted exact' done') signed
    (apart.symm.outcome_processed accepted' accepted exact' done' done) first'
  rw [forth, back]
  by_cases itself : x.record.creator? = some account
  · have other : y.record.creator? ≠ some account := fun there =>
      apart.creators (itself.trans there.symm)
    rw [if_pos itself, if_neg other, if_pos itself]
  · rw [if_neg itself, if_neg itself]

end Orders

end Apart

/-- **Payments of different senders are independent.** Let two signed payments, transfers or
multi-payments of different senders be found good in a ledger, and let no balance wrap around when
either is processed there. Both are processed if the balances and references can be read. After
either one the other is still good. If both are processed in the ledger they are processed one
after the other in both orders, which leave the same balances, and the same reference to every
account that had one. -/
theorem independent_of_creators (pays : x.record.kind ∈ Kind.paying)
    (pays' : y.record.kind ∈ Kind.paying) (creators : x.record.creator? ≠ y.record.creator?)
    (accepted : x.IsAccepted s) (accepted' : y.IsAccepted s) (exact : x.AddsExactly s)
    (exact' : y.AddsExactly s) :
    ((∀ account asset, s.Legible (.balance account asset)) →
        (∀ account, s.Legible (.reference account)) →
        (x.processed s).outcome = .ok () ∧ (y.processed s).outcome = .ok ()) ∧
      ((x.processed s).outcome = .ok () → y.IsAccepted (x.processed s).session) ∧
      ((y.processed s).outcome = .ok () → x.IsAccepted (y.processed s).session) ∧
      ((x.processed s).outcome = .ok () → (y.processed s).outcome = .ok () →
        let forth := y.processed (x.processed s).session
        let back := x.processed (y.processed s).session
        forth.outcome = .ok () ∧ back.outcome = .ok () ∧
          (∀ account asset, forth.session.balance account asset =
            back.session.balance account asset) ∧
          ∀ account held, s.lastReference account = .ok (some held) →
            forth.session.lastReference account = back.session.lastReference account) := by
  have apart : Apart x y := ⟨pays, pays', creators⟩
  refine ⟨fun balance reference => ?_, apart.isAccepted_processed accepted accepted' exact,
    apart.symm.isAccepted_processed accepted' accepted exact', fun done done' => ?_⟩
  · exact ⟨processed_paying pays accepted balance reference,
      processed_paying pays' accepted' balance reference⟩
  · exact ⟨apart.outcome_processed accepted accepted' exact done done',
      apart.symm.outcome_processed accepted' accepted exact' done' done,
      apart.balance_processed accepted accepted' exact exact' done done',
      fun account held had =>
        apart.lastReference_processed accepted accepted' exact exact' done done' had⟩

end Submission

/-! ## Two accounts that pay each other -/

namespace Crossing

/-- A ledger in which two accounts have coins. -/
def ledger : Session := (Submission.mk .mainChain Replayed.allocation).after openedLedger

/-- A payment of the first account to the second. -/
def payment : Record :=
  .standard ⟨1, openedLedger.firstReference, ⟨100⟩, some openedLedger.laterSignature⟩
    (.payment ⟨.fill 6, Replayed.account, ⟨300⟩⟩)

theorem apart : openedLedger.account ≠ Replayed.account := by
  intro same
  exact Replayed.account_ne (same.symm.trans openedLedger.account_eq)

theorem ledger_facts :
    (ledger.lastReference openedLedger.account = .ok (some openedLedger.firstReference) ∧
      ledger.balance openedLedger.account nativeAsset = .ok ⟨1000⟩) ∧
    (ledger.lastReference Replayed.account = .ok (some Replayed.firstReference) ∧
      ledger.balance Replayed.account nativeAsset = .ok ⟨2000⟩) ∧
    ledger.Solvent 3000 0 := by
  obtain ⟨known, funded⟩ := openedLedger.opened
  obtain ⟨signature, signed, accepted⟩ : ∃ signature,
      Replayed.allocation.signature? = some signature ∧
        (Submission.mk .mainChain Replayed.allocation).IsAccepted openedLedger :=
    Genesis.exists_accepted .mainChain openedLedger
      (Address.isValid_ofPublicKey Replayed.key.bytes) (by decide)
  have first : Replayed.firstReference = signature :=
    congrArg (fun known => known.getD (.fill 0)) signed
  have kept := accepted.after_genesis_other signed apart nativeAsset
  have opened := accepted.after_genesis signed
  obtain ⟨-, solvent⟩ := Submission.solvent_after openedLedger.solvent
    (x := ⟨.mainChain, Replayed.allocation⟩) (fun _ => (by decide : (1000 + 2000 : Int) ≤ _))
    fun _ => (by decide : 0 + 0 < 2 ^ 64)
  rw [if_pos accepted] at solvent
  exact ⟨⟨kept.2.trans known, kept.1.trans funded⟩, ⟨first ▸ opened.2, opened.1⟩, solvent⟩

theorem independent_payments :
    let x : Submission := ⟨.allReleased, payment⟩
    let y : Submission := ⟨.mainChain, Replayed.payment Replayed.firstReference⟩
    x.record.kind ∈ Kind.paying ∧ y.record.kind ∈ Kind.paying ∧
      x.record.creator? ≠ y.record.creator? ∧ x.IsAccepted ledger ∧ y.IsAccepted ledger ∧
      x.AddsExactly ledger ∧ y.AddsExactly ledger ∧
      (x.processed ledger).outcome = .ok () ∧ (y.processed ledger).outcome = .ok () ∧
      y.IsAccepted (x.processed ledger).session ∧ x.IsAccepted (y.processed ledger).session ∧
      ∀ account asset,
        (y.processed (x.processed ledger).session).session.balance account asset =
          (x.processed (y.processed ledger).session).session.balance account asset := by
  obtain ⟨⟨known, funded⟩, ⟨known', funded'⟩, solvent⟩ := ledger_facts
  have accepted : (Submission.mk .allReleased payment).IsAccepted ledger :=
    Submission.isAccepted_iff.mpr ⟨Payment.verdict_eq_ok known
      (Address.isValid_ofPublicKey Replayed.key.bytes) (by decide) (by decide) funded (by decide),
      _, rfl⟩
  have accepted' := Replayed.isAccepted_payment known' funded' (by decide)
  have exact : (Submission.mk .allReleased payment).AddsExactly ledger := fun signature plan =>
    (Submission.solvent_after solvent (fun _ => by decide) fun _ => by decide).1.exact accepted
  have exact' : (Submission.mk .mainChain
      (Replayed.payment Replayed.firstReference)).AddsExactly ledger := fun signature plan =>
    (Submission.solvent_after solvent (fun _ => by decide) fun _ => by decide).1.exact accepted'
  have creators : (Submission.mk .allReleased payment).record.creator? ≠
      (Submission.mk .mainChain (Replayed.payment Replayed.firstReference)).record.creator? :=
    fun same => apart (Option.some.inj same)
  obtain ⟨succeed, forth, back, both⟩ := Submission.independent_of_creators (by decide) (by decide)
    creators accepted accepted' exact exact'
  obtain ⟨done, done'⟩ := succeed solvent.consultable.balance solvent.consultable.reference
  obtain ⟨-, -, balances, -⟩ := both done done'
  exact ⟨by decide, by decide, creators, accepted, accepted', exact, exact', done, done',
    forth done, back done', balances⟩

end Crossing

end ChainLedger

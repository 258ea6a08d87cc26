import ChainLedger.Proofs.Run.Deployment

/-!
# Allocations that are orphaned

An allocation puts coins and a reference in place of what its recipient has, and orphaning it
leaves the recipient with neither. So it takes the allocation back exactly where the recipient
had neither before. In a reached ledger no account has coins that has no reference, since coins
always come with one: there an allocation is taken back exactly if the recipient had no reference.
-/

namespace ChainLedger

open Change

variable {params : ChainParams} {s t : Session} {signature : Signature} {envelope : Envelope}
  {action : Action} {account : Address} {g : Genesis} {x : Submission}

/-! ## Coins come with a reference -/

/-- Whoever has no reference once a record is processed had none, did not create the record, is no
AT that it deploys and is brought no coins by it. -/
theorem Record.of_onReference_none {r : Record} {last : Except DataError (Option Signature)}
    (unreferred : r.onReference params signature account last = .ok none) :
    last = .ok none ∧ r.creator? ≠ some account ∧ r.deployed? params ≠ some account ∧
      ¬r.BringsCoins account := by
  unfold onReference at unreferred
  split at unreferred
  next => cases unreferred
  next neither =>
    rw [not_or] at neither
    split at unreferred
    next =>
      -- What introduces the account leaves it with a reference.
      cases last with
      | error error => simp [Change.onReference, Except.map] at unreferred
      | ok last => cases last <;> simp [Change.onReference, Except.map] at unreferred
    next brought => exact ⟨unreferred, neither.1, neither.2, brought⟩

/-- Changes leave a balance as it is that each of them leaves as it is. -/
theorem Change.onBalanceAll_of_forall {changes : List Change} {asset : AssetId}
    (each : ∀ change ∈ changes, ∀ balance, change.onBalance account asset balance = balance)
    (balance : Except DataError Amount) : onBalanceAll account asset changes balance = balance := by
  induction changes with
  | nil => rfl
  | cons change rest ih =>
    rw [List.forall_mem_cons] at each
    rw [onBalanceAll_cons, each.1, ih each.2]

section Others

variable {creator : Address} {legs : List Leg}

/-- A fee makes no difference to another account. -/
theorem onBalanceAll_chargeFee_other (other : creator ≠ account) (fee : Amount)
    (signature : Signature) (asset : AssetId) (balance : Except DataError Amount) :
    onBalanceAll account asset (chargeFee creator fee signature) balance = balance := by
  simp [chargeFee, onBalanceAll, onBalance, Ne.symm other]

/-- Moving legs makes no difference to the coins of whom they bring none. -/
theorem onBalanceAll_moveAll_other (other : creator ≠ account)
    (none : ¬∃ leg ∈ legs, leg.BringsCoins account) (balance : Except DataError Amount) :
    onBalanceAll account nativeAsset (moveAll creator signature legs) balance = balance := by
  refine onBalanceAll_of_forall (fun change member balance => ?_) balance
  rcases List.mem_flatMap.mp member with ⟨leg, listed, moved⟩
  rcases List.mem_append.mp moved with adjusted | introduced
  · simp only [List.mem_cons, List.not_mem_nil, or_false] at adjusted
    rcases adjusted with rfl | rfl
    · exact if_neg fun same => other same.1.symm
    · exact if_neg fun same => none ⟨leg, listed, same.2.symm, same.1⟩
  · split at introduced
    next =>
      rw [List.mem_singleton.mp introduced]
      rfl
    next => cases introduced

end Others

/-- **Coins come with a reference**: an action leaves the coins of an account alone that it leaves
without a reference, as long as an issue is not given the number of the coins. -/
theorem Action.onBalanceAll_of_unreferred {plan : Plan}
    {last : Except DataError (Option Signature)}
    (planned : action.processing params s signature envelope = .ok plan)
    (numbered : action.kind = .issueAsset → s.nextAssetId ≠ .ok nativeAsset)
    (unreferred : (Record.standard envelope action).onReference params signature account last =
      .ok none) (balance : Except DataError Amount) :
    onBalanceAll account nativeAsset plan.changes balance = balance := by
  obtain ⟨-, uncreated, undeployed, unpaid⟩ := Record.of_onReference_none unreferred
  have other : action.creator ≠ account := fun same => uncreated (congrArg some same)
  have unpaid : ¬∃ leg ∈ action.legs, leg.BringsCoins account := unpaid
  cases action with
  | payment | transferAsset | multiPayment =>
    cases planned
    exact (onBalanceAll_append ..).trans ((onBalanceAll_moveAll_other other unpaid _).trans
      (onBalanceAll_chargeFee_other other _ _ _ _))
  | settleAt =>
    cases planned
    exact onBalanceAll_moveAll_other other unpaid balance
  | createPoll =>
    cases planned
    exact onBalanceAll_chargeFee_other other _ signature _ balance
  | voteOnPoll =>
    rcases processing_voteOnPoll_eq_ok_iff.mp planned with ⟨vote, -, rfl⟩
    exact onBalanceAll_chargeFee_other other _ signature _ balance
  | issueAsset i =>
    rcases processing_issueAsset_eq_ok_iff.mp planned with ⟨id, next, rfl⟩
    have unlike : ¬(account = i.owner ∧ nativeAsset = id) := by
      rintro ⟨-, rfl⟩
      exact numbered rfl next
    refine (onBalanceAll_append ..).trans ((onBalanceAll_chargeFee_other other _ _ _ _).trans ?_)
    simp [onBalanceAll, onBalance, unlike]
  | deployAt d =>
    rcases processing_deployAt_eq_ok_iff.mp planned with ⟨version, seed, -, seeded, rfl⟩
    have elsewhere : Address.ofSeed seed ≠ account := by
      intro same
      apply undeployed
      rw [Record.deployed?, seeded, ← same]
      rfl
    generalize Address.ofSeed seed = address at elsewhere
    generalize (Action.deployAt d).creator = creator at other
    simp [onBalanceAll, onBalance, Ne.symm other, Ne.symm elsewhere]

namespace Session

/-- Nobody has coins who has no reference. -/
def CoinsReferred (s : Session) : Prop :=
  ∀ account, s.lastReference account = .ok none → s.balance account nativeAsset = .ok Amount.zero

theorem coinsReferred_empty : OrderedMap.empty.session.CoinsReferred := fun _ _ => rfl

theorem CoinsReferred.congr (referred : s.CoinsReferred) (same : s.Agree t) : t.CoinsReferred := by
  intro account unreferred
  have before : s.lastReference account = .ok none :=
    (read_congr (same _)).trans unreferred
  rw [← referred account before]
  exact (balance_congr (same _)).symm

/-- Processing an accepted record leaves nobody with coins and without a reference. -/
theorem CoinsReferred.processed (referred : s.CoinsReferred) (accepted : x.IsAccepted s)
    (done : (x.processed s).outcome = .ok ())
    (numbered : x.record.kind = .issueAsset → s.nextAssetId ≠ .ok nativeAsset) :
    (x.processed s).session.CoinsReferred := by
  obtain ⟨signature, plan, signed, planned, made, left⟩ := accepted.exists_of_processed done
  intro account unreferred
  cases standard : x.record with
  | genesis g =>
    rw [standard] at planned
    cases planned
    rw [left] at unreferred ⊢
    rw [lastReference_makeAll made] at unreferred
    rw [balance_makeAll made]
    by_cases same : account = g.recipient
    · simp [Plan.same, onReferenceAll, onReference, same] at unreferred
    · simp only [Plan.same, onReferenceAll, onReference, onBalanceAll, onBalance, List.cons_append,
        List.nil_append, List.foldl_cons, List.foldl_nil, same, false_and, if_false]
        at unreferred ⊢
      exact referred account unreferred
  | standard envelope action =>
    rw [Submission.lastReference_processed standard accepted signed done, standard] at unreferred
    rw [standard] at planned numbered
    obtain ⟨before, -⟩ := Record.of_onReference_none unreferred
    obtain ⟨actionPlan, inner, rfl⟩ := Record.processing_standard_eq_ok_iff.mp planned
    rw [left, balance_makeAll made, onBalanceAll_append,
      Action.onBalanceAll_of_unreferred inner numbered unreferred]
    exact referred account before

/-- The numbers of assets are bounded before a record is processed, if they are after it. -/
theorem Numbered.of_processed {issued : Nat} (numbered : (x.processed s).session.Numbered issued)
    (accepted : x.IsAccepted s) (done : (x.processed s).outcome = .ok ()) : s.Numbered issued := by
  obtain ⟨signature, plan, -, planned, -, left⟩ := accepted.exists_of_processed done
  rw [left] at numbered
  exact numbered.mono fun key _ held =>
    Record.isSome_get?_makeAll (Record.makes_processing planned) held

/-- **In a reached ledger nobody has coins who has no reference**, as long as the numbers of assets
have not run out. -/
theorem Reached.coinsReferred (reached : s.Reached) (numbered : s.Numbered (2 ^ 64 - 2)) :
    s.CoinsReferred := by
  induction reached with
  | empty => exact coinsReferred_empty
  | @processed s x reached accepted done ih =>
    have before := numbered.of_processed accepted done
    obtain ⟨id, next, unlike, -⟩ := before.exists_nextAssetId (by decide)
    refine (ih before).processed accepted done fun _ wrapped => unlike ?_
    exact Except.ok.inj (next.symm.trans wrapped)
  | @commit s reached ih =>
    have same : s.Agree s.commit.session := .commit s
    refine (ih (numbered.mono fun key _ held => ?_)).congr same
    rw [← same key]
    exact held

end Session

/-! ## There and back -/

/-- What an allocation changes when it is processed, and when it is orphaned. -/
def Genesis.undone (signature : Signature) (g : Genesis) : List Change :=
  [.setBalance g.recipient nativeAsset g.amount, .setReference g.recipient signature,
    .saveTransaction (.genesis g), .deleteTransaction (.genesis g),
    .setBalance g.recipient nativeAsset Amount.zero, .clearReference g.recipient]

/-- These changes can always be made. -/
theorem Genesis.makeAll_undone (signed : (Record.genesis g).signature? = some signature)
    (s : Session) : (makeAll (g.undone signature) s).outcome = .ok () := by
  have stored : (Record.genesis g).isSigned = true := Option.isSome_iff_exists.mpr ⟨_, signed⟩
  apply makeAll_eq_ok <;> simp [undone, IsSteady, Makeable, stored]

/-- The recipient is left without coins, and all others with those that they had. -/
theorem Genesis.balance_undone (signed : (Record.genesis g).signature? = some signature)
    (account : Address) (asset : AssetId) :
    (makeAll (g.undone signature) s).session.balance account asset =
      if account = g.recipient ∧ asset = nativeAsset then .ok Amount.zero
      else s.balance account asset := by
  rw [balance_makeAll (g.makeAll_undone signed s)]
  simp only [undone, onBalanceAll, onBalance, List.foldl_cons, List.foldl_nil]
  split <;> rfl

/-- The recipient is left without a reference, and all others with the one that they had. -/
theorem Genesis.lastReference_undone (signed : (Record.genesis g).signature? = some signature)
    (account : Address) :
    (makeAll (g.undone signature) s).session.lastReference account =
      if account = g.recipient then .ok none else s.lastReference account := by
  rw [lastReference_makeAll (g.makeAll_undone signed s)]
  simp only [undone, onReferenceAll, onReference, List.foldl_cons, List.foldl_nil]
  split <;> rfl

/-- Every account has as many coins in the one ledger as in the other, and the same reference. -/
def Session.SameCoins (s t : Session) : Prop :=
  ∀ account, t.balance account nativeAsset = s.balance account nativeAsset ∧
    t.lastReference account = s.lastReference account

/-- The coins and references come back exactly if the recipient had neither. -/
theorem Genesis.sameCoins_undone_iff (signed : (Record.genesis g).signature? = some signature) :
    s.SameCoins (makeAll (g.undone signature) s).session ↔
      s.balance g.recipient nativeAsset = .ok Amount.zero ∧
        s.lastReference g.recipient = .ok none := by
  simp only [Session.SameCoins, balance_undone signed, lastReference_undone signed, and_true]
  constructor
  · intro same
    obtain ⟨balance, reference⟩ := same g.recipient
    rw [if_pos rfl] at balance reference
    exact ⟨balance.symm, reference.symm⟩
  · rintro ⟨balance, reference⟩ account
    by_cases itself : account = g.recipient
    · rw [itself, if_pos rfl, if_pos rfl]
      exact ⟨balance.symm, reference.symm⟩
    · rw [if_neg itself, if_neg itself]
      exact ⟨rfl, rfl⟩

/-- A good allocation is processed and orphaned by these changes, in every ledger. -/
theorem Genesis.exists_undone (good : (Record.genesis g).verdict params s = .ok .ok) :
    ∃ signature, (Record.genesis g).signature? = some signature ∧
      let done := (Transaction.mk (.genesis g) .valid).process params s
      done.outcome = .ok () ∧ done.transaction.orphan done.session =
        ⟨.ok (), ⟨.genesis g, .orphaned⟩, (makeAll (g.undone signature) s).session⟩ := by
  obtain ⟨signature, signed⟩ := Genesis.exists_signature (Genesis.isValid_of_verdict good)
  exact ⟨signature, signed,
    Transaction.orphan_process_of_plans signed rfl signed rfl (g.makeAll_undone signed s)⟩

/-- A good allocation that is processed and orphaned leaves its recipient nothing. -/
theorem Genesis.recipient_undone (good : (Record.genesis g).verdict params s = .ok .ok) :
    let done := (Transaction.mk (.genesis g) .valid).process params s
    let undone := done.transaction.orphan done.session
    done.outcome = .ok () ∧ undone.outcome = .ok () ∧
      undone.session.balance g.recipient nativeAsset = .ok Amount.zero ∧
      undone.session.lastReference g.recipient = .ok none := by
  obtain ⟨signature, signed, done, undone⟩ := Genesis.exists_undone good
  refine ⟨done, congrArg Step.outcome undone, ?_, ?_⟩
  · rw [undone]
    exact (Genesis.balance_undone signed _ _).trans (if_pos ⟨rfl, rfl⟩)
  · rw [undone]
    exact (Genesis.lastReference_undone signed _).trans (if_pos rfl)

/-- **An allocation is taken back exactly if it was the first of its recipient.** In a reached
ledger a good allocation is processed and then orphaned. The recipient is left without coins and
without a reference, and everything else is as before. So all coins and references are as before
exactly if the recipient had neither; as long as the numbers of assets have not run out, exactly if
it had no reference. -/
theorem allocation_undone {valid : Transaction} (reached : s.Reached)
    (judged : (Transaction.received (.genesis g)).validate params s = (.ok .ok, valid)) :
    let done := valid.process params s
    let undone := done.transaction.orphan done.session
    done.outcome = .ok () ∧ undone.outcome = .ok () ∧
      (∀ account asset, undone.session.balance account asset =
        if account = g.recipient ∧ asset = nativeAsset then .ok Amount.zero
        else s.balance account asset) ∧
      (∀ account, undone.session.lastReference account =
        if account = g.recipient then .ok none else s.lastReference account) ∧
      (∀ c : Cell, c.family ∉ ["balance/", "reference/", "tx/"] →
        undone.session.read c = s.read c) ∧
      (s.SameCoins undone.session ↔ s.balance g.recipient nativeAsset = .ok Amount.zero ∧
        s.lastReference g.recipient = .ok none) ∧
      (s.Numbered (2 ^ 64 - 2) →
        (s.SameCoins undone.session ↔ s.lastReference g.recipient = .ok none)) := by
  rcases Transaction.validate_received_eq_iff.mp judged with ⟨good, rfl⟩
  obtain ⟨signature, signed, done, undone⟩ := Genesis.exists_undone good
  have restored := Genesis.sameCoins_undone_iff (s := s) signed
  refine ⟨done, congrArg Step.outcome undone, ?_⟩
  rw [undone]
  refine ⟨Genesis.balance_undone signed, Genesis.lastReference_undone signed, fun c other => ?_,
    restored, fun numbered => restored.trans (and_iff_right_of_imp ?_)⟩
  · refine read_makeAll (fun change member => not_writes_of_family fun among => other ?_) s
    simp only [Genesis.undone, List.mem_cons, List.not_mem_nil, or_false] at member
    rcases member with rfl | rfl | rfl | rfl | rfl | rfl <;> simp [families] at among <;>
      simp [among]
  · exact reached.coinsReferred numbered g.recipient

open openedLedger (account firstReference)

/-- Where another account is allocated coins, nothing is left of it. -/
theorem allocation_undone_opened :
    let g : Genesis := ⟨1, Address.Sample.other, ⟨500⟩⟩
    openedLedger.Reached ∧ (Transaction.received (.genesis g)).validate .allReleased openedLedger =
        (.ok .ok, ⟨.genesis g, .valid⟩) ∧
      let done := (Transaction.mk (.genesis g) .valid).process .allReleased openedLedger
      let undone := done.transaction.orphan done.session
      done.outcome = .ok () ∧ undone.outcome = .ok () ∧
        openedLedger.SameCoins undone.session := by
  intro g
  have good : (Record.genesis g).verdict .allReleased openedLedger = .ok .ok :=
    Genesis.verdict_eq_ok (by decide) Address.Sample.isValid_other
  have judged := Transaction.validate_received_eq_iff.mpr ⟨good, rfl⟩
  have numbered : openedLedger.Numbered (2 ^ 64 - 2) := by
    intro key held leads
    obtain ⟨id, same, below⟩ := openedLedger.solvent.numbered key held leads
    exact ⟨id, same, below.trans (by decide)⟩
  have unreferred : openedLedger.lastReference g.recipient = .ok none := by
    apply openedLedger.unreferred
    rw [openedLedger.account_eq]
    decide
  obtain ⟨done, undone, -, -, -, -, restored⟩ := allocation_undone openedLedger.reached judged
  exact ⟨openedLedger.reached, judged, done, undone, (restored numbered).mpr unreferred⟩

/-- **An allocation that is orphaned can leave a trace**: what an earlier one gave its recipient is
lost. -/
theorem allocation_leaves_trace :
    let g : Genesis := ⟨1, "QVbN9WGbczLY4rPWUxzEmipQjgr2m9dQmt", ⟨500⟩⟩
    openedLedger.Reached ∧ (Transaction.received (.genesis g)).validate .allReleased openedLedger =
        (.ok .ok, ⟨.genesis g, .valid⟩) ∧
      let done := (Transaction.mk (.genesis g) .valid).process .allReleased openedLedger
      let undone := done.transaction.orphan done.session
      done.outcome = .ok () ∧ undone.outcome = .ok () ∧
        openedLedger.balance g.recipient nativeAsset = .ok ⟨1000⟩ ∧
        undone.session.balance g.recipient nativeAsset = .ok Amount.zero ∧
        openedLedger.lastReference g.recipient = .ok (some firstReference) ∧
        undone.session.lastReference g.recipient = .ok none := by
  intro g
  have good : (Record.genesis g).verdict .allReleased openedLedger = .ok .ok :=
    Genesis.verdict_eq_ok (by decide) Address.Sample.isValid_account
  obtain ⟨known, funded⟩ : openedLedger.lastReference account = .ok (some firstReference) ∧
    openedLedger.balance account nativeAsset = .ok ⟨1000⟩ := openedLedger.opened
  rw [openedLedger.account_eq] at known funded
  obtain ⟨done, undone, poor, unreferred⟩ := Genesis.recipient_undone good
  exact ⟨openedLedger.reached, Transaction.validate_received_eq_iff.mpr ⟨good, rfl⟩, done, undone,
    funded, poor, known, unreferred⟩

end ChainLedger

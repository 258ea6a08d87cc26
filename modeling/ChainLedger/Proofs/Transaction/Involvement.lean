import ChainLedger.Proofs.Run.Deployment

/-!
# Who is involved

What a record concerns is told from the record alone, its creator and its recipients. What
it does to accounts is told from the changes that it makes: a change of a balance or of a
reference is a change of the account that has it. Every account that processing or
orphaning a record changes is involved in it.
-/

namespace ChainLedger

open Change

variable {params : ChainParams} {s : Session} {r : Record} {signature reference : Signature}
  {creator account : Address} {fee : Amount} {legs : List Leg} {envelope : Envelope}
  {action : Action} {plan : Plan}

/-! ## Accounts of changes -/

/-- The account that a cell belongs to. -/
def Cell.account? : Cell → Option Address
  | .balance account _ | .reference account => some account
  | _ => none

/-- The account whose balance or reference a change may write. -/
def Change.account? : Change → Option Address
  | .adjust account .. | .setBalance account .. | .clearBalance account _
  | .setReference account _ | .clearReference account | .introduce account _
  | .retract account _ => some account
  | _ => none

/-- A change writes cells of its own account only, and of none if it has none. -/
theorem Change.account?_of_writes {change : Change} {c : Cell} (writes : change.Writes c.key)
    (owned : c.account? = some account) : change.account? = some account := by
  cases change with
  | adjust | setBalance | clearBalance | setReference | clearReference | introduce | retract =>
    rw [Cell.key_injective writes] at owned
    exact owned
  | savePoll | deletePoll | saveVote | deleteVote | saveAsset | deleteAsset | saveAt | deleteAt
  | saveTransaction | deleteTransaction =>
    have member := family_mem_of_writes writes
    cases c <;> simp [Cell.account?, Cell.family, families] at owned member

/-- The account has another balance of some asset in the one ledger than in the other, or another
last reference. -/
def Session.Differs (account : Address) (s t : Session) : Prop :=
  (∃ asset, t.balance account asset ≠ s.balance account asset) ∨
    t.lastReference account ≠ s.lastReference account

/-- Changes of other accounts make no difference to an account, even where they fail. -/
theorem Change.not_differs_makeAll {changes : List Change}
    (other : ∀ change ∈ changes, change.account? ≠ some account) (s : Session) :
    ¬s.Differs account (makeAll changes s).session := by
  have kept : ∀ c : Cell, c.account? = some account →
      (makeAll changes s).session.get? c.key = s.get? c.key := by
    intro c owned
    refine get?_makeAll (fun change member writes => ?_) s
    exact other change member (account?_of_writes writes owned)
  rintro (⟨asset, differs⟩ | differs)
  · exact differs (balance_congr (kept (.balance account asset) rfl))
  · exact differs (Session.read_congr (kept (.reference account) rfl))

/-! ## Parties -/

theorem Record.isInvolved_iff :
    r.isInvolved account = true ↔ r.creator? = some account ∨ account ∈ r.recipients := by
  simp [isInvolved]

/-- Whoever a leg moves something to is a recipient. -/
theorem Action.recipient_mem_recipients {leg : Leg} (moved : leg ∈ action.legs) :
    leg.recipient ∈ action.recipients := by
  cases action with
  | payment p =>
    rw [List.mem_singleton.mp moved]
    exact List.mem_singleton_self _
  | transferAsset t =>
    rw [List.mem_singleton.mp moved]
    exact List.mem_singleton_self _
  | multiPayment m => exact List.mem_eraseDups.mpr (List.mem_map_of_mem moved)
  | settleAt a =>
    rcases List.mem_map.mp moved with ⟨paid, -, rfl⟩
    exact List.mem_singleton_self _
  | createPoll | voteOnPoll | issueAsset | deployAt => cases moved

/-- Only someone who is involved in the record may find a balance or reference changed. -/
def Record.Concerns (r : Record) (change : Change) : Prop :=
  ∀ account, change.account? = some account → r.isInvolved account = true

namespace Record.Concerns

theorem of_none {change : Change} (ownerless : change.account? = none) : r.Concerns change := by
  intro account owned
  rw [ownerless] at owned
  cases owned

theorem of_creator {change : Change} (owned : change.account? = r.creator?) :
    r.Concerns change :=
  fun _ itself => isInvolved_iff.mpr (.inl (owned.symm.trans itself))

theorem of_recipient {change : Change} (owned : change.account? = some account)
    (member : account ∈ r.recipients) : r.Concerns change := by
  intro other itself
  obtain rfl := Option.some.inj (owned.symm.trans itself)
  exact isInvolved_iff.mpr (.inr member)

/-- Paying a fee concerns the creator. -/
theorem chargeFee (creates : r.creator? = some creator) :
    ∀ change ∈ chargeFee creator fee signature, r.Concerns change := by
  rw [ChainLedger.chargeFee, List.forall_mem_cons, List.forall_mem_singleton]
  exact ⟨of_creator creates.symm, of_creator creates.symm⟩

theorem refundFee (creates : r.creator? = some creator) :
    ∀ change ∈ refundFee creator fee reference, r.Concerns change := by
  rw [ChainLedger.refundFee, List.forall_mem_cons, List.forall_mem_singleton]
  exact ⟨of_creator creates.symm, of_creator creates.symm⟩

/-- Moving legs concerns the creator and the recipients. -/
theorem moveAll (creates : r.creator? = some creator)
    (received : ∀ leg ∈ legs, leg.recipient ∈ r.recipients) :
    ∀ change ∈ moveAll creator signature legs, r.Concerns change := by
  intro change member
  rcases List.mem_flatMap.mp member with ⟨leg, listed, moved⟩
  have there := received leg listed
  rcases List.mem_append.mp moved with adjusted | introduced
  · simp only [List.mem_cons, List.not_mem_nil, or_false] at adjusted
    rcases adjusted with rfl | rfl
    · exact of_creator creates.symm
    · exact of_recipient rfl there
  · split at introduced
    next =>
      rw [List.mem_singleton.mp introduced]
      exact of_recipient rfl there
    next => cases introduced

theorem moveAllBack (creates : r.creator? = some creator)
    (received : ∀ leg ∈ legs, leg.recipient ∈ r.recipients) :
    ∀ change ∈ moveAllBack creator signature legs, r.Concerns change := by
  intro change member
  rcases List.mem_flatMap.mp member with ⟨leg, listed, moved⟩
  have there := received leg (List.mem_reverse.mp listed)
  rcases List.mem_append.mp moved with adjusted | retracted
  · simp only [List.mem_cons, List.not_mem_nil, or_false] at adjusted
    rcases adjusted with rfl | rfl
    · exact of_recipient rfl there
    · exact of_creator creates.symm
  · split at retracted
    next =>
      rw [List.mem_singleton.mp retracted]
      exact of_recipient rfl there
    next => cases retracted

end Record.Concerns

/-! ## Plans -/

/-- What processing an action does concerns those involved in the record that it leaves. -/
theorem Action.concerns_processing
    (planned : action.processing params s signature envelope = .ok plan) :
    ∀ change ∈ plan.changes, plan.after.Concerns change := by
  cases action with
  | payment | transferAsset | multiPayment =>
    cases planned
    exact List.forall_mem_append.mpr
      ⟨.chargeFee rfl, .moveAll rfl fun _ => recipient_mem_recipients⟩
  | settleAt =>
    cases planned
    exact List.forall_mem_cons.mpr
      ⟨.of_creator rfl, .moveAll rfl fun _ => recipient_mem_recipients⟩
  | createPoll =>
    cases planned
    exact List.forall_mem_cons.mpr ⟨.of_none rfl, .chargeFee rfl⟩
  | voteOnPoll =>
    rcases processing_voteOnPoll_eq_ok_iff.mp planned with ⟨vote, -, rfl⟩
    exact List.forall_mem_cons.mpr ⟨.of_none rfl, .chargeFee rfl⟩
  | issueAsset i =>
    rcases processing_issueAsset_eq_ok_iff.mp planned with ⟨id, -, rfl⟩
    refine List.forall_mem_append.mpr ⟨?_, .chargeFee rfl⟩
    rw [List.forall_mem_cons, List.forall_mem_singleton]
    exact ⟨.of_none rfl, .of_recipient rfl (List.mem_singleton_self i.owner)⟩
  | deployAt d =>
    rcases processing_deployAt_eq_ok_iff.mp planned with ⟨version, seed, -, -, rfl⟩
    generalize Address.ofSeed seed = address
    -- The AT is a recipient from the moment that its address is in the record.
    have placed : address ∈ (Record.standard envelope
        (.deployAt { d with atAddress := some address })).recipients :=
      List.mem_singleton_self address
    simp only [List.forall_mem_cons, List.not_mem_nil, false_implies, implies_true, and_true]
    exact ⟨.of_none rfl, .of_creator rfl, .of_recipient rfl placed, .of_creator rfl,
      .of_recipient rfl placed⟩

/-- What processing a record does concerns those involved in the record that it leaves. -/
theorem Record.concerns_processing (planned : r.processing params s signature = .ok plan) :
    ∀ change ∈ plan.changes, plan.after.Concerns change := by
  cases r with
  | genesis g =>
    cases planned
    have given : g.recipient ∈ (Record.genesis g).recipients := List.mem_singleton_self _
    simp only [Plan.same, List.cons_append, List.nil_append, List.forall_mem_cons,
      List.not_mem_nil, false_implies, implies_true, and_true]
    exact ⟨.of_recipient rfl given, .of_recipient rfl given, .of_none rfl⟩
  | standard envelope action =>
    rcases processing_standard_eq_ok_iff.mp planned with ⟨actionPlan, actionPlanned, rfl⟩
    exact List.forall_mem_append.mpr ⟨Action.concerns_processing actionPlanned,
      List.forall_mem_singleton.mpr (.of_none rfl)⟩

/-- What undoing an action does concerns those involved in the record that it begins with. -/
theorem Action.concerns_undoing (planned : action.undoing signature envelope = .ok plan) :
    ∀ change ∈ plan.changes, (Record.standard envelope action).Concerns change := by
  cases action with
  | payment | transferAsset | multiPayment =>
    cases planned
    refine List.forall_mem_append.mpr
      ⟨.moveAllBack rfl fun _ => recipient_mem_recipients, ?_⟩
    rw [List.forall_mem_cons, List.forall_mem_singleton]
    exact ⟨.of_creator rfl, .of_creator rfl⟩
  | settleAt =>
    cases planned
    exact List.forall_mem_append.mpr ⟨.moveAllBack rfl fun _ => recipient_mem_recipients,
      List.forall_mem_singleton.mpr (.of_creator rfl)⟩
  | createPoll =>
    cases planned
    exact List.forall_mem_cons.mpr ⟨.of_none rfl, .refundFee rfl⟩
  | voteOnPoll b =>
    cases planned
    refine List.forall_mem_cons.mpr ⟨?_, .refundFee rfl⟩
    cases b.previous <;> exact .of_none rfl
  | issueAsset i =>
    cases numbered : i.assetId with
    | none => simp [undoing, numbered] at planned
    | some id =>
      simp only [undoing, numbered, Except.ok.injEq] at planned
      subst planned
      refine List.forall_mem_append.mpr ⟨?_, .refundFee rfl⟩
      rw [List.forall_mem_cons, List.forall_mem_singleton]
      exact ⟨.of_none rfl, .of_recipient rfl (List.mem_singleton_self i.owner)⟩
  | deployAt d =>
    cases placed : d.atAddress with
    | none => simp [undoing, placed] at planned
    | some address =>
      simp only [undoing, placed, Except.ok.injEq] at planned
      subst planned
      have listed : address ∈ (Record.standard envelope (.deployAt d)).recipients :=
        Option.mem_toList.mpr placed
      simp only [Plan.same, List.forall_mem_cons, List.not_mem_nil, false_implies, implies_true,
        and_true]
      exact ⟨.of_none rfl, .of_recipient rfl listed, .of_recipient rfl listed, .of_creator rfl,
        .of_creator rfl⟩

/-- What undoing a record does concerns those involved in the record that it begins with. -/
theorem Record.concerns_undoing (planned : r.undoing signature = .ok plan) :
    ∀ change ∈ plan.changes, r.Concerns change := by
  cases r with
  | genesis g =>
    cases planned
    have given : g.recipient ∈ (Record.genesis g).recipients := List.mem_singleton_self _
    rw [Plan.same, List.forall_mem_cons, List.forall_mem_singleton]
    exact ⟨.of_recipient rfl given, .of_recipient rfl given⟩
  | standard envelope action => exact Action.concerns_undoing planned

/-! ## Steps -/

/-- Changes that concern a record make a difference only to those involved in it. -/
theorem Record.isInvolved_of_differs {changes : List Change}
    (concerns : ∀ change ∈ changes, r.Concerns change)
    (differs : s.Differs account (makeAll changes s).session) : r.isInvolved account = true := by
  by_contra apart
  refine not_differs_makeAll (fun change member owned => ?_) s differs
  exact apart (concerns change member account owned)

/-- **Only those who are involved are affected.** An account whose balance of any asset or whose
last reference is another once a transaction is processed is involved in the processed
transaction; one that orphaning it changes was involved in it just before. -/
theorem Transaction.isInvolved_of_affected (params : ChainParams) (s : Session) (t : Transaction) :
    ((t.process params s).outcome = .ok () →
      ∀ account, s.Differs account (t.process params s).session →
        (t.process params s).transaction.record.isInvolved account = true) ∧
    ((t.orphan s).outcome = .ok () →
      ∀ account, s.Differs account (t.orphan s).session → t.record.isInvolved account = true) := by
  constructor
  · intro done account differs
    obtain ⟨signature, plan, -, -, planned, -, left⟩ := exists_of_process done
    rw [left] at differs ⊢
    exact Record.isInvolved_of_differs (Record.concerns_processing planned) differs
  · intro done account differs
    obtain ⟨signature, plan, -, -, planned, -, left⟩ := exists_of_orphan done
    rw [left] at differs
    refine Record.isInvolved_of_differs (List.forall_mem_cons.mpr ⟨.of_none rfl, ?_⟩) differs
    exact Record.concerns_undoing planned

/-! ## An AT that is deployed and taken back -/

/-- A deployment affects an AT that had no reference, and so does orphaning it. -/
theorem AtDeployment.differs_deployed {d : AtDeployment} (coherent : s.Coherent)
    (standard : r = .standard envelope (.deployAt d)) (signed : r.signature? = some signature)
    (good : r.verdict params s = .ok .ok) (placed : r.deployed? params = some account)
    (unreferred : s.lastReference account = .ok none) :
    let done := (Transaction.mk r .valid).process params s
    let undone := done.transaction.orphan done.session
    (done.outcome = .ok () ∧ s.Differs account done.session) ∧
      undone.outcome = .ok () ∧ done.session.Differs account undone.session := by
  subst standard
  intro done undone
  obtain ⟨address, version, placed', apart, deploys, withdraws, left⟩ :=
    AtDeployment.exists_undone coherent signed good
  obtain rfl := Option.some.inj (placed.symm.trans placed')
  have between : done.session.lastReference account = .ok (some signature) := by
    have accepted : (Submission.mk params (.standard envelope (.deployAt d))).IsAccepted s :=
      Submission.isAccepted_iff.mpr ⟨good, _, signed⟩
    have steps := accepted.processed_eq
    have referred := Submission.lastReference_processed rfl accepted signed (steps ▸ deploys)
      account
    rwa [Record.onReference, if_pos (.inr placed), steps] at referred
  have after : undone.session.lastReference account = .ok none := by
    have cleared := Deployment.lastReference_undoing
      (x := d.deployment envelope signature account version) coherent signed apart
      (Record.lastReference_of_verdict good) account
    exact (congrArg (fun u => u.lastReference account) left).trans (cleared.trans (if_pos rfl))
  refine ⟨⟨deploys, .inr fun same => ?_⟩, withdraws, .inr fun same => ?_⟩
  · cases between.symm.trans (same.trans unreferred)
  · cases after.symm.trans (same.trans between)

open openedLedger (firstReference)
open Deployment.Sample (address)

/-- The AT of a deployment is not involved before. Processing gives it its reference and orphaning
takes it, and the record between the two involves it. -/
theorem Transaction.isInvolved_of_affected_deployment :
    let t := Transaction.mk (Deployment.Sample.record firstReference) .valid
    let done := t.process .allReleased openedLedger
    let undone := done.transaction.orphan done.session
    t.record.isInvolved (address firstReference) = false ∧
      (done.outcome = .ok () ∧
        openedLedger.Differs (address firstReference) done.session ∧
        done.transaction.record.isInvolved (address firstReference) = true) ∧
      (undone.outcome = .ok () ∧
        done.session.Differs (address firstReference) undone.session ∧
        done.transaction.record.isInvolved (address firstReference) = true) := by
  obtain ⟨known, funded⟩ : openedLedger.lastReference openedLedger.account =
      .ok (some firstReference) ∧ openedLedger.balance openedLedger.account nativeAsset =
        .ok ⟨1000⟩ := openedLedger.opened
  have good := Deployment.Sample.verdict_record known funded (by decide)
  have placed := Deployment.Sample.deployed?_record known funded (by decide)
  have unreferred := Deployment.Sample.openedLedger_unreferred firstReference
  obtain ⟨⟨deploys, gains⟩, withdraws, loses⟩ := AtDeployment.differs_deployed
    openedLedger.reached.coherent rfl rfl good placed unreferred
  have outside : (Deployment.Sample.record firstReference).isInvolved (address firstReference) =
      false := by
    refine Bool.eq_false_iff.mpr fun involved => ?_
    rcases Record.isInvolved_iff.mp involved with creates | listed
    · exact Deployment.Sample.account_ne_address (Option.some.inj creates)
    · cases listed
  exact ⟨outside, ⟨deploys, gains, (isInvolved_of_affected _ _ _).1 deploys _ gains⟩,
    withdraws, loses, (isInvolved_of_affected .allReleased _ _).2 withdraws _ loses⟩

end ChainLedger

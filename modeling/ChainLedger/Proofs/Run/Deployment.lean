import ChainLedger.Proofs.Run.Reached
import ChainLedger.Proofs.Transaction.Retraction

/-!
# Deployments that are taken back

Orphaning a deployment clears the reference of its AT, whatever it was before. The address
of an AT is known before it is deployed, and a payment of coins to it gives it a reference.
So in a reached ledger a deployment is taken back without a trace exactly if its AT had no
reference before; otherwise all is restored but this reference and an AT that was there.
-/

namespace ChainLedger

open Change

section Undoing

variable {params : ChainParams} {s : Session} {envelope : Envelope} {d : AtDeployment}
  {signature : Signature}

/-! ## Deploying and taking back -/

/-- A deployment: the AT, who pays what for it, and the record that is stored of it. -/
structure Deployment where
  deployed : DeployedAt
  creator : Address
  fee : Amount
  amount : Amount
  signature : Signature
  reference : Signature
  record : Record

namespace Deployment

/-- What a deployment changes. -/
def changes (x : Deployment) : List Change :=
  [.saveAt x.deployed, .adjust x.creator nativeAsset (-(x.fee + x.amount)),
    .adjust x.deployed.address nativeAsset x.amount, .setReference x.creator x.signature,
    .setReference x.deployed.address x.signature]

/-- What takes a deployment back. -/
def undoing (x : Deployment) : List Change :=
  [.deleteAt x.deployed.address, .adjust x.deployed.address nativeAsset (-x.amount),
    .clearReference x.deployed.address, .adjust x.creator nativeAsset (x.fee + x.amount),
    .setReference x.creator x.reference]

variable {x : Deployment}

section Accounts

variable (apart : x.creator ≠ x.deployed.address)
include apart

/-- A deployment that is taken back leaves every balance as it was. -/
theorem onBalanceAll_undoing (account : Address) (asset : AssetId)
    (balance : Except DataError Amount) :
    onBalanceAll account asset (x.changes ++ x.undoing) balance = balance := by
  by_cases coins : asset = nativeAsset
  · by_cases pays : account = x.creator
    · cases balance <;>
        simp [changes, undoing, onBalanceAll, onBalance, Except.map, coins, pays, apart]
    · by_cases gets : account = x.deployed.address
      · cases balance <;>
          simp [changes, undoing, onBalanceAll, onBalance, Except.map, coins, gets, apart.symm]
      · simp [changes, undoing, onBalanceAll, onBalance, pays, gets]
  · simp [changes, undoing, onBalanceAll, onBalance, coins]

/-- It leaves the AT without a reference, and all others with the one that they had. -/
theorem onReferenceAll_undoing {account : Address} {last : Except DataError (Option Signature)}
    (known : account = x.creator → last = .ok (some x.reference)) :
    onReferenceAll account (x.changes ++ x.undoing) last =
      if account = x.deployed.address then .ok none else last := by
  by_cases pays : account = x.creator
  · rw [known pays]
    simp [changes, undoing, onReferenceAll, onReference, pays, apart]
  · by_cases gets : account = x.deployed.address
    · simp [changes, undoing, onReferenceAll, onReference, gets, apart.symm]
    · simp [changes, undoing, onReferenceAll, onReference, pays, gets]

end Accounts

/-- No stored record is touched on the way there or back. -/
theorem notMem_families : ∀ change ∈ x.changes ++ x.undoing, "tx/" ∉ change.families := by
  simp [changes, undoing, families]

/-! ## Rows -/

section Rows

variable (coherent : s.Coherent)
include coherent

/-- What a deployment leaves has no states of an AT either. -/
theorem scan_statesOf (address : Address) :
    (makeAll (x.changes ++ storeAndRemove x.record) s).session.scan (Cell.statesOf address) =
      [] := by
  refine Session.scan_statesOf_eq_nil address fun key front => ?_
  have apart : ∀ change ∈ x.changes ++ storeAndRemove x.record, ¬change.Writes key := by
    intro change member
    refine not_writes_of_front (by simp [Cell.families]) front ?_
    revert change member
    simp [changes, storeAndRemove, families]
  rw [get?_makeAll apart, coherent.stateless key front]

/-- Removing the AT then removes its row alone. -/
theorem make_deleteAt (address : Address) :
    (Change.deleteAt address).make
        (makeAll (x.changes ++ storeAndRemove x.record) s).session =
      .done ((makeAll (x.changes ++ storeAndRemove x.record) s).session.clear
        (.deployedAt address)) := by
  rw [make, Session.deleteAt, scan_statesOf coherent]
  rfl

variable (signed : x.record.isSigned = true)
include signed

/-- In a coherent ledger a deployment is carried out, and its record stored and removed. -/
theorem makeAll_changes : (makeAll (x.changes ++ storeAndRemove x.record) s).outcome = .ok () := by
  apply makeAll_eq_ok
  · simp [changes, storeAndRemove, IsSteady]
  · simp [changes, storeAndRemove, Makeable, signed, coherent.balance]

/-- It is then taken back. -/
theorem makeAll_undoing :
    (makeAll (x.changes ++ storeAndRemove x.record ++ x.undoing) s).outcome = .ok () := by
  have made := makeAll_changes coherent signed
  have removed := make_deleteAt (x := x) coherent x.deployed.address
  refine makeAll_append_eq_ok_iff.mpr ⟨made, makeAll_cons_eq_ok_iff.mpr ⟨?_, ?_⟩⟩
  · rw [removed]
    rfl
  · rw [removed]
    have legible (account : Address) :
        ((makeAll (x.changes ++ storeAndRemove x.record) s).session.clear
          (.deployedAt x.deployed.address)).Legible (.balance account nativeAsset) := by
      have possible : (Change.adjust account nativeAsset Amount.zero).Makeable
          (makeAll (x.changes ++ storeAndRemove x.record) s).session :=
        makeable_makeAll trivial (coherent.balance account nativeAsset) made
      obtain ⟨held, known⟩ := possible
      exact ⟨held, (Session.read_clear_of_ne (by simp) _).trans known⟩
    apply makeAll_eq_ok
    · simp [IsSteady]
    · simp [Makeable, Written.done, legible]

/-- Cells of other families than those of balances, references and records hold what they held,
but for the AT. -/
theorem read_undoing {c : Cell} (other : c.family ∉ ["balance/", "reference/", "tx/"]) :
    (makeAll (x.changes ++ storeAndRemove x.record ++ x.undoing) s).session.read c =
      if c = .deployedAt x.deployed.address then .ok none else s.read c := by
  have made := makeAll_changes coherent signed
  have removed := make_deleteAt (x := x) coherent x.deployed.address
  have first : ((Change.deleteAt x.deployed.address).make
      (makeAll (x.changes ++ storeAndRemove x.record) s).session).outcome = .ok () := by
    rw [removed]
    rfl
  have onAccounts : ∀ change ∈ x.undoing.tail, change.OnAccounts := by
    simp [undoing, OnAccounts, families]
  have others : c.family ∉ ["balance/", "reference/"] :=
    fun member => other (List.mem_append_left ["tx/"] member)
  rw [makeAll_append_of_ok made, undoing, makeAll_cons_of_ok first, removed]
  refine (read_makeAll_of_onAccounts onAccounts others _).trans ?_
  by_cases placed : c = .deployedAt x.deployed.address
  · subst placed
    rw [if_pos rfl]
    exact Session.read_clear_self _ _
  · rw [if_neg placed]
    refine (Session.read_clear_of_ne placed _).trans (read_makeAll (fun change member => ?_) s)
    simp only [changes, storeAndRemove, List.cons_append, List.nil_append, List.mem_cons,
      List.not_mem_nil, or_false] at member
    rcases member with rfl | member
    · exact fun writes => placed (Cell.key_injective writes)
    · refine not_writes_of_family fun among => other ?_
      rcases member with rfl | rfl | rfl | rfl | rfl | rfl <;> simp [families] at among <;>
        simp [among]

end Rows

/-! ## What is restored -/

section Restored

variable (coherent : s.Coherent) (signed : x.record.signature? = some signature)
  (apart : x.creator ≠ x.deployed.address)
  (known : s.lastReference x.creator = .ok (some x.reference))
include coherent signed apart known

/-- The AT is left without a reference, and all others with the one that they had. -/
theorem lastReference_undoing (account : Address) :
    (makeAll (x.changes ++ storeAndRemove x.record ++ x.undoing) s).session.lastReference account =
      if account = x.deployed.address then .ok none else s.lastReference account := by
  have made := makeAll_undoing coherent (Option.isSome_iff_exists.mpr ⟨signature, signed⟩)
  rw [lastReference_makeAll_undoing made]
  exact onReferenceAll_undoing apart fun same => same ▸ known

/-- Where the AT had no reference, the deployment is undone. -/
theorem undoes (unreferred : s.lastReference x.deployed.address = .ok none) :
    Undoes s x.record x.changes x.undoing where
  apart := notMem_families
  succeeds _ := by
    have made := makeAll_undoing coherent (Option.isSome_iff_exists.mpr ⟨signature, signed⟩)
    exact (makeAll_append_eq_ok_iff.mp made).2
  balances account asset := onBalanceAll_undoing apart account asset _
  references account := by
    rw [onReferenceAll_undoing apart fun same => same ▸ known]
    split
    next same => rw [same, unreferred]
    next => rfl
  others c other made := by
    rw [read_undoing coherent (Option.isSome_iff_exists.mpr ⟨signature, signed⟩) other]
    split
    next placed =>
      subst placed
      -- An AT that was there would have had a reference.
      refine (Session.read_of_not_holds (Bool.eq_false_iff.mpr fun held => ?_)).symm
      obtain ⟨reference, had⟩ := coherent.deployed _ held
      rw [unreferred] at had
      cases had
    next => rfl

/-- **The ledger is restored exactly if the AT had no reference.** -/
theorem alike_undoing_iff (unstored : s.holds (.transaction signature) = false) :
    s.Alike (makeAll (x.changes ++ storeAndRemove x.record ++ x.undoing) s).session ↔
      s.lastReference x.deployed.address = .ok none := by
  constructor
  · intro alike
    have cleared := lastReference_undoing coherent signed apart known x.deployed.address
    rw [if_pos rfl] at cleared
    have same : s.lastReference x.deployed.address = _ := alike.read _ (by simp)
    exact same.trans cleared
  · intro unreferred
    exact (undoes coherent signed apart known unreferred).alike signed unstored
      (makeAll_changes coherent (Option.isSome_iff_exists.mpr ⟨signature, signed⟩))

end Restored

end Deployment

/-! ## Deployments in reached ledgers -/

/-- What the record of a deployment does with the address and the version of the AT. -/
def AtDeployment.deployment (d : AtDeployment) (envelope : Envelope) (signature : Signature)
    (address : Address) (version : Int16) : Deployment where
  deployed := .fresh address (Action.deployAt d).creator envelope.timestamp version d.creationBytes
  creator := (Action.deployAt d).creator
  fee := envelope.fee
  amount := d.amount
  signature := signature
  reference := envelope.reference
  record := .standard envelope (.deployAt { d with atAddress := some address })

/-- In a coherent ledger a good deployment is processed and then orphaned, which makes its changes
and those that take it back. Its AT is no account of a key. -/
theorem AtDeployment.exists_undone (coherent : s.Coherent)
    (signed : (Record.standard envelope (.deployAt d)).signature? = some signature)
    (good : (Record.standard envelope (.deployAt d)).verdict params s = .ok .ok) :
    ∃ address version,
      (Record.standard envelope (.deployAt d)).deployed? params = some address ∧
        (Action.deployAt d).creator ≠ address ∧
        let x := d.deployment envelope signature address version
        let done := (Transaction.mk (.standard envelope (.deployAt d)) .valid).process params s
        let undone := done.transaction.orphan done.session
        done.outcome = .ok () ∧ undone.outcome = .ok () ∧ undone.session =
          (makeAll (x.changes ++ storeAndRemove x.record ++ x.undoing) s).session := by
  have deploys := AtDeployment.isGood_of_rules (Record.rules_of_verdict good)
  obtain ⟨version, versioned⟩ := Option.isSome_iff_exists.mp deploys.version
  obtain ⟨seed, seeded⟩ := deploys.exists_signingBytes params
  have placed : (Record.standard envelope (.deployAt d)).deployed? params =
      some (Address.ofSeed seed) := by
    rw [Record.deployed?, seeded]
    rfl
  have apart : (Action.deployAt d).creator ≠ Address.ofSeed seed :=
    Address.ofPublicKey_ne_ofSeed _ _
  have planned : (Action.deployAt d).processing params s signature envelope = .ok _ :=
    Action.processing_deployAt_eq_ok_iff.mpr ⟨version, seed, versioned, seeded, rfl⟩
  -- The addresses are kept closed: comparing them would be reckoned out.
  generalize Address.ofSeed seed = address at placed planned apart
  have made := Deployment.makeAll_undoing (x := d.deployment envelope signature address version)
    coherent (Option.isSome_iff_exists.mpr ⟨signature, signed⟩)
  obtain ⟨done, undone⟩ := Transaction.orphan_process_valid signed planned rfl made
  exact ⟨address, version, placed, apart, done, congrArg Step.outcome undone,
    congrArg Step.session undone⟩

/-- **A deployment is taken back without a trace exactly if its AT had no reference.** In a
reached ledger a good signed deployment whose signature is no stored record's is processed and
then orphaned. All balances, the references of other accounts, the other ATs and all states are
as before; the reference and the row of the AT are gone. -/
theorem deployment_undone {t : Transaction} (reached : s.Reached)
    (signed : (Record.standard envelope (.deployAt d)).signature? = some signature)
    (unstored : s.holds (.transaction signature) = false)
    (judged : (Transaction.received (.standard envelope (.deployAt d))).validate params s =
      (.ok .ok, t)) :
    ∃ address, (Record.standard envelope (.deployAt d)).deployed? params = some address ∧
      let done := t.process params s
      let undone := done.transaction.orphan done.session
      done.outcome = .ok () ∧ undone.outcome = .ok () ∧
        (∀ account asset, undone.session.balance account asset = s.balance account asset) ∧
        (∀ account, undone.session.lastReference account =
          if account = address then .ok none else s.lastReference account) ∧
        (∀ other, undone.session.at? other =
          if other = address then .ok none else s.at? other) ∧
        (∀ other height, undone.session.atState? other height = s.atState? other height) ∧
        (s.Alike undone.session ↔ s.lastReference address = .ok none) := by
  rcases Transaction.validate_received_eq_iff.mp judged with ⟨good, rfl⟩
  have coherent := reached.coherent
  have known := Record.lastReference_of_verdict good
  obtain ⟨address, version, placed, apart, done, undone, left⟩ :=
    AtDeployment.exists_undone coherent signed good
  have stored : (d.deployment envelope signature address version).record.isSigned = true :=
    Option.isSome_iff_exists.mpr ⟨signature, signed⟩
  refine ⟨address, placed, done, undone, ?_⟩
  rw [left]
  refine ⟨fun account asset => ?_, ?_, fun other => ?_, fun other height => ?_, ?_⟩
  · rw [balance_makeAll_undoing (Deployment.makeAll_undoing coherent stored),
      Deployment.onBalanceAll_undoing apart]
  · exact Deployment.lastReference_undoing coherent signed apart known
  · have row := Deployment.read_undoing (c := .deployedAt other) coherent stored
      (by simp [Cell.family])
    simpa [Session.at?, AtDeployment.deployment, DeployedAt.fresh] using row
  · have row := Deployment.read_undoing (c := .atState other height) coherent stored
      (by simp [Cell.family])
    simpa [Session.atState?] using row
  · exact Deployment.alike_undoing_iff coherent signed apart known unstored

end Undoing

/-! ## Two deployments -/

open openedLedger (account firstReference laterSignature)

namespace Deployment.Sample

/-- A deployment by the account. -/
def record (reference : Signature) : Record :=
  .standard ⟨2, reference, ⟨100⟩, some laterSignature⟩
    (.deployAt ⟨.fill 6, "at", "an AT", "type", "tags", [0, 2], ⟨200⟩, none⟩)

/-- The address of its AT, which is known before it is processed. -/
def address (reference : Signature) : Address :=
  .ofSeed (((record reference).signingBytes .allReleased).toOption.getD [])

/-- Coins for the AT of the deployment that comes next. -/
def payment : Record :=
  .standard ⟨1, firstReference, ⟨100⟩, some (.fill 170)⟩
    (.payment ⟨.fill 6, address (.fill 170), ⟨300⟩⟩)

/-- The opened ledger after that payment. -/
def paidLedger : Session := (Submission.mk .allReleased payment).after openedLedger

section Steps

variable {s : Session} {reference : Signature} {held : Amount}

theorem account_ne_address : account ≠ address reference :=
  Address.ofPublicKey_ne_ofSeed _ _

/-- The deployment is good where the account has the reference and the coins. -/
theorem verdict_record (known : s.lastReference account = .ok (some reference))
    (funded : s.balance account nativeAsset = .ok held) (enough : 300 ≤ held.toInt) :
    (record reference).verdict .allReleased s = .ok .ok :=
  AtDeployment.verdict_eq_ok known rfl (by decide) (by decide) (by decide) (by decide)
    (by decide) (by decide) (by decide) (by decide : 0 < (⟨100⟩ : Amount).toInt) funded enough

theorem deployed?_record (known : s.lastReference account = .ok (some reference))
    (funded : s.balance account nativeAsset = .ok held) (enough : 300 ≤ held.toInt) :
    (record reference).deployed? .allReleased = some (address reference) := by
  have deploys := AtDeployment.isGood_of_rules
    (Record.rules_of_verdict (verdict_record known funded enough))
  obtain ⟨seed, seeded⟩ := deploys.exists_signingBytes .allReleased
  have signing : (record reference).signingBytes .allReleased = .ok seed := seeded
  rw [address, signing, record, Record.deployed?, seeded]
  rfl

end Steps

/-- In the opened ledger the AT has no reference. -/
theorem openedLedger_unreferred (reference : Signature) :
    openedLedger.lastReference (address reference) = .ok none :=
  openedLedger.unreferred fun same => account_ne_address same.symm

theorem payment_isAccepted : (Submission.mk .allReleased payment).IsAccepted openedLedger := by
  obtain ⟨reference, funded⟩ := openedLedger.opened
  exact Submission.isAccepted_iff.mpr ⟨Payment.verdict_eq_ok reference (Address.isValid_ofSeed _)
    (by decide) (by decide) funded (by decide), _, rfl⟩

theorem payment_done :
    ((Submission.mk .allReleased payment).processed openedLedger).outcome = .ok () :=
  openedLedger.reached.coherent.processed_eq_ok payment_isAccepted rfl rfl

theorem paidLedger_reached : paidLedger.Reached :=
  openedLedger.reached.after payment_isAccepted rfl rfl

/-- The account has the signature of the payment as reference. -/
theorem paidLedger_account : paidLedger.lastReference account = .ok (some (.fill 170)) := by
  have created : payment.creator? = some account := rfl
  rw [paidLedger, payment_isAccepted.after_eq,
    Submission.lastReference_processed rfl payment_isAccepted rfl payment_done, Record.onReference,
    if_pos (.inl created)]

/-- It has the coins that are left. -/
theorem paidLedger_funded : paidLedger.balance account nativeAsset = .ok ⟨600⟩ := by
  have funded : openedLedger.balance account nativeAsset = .ok ⟨1000⟩ := openedLedger.opened.2
  have planned : payment.processing .allReleased openedLedger (.fill 170) =
      .ok (.same payment (chargeFee account ⟨100⟩ (.fill 170) ++
        moveAll account (.fill 170) [⟨address (.fill 170), nativeAsset, ⟨300⟩⟩] ++
          [.saveTransaction payment])) := rfl
  have apart : account ≠ address (.fill 170) := account_ne_address
  have reckoned : (⟨1000⟩ : Amount) + -⟨100⟩ + -⟨300⟩ = ⟨600⟩ := rfl
  rw [paidLedger, payment_isAccepted.balance_after rfl planned payment_done, funded]
  generalize account = account, address (.fill 170) = address at apart
  simp [Plan.same, chargeFee, moveAll, Leg.move, onBalanceAll, onBalance, Except.map, apart,
    reckoned]

/-- The AT to come has a reference from the payment on. -/
theorem paidLedger_referred :
    paidLedger.lastReference (address (.fill 170)) = .ok (some (.fill 170)) := by
  have brought : payment.BringsCoins (address (.fill 170)) :=
    ⟨⟨address (.fill 170), nativeAsset, ⟨300⟩⟩, List.mem_cons_self, rfl, rfl⟩
  rw [paidLedger, payment_isAccepted.after_eq,
    Submission.lastReference_processed rfl payment_isAccepted rfl payment_done, Record.onReference,
    openedLedger_unreferred, if_pos brought, onReference_introduce_none, ite_self]

theorem paidLedger_unstored : paidLedger.holds (.transaction laterSignature) = false := by
  have different : laterSignature ≠ .fill 170 := by decide
  rw [paidLedger, payment_isAccepted.after_eq]
  exact Submission.unstored_processed payment_isAccepted rfl payment_done different
    openedLedger.unstored

end Deployment.Sample

open Deployment.Sample

/-- Where the AT has no reference the deployment leaves no trace. -/
theorem deployment_undone_opened :
    openedLedger.Reached ∧ (record firstReference).signature? = some laterSignature ∧
      openedLedger.holds (.transaction laterSignature) = false ∧
      (Transaction.received (record firstReference)).validate .allReleased openedLedger =
        (.ok .ok, ⟨record firstReference, .valid⟩) ∧
      let done := (Transaction.mk (record firstReference) .valid).process .allReleased openedLedger
      let undone := done.transaction.orphan done.session
      done.outcome = .ok () ∧ undone.outcome = .ok () ∧ openedLedger.Alike undone.session := by
  obtain ⟨known, funded⟩ : openedLedger.lastReference account = .ok (some firstReference) ∧
    openedLedger.balance account nativeAsset = .ok ⟨1000⟩ := openedLedger.opened
  have good := verdict_record known funded (by decide)
  have judged : (Transaction.received (record firstReference)).validate .allReleased openedLedger =
      (.ok .ok, ⟨record firstReference, .valid⟩) :=
    Transaction.validate_received_eq_iff.mpr ⟨good, rfl⟩
  have placed := deployed?_record known funded (by decide)
  obtain ⟨_, placed', done, undone, -, -, -, -, restored⟩ :=
    deployment_undone openedLedger.reached rfl openedLedger.unstored judged
  have same := Option.some.inj (placed.symm.trans placed')
  exact ⟨openedLedger.reached, rfl, openedLedger.unstored, judged, done, undone,
    restored.mpr (same ▸ openedLedger_unreferred firstReference)⟩

/-- **A deployment can leave a trace**: a payment to the address of the AT before it is deployed
gives it a reference, which is lost when the deployment is orphaned. -/
theorem deployment_leaves_trace :
    paidLedger.Reached ∧ (record (.fill 170)).signature? = some laterSignature ∧
      paidLedger.holds (.transaction laterSignature) = false ∧
      (Transaction.received (record (.fill 170))).validate .allReleased paidLedger =
        (.ok .ok, ⟨record (.fill 170), .valid⟩) ∧
      let done := (Transaction.mk (record (.fill 170)) .valid).process .allReleased paidLedger
      let undone := done.transaction.orphan done.session
      done.outcome = .ok () ∧ undone.outcome = .ok () ∧
        paidLedger.lastReference (address (.fill 170)) = .ok (some (.fill 170)) ∧
        undone.session.lastReference (address (.fill 170)) = .ok none := by
  have good := verdict_record paidLedger_account paidLedger_funded (by decide)
  have judged : (Transaction.received (record (.fill 170))).validate .allReleased paidLedger =
      (.ok .ok, ⟨record (.fill 170), .valid⟩) :=
    Transaction.validate_received_eq_iff.mpr ⟨good, rfl⟩
  have placed := deployed?_record paidLedger_account paidLedger_funded (by decide)
  have coherent := paidLedger_reached.coherent
  have signed : (record (.fill 170)).signature? = some laterSignature := rfl
  obtain ⟨_, version, placed', apart, done, undone, left⟩ :=
    AtDeployment.exists_undone coherent signed good
  obtain rfl := Option.some.inj (placed.symm.trans placed')
  refine ⟨paidLedger_reached, signed, paidLedger_unstored, judged, done, undone,
    paidLedger_referred, ?_⟩
  refine (congrArg (fun u => u.lastReference (address (.fill 170))) left).trans ?_
  rw [Deployment.lastReference_undoing coherent signed apart paidLedger_account]
  exact if_pos rfl

end ChainLedger

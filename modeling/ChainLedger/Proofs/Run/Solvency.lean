import ChainLedger.Proofs.Run
import ChainLedger.Proofs.Transaction.SolventStep

/-!
# Runs stay solvent

A run from the ledger without rows keeps the ledger solvent, as long as the coins that
it mints fit an amount and the numbers of assets do not run out. So no record that is
handed in meets a fault, nothing that is reckoned for an accepted one wraps around, and
no balance is ever negative.
-/

namespace ChainLedger

open Change

/-! ## What runs mint and issue -/

/-- The units of coins that records mint. -/
def mintedBy (records : List Record) : Int := (records.map Record.minted).sum

/-- The number of assets that records issue. -/
def issuedBy (records : List Record) : Nat := (records.map Record.issues).sum

@[simp] theorem mintedBy_nil : mintedBy [] = 0 := rfl

@[simp] theorem mintedBy_singleton (r : Record) : mintedBy [r] = r.minted := List.sum_singleton

@[simp] theorem issuedBy_nil : issuedBy [] = 0 := rfl

@[simp] theorem issuedBy_singleton (r : Record) : issuedBy [r] = r.issues := List.sum_singleton

theorem mintedBy_append (first second : List Record) :
    mintedBy (first ++ second) = mintedBy first + mintedBy second := by
  simp [mintedBy]

theorem issuedBy_append (first second : List Record) :
    issuedBy (first ++ second) = issuedBy first + issuedBy second := by
  simp [issuedBy]

section Runs

variable {s : Session} {x : Submission} {minted : Int} {issued : Nat}

/-- An accepted record mints nothing negative. -/
theorem Submission.IsAccepted.minted_nonneg (accepted : x.IsAccepted s) : 0 ≤ x.record.minted := by
  have good := (isAccepted_iff.mp accepted).1
  cases same : x.record with
  | genesis g =>
    rw [same] at good
    exact Genesis.nonneg_of_verdict good
  | standard => exact Int.le_refl 0

/-- Neither does a run. -/
theorem mintedBy_accepted_nonneg (s : Session) (history : List Submission) :
    0 ≤ mintedBy (s.accepted history) := by
  induction history generalizing s with
  | nil => exact Int.le_refl 0
  | cons x rest ih =>
    have later := ih (x.after s)
    rw [Session.accepted, mintedBy_append]
    split
    next accepted =>
      have here := accepted.minted_nonneg
      rw [mintedBy_singleton]
      omega
    next => rwa [mintedBy_nil, zero_add]

/-! ## One submission -/

/-- The record is judged and, if it is accepted, processed without a fault; nothing wraps around
that is reckoned for it, nor any balance that it changes, at the moment of each change. -/
structure Submission.IsFaultless (x : Submission) (s : Session) : Prop where
  judged : ∃ verdict, (x.judged s).1 = .ok verdict
  processed : x.IsAccepted s → (x.processed s).outcome = .ok ()
  reckoned : x.IsAccepted s → x.record.ReckonsExactly
  exact : x.IsAccepted s → ∀ {signature plan}, x.record.signature? = some signature →
    x.record.processing x.params s signature = .ok plan → AllExact plan.changes s

/-- Every record is judged where the rows can be read. -/
theorem Submission.exists_judged (consultable : s.Consultable) (x : Submission) :
    ∃ verdict, (x.judged s).1 = .ok verdict := by
  obtain ⟨verdict, known⟩ := Record.exists_verdict consultable x.record
  exact ⟨verdict, Transaction.validate_received_of_ok known⟩

/-- **One step of a run** meets no fault in a solvent ledger, and leaves it solvent. -/
theorem Submission.solvent_after (solvent : s.Solvent minted issued)
    (bounded : x.IsAccepted s → minted + x.record.minted ≤ Amount.largest)
    (left : x.IsAccepted s → issued + x.record.issues < 2 ^ 64) :
    x.IsFaultless s ∧
      (x.after s).Solvent (minted + mintedBy (if x.IsAccepted s then [x.record] else []))
        (issued + issuedBy (if x.IsAccepted s then [x.record] else [])) := by
  have judged := x.exists_judged solvent.consultable
  by_cases accepted : x.IsAccepted s
  · rcases isAccepted_iff.mp accepted with ⟨good, signature, signed⟩
    obtain ⟨plan, planned, reckoned, keeps⟩ :=
      Record.exists_plan solvent (bounded accepted) (left accepted) good signed
    have done := accepted.processed_eq_of_plan signed planned keeps.made
    constructor
    · refine ⟨judged, fun _ => congrArg Step.outcome done, fun _ => reckoned, ?_⟩
      intro _ signature' plan' signed' planned'
      rw [signed] at signed'
      cases signed'
      rw [planned] at planned'
      cases planned'
      exact keeps.exact
    · rw [accepted.after_eq, done, if_pos accepted]
      simpa using keeps.solvent
  · refine ⟨⟨judged, ?_, ?_, ?_⟩, ?_⟩
    · exact fun yes => absurd yes accepted
    · exact fun yes => absurd yes accepted
    · exact fun yes => absurd yes accepted
    · rw [after_of_not_isAccepted accepted, if_neg accepted]
      simpa using solvent

/-! ## Runs -/

/-- Runs keep a ledger solvent. -/
theorem Session.Solvent.run (solvent : s.Solvent minted issued) (history : List Submission)
    (bounded : minted + mintedBy (s.accepted history) ≤ Amount.largest)
    (left : issued + issuedBy (s.accepted history) < 2 ^ 64) :
    (s.run history).Solvent (minted + mintedBy (s.accepted history))
      (issued + issuedBy (s.accepted history)) := by
  induction history generalizing s minted issued with
  | nil => simpa [accepted, Session.run] using solvent
  | cons x rest ih =>
    have later := mintedBy_accepted_nonneg (x.after s) rest
    rw [accepted, mintedBy_append, ← add_assoc] at bounded
    rw [accepted, issuedBy_append, ← add_assoc] at left
    have bounded' : x.IsAccepted s → minted + x.record.minted ≤ Amount.largest := by
      intro accepted
      rw [if_pos accepted, mintedBy_singleton] at bounded
      omega
    have left' : x.IsAccepted s → issued + x.record.issues < 2 ^ 64 := by
      intro accepted
      rw [if_pos accepted, issuedBy_singleton] at left
      omega
    have here := (Submission.solvent_after solvent bounded' left').2
    rw [run_cons, accepted, mintedBy_append, issuedBy_append, ← add_assoc, ← add_assoc]
    exact ih here bounded left

/-- No balance is negative, and every balance can be read. -/
def Session.InCredit (s : Session) : Prop :=
  ∀ account asset, ∃ balance, s.balance account asset = .ok balance ∧ 0 ≤ balance.toInt

theorem Session.Solvent.inCredit (solvent : s.Solvent minted issued) : s.InCredit := by
  intro account asset
  rcases Session.legible_balance_iff.mp (solvent.backed.readable account asset) with ⟨balance, held⟩
  have least := solvent.backed.nonneg account asset
  rw [Session.units_of_balance held] at least
  exact ⟨balance, held, least⟩

end Runs

/-- **Every run is solvent.** In a run from the ledger without rows that mints no more than fits an
amount and issues fewer assets than there are numbers, every record is judged and every accepted one
processed without a fault, nothing wraps around on the way, and after every step all balances are
zero or more. -/
theorem run_solvent {history : List Submission}
    (coins : mintedBy (OrderedMap.empty.session.accepted history) ≤ Int64.maxValue.toInt)
    (assets : issuedBy (OrderedMap.empty.session.accepted history) < 2 ^ 64 - 1)
    {front back : List Submission} {x : Submission} (split : history = front ++ x :: back) :
    x.IsFaultless (OrderedMap.empty.session.run front) ∧
      (OrderedMap.empty.session.run (front ++ [x])).InCredit := by
  generalize started : OrderedMap.empty.session = start at *
  have solvent : start.Solvent 0 0 := started ▸ Session.solvent_empty
  have later := mintedBy_accepted_nonneg (start.run front) (x :: back)
  have last := mintedBy_accepted_nonneg (x.after (start.run front)) back
  have fits : Amount.largest = Int64.maxValue.toInt := rfl
  rw [split, Session.accepted_append, mintedBy_append] at coins
  rw [split, Session.accepted_append, issuedBy_append] at assets
  have reached := solvent.run front (by omega) (by omega)
  rw [Session.accepted, mintedBy_append] at coins later
  rw [Session.accepted, issuedBy_append] at assets
  have step := Submission.solvent_after (x := x) reached
    (fun accepted => by rw [if_pos accepted, mintedBy_singleton] at coins; omega)
    (fun accepted => by rw [if_pos accepted, issuedBy_singleton] at assets; omega)
  rw [Session.run_concat]
  exact ⟨step.1, step.2.inCredit⟩

/-- An allocation of coins. -/
def openingAllocation : Record := .genesis ⟨0, "QVbN9WGbczLY4rPWUxzEmipQjgr2m9dQmt", ⟨1000⟩⟩

/-- A payment of some of those coins. -/
def openingPayment : Record :=
  .standard ⟨1, openingAllocation.signature?.getD (.fill 0), ⟨100⟩, some (.fill 170)⟩
    (.payment ⟨.fill 6, "QjSSfvVj4hqM5PwYwjZn7UL4mZKzUCtoeR", ⟨300⟩⟩)

theorem run_solvent_opening :
    let start := OrderedMap.empty.session
    let allocation : Submission := ⟨.allReleased, openingAllocation⟩
    let payment : Submission := ⟨.allReleased, openingPayment⟩
    start.accepted [allocation, payment] = [openingAllocation, openingPayment] ∧
      mintedBy [openingAllocation, openingPayment] ≤ Int64.maxValue.toInt ∧
      issuedBy [openingAllocation, openingPayment] < 2 ^ 64 - 1 ∧
      payment.IsFaultless (start.run [allocation]) ∧
      (start.run [allocation, payment]).InCredit := by
  intro start allocation payment
  have good : openingAllocation.verdict .allReleased start = .ok .ok :=
    Genesis.verdict_eq_ok (by decide) Address.Sample.isValid_account
  obtain ⟨signature, signed⟩ : ∃ signature, openingAllocation.signature? = some signature :=
    Genesis.exists_signature Address.Sample.isValid_account
  have allocated : allocation.IsAccepted start :=
    Submission.isAccepted_iff.mpr ⟨good, signature, signed⟩
  obtain ⟨funded, reference⟩ :
      (allocation.after start).balance "QVbN9WGbczLY4rPWUxzEmipQjgr2m9dQmt" nativeAsset =
          .ok ⟨1000⟩ ∧
        (allocation.after start).lastReference "QVbN9WGbczLY4rPWUxzEmipQjgr2m9dQmt" =
          .ok (some signature) :=
    allocated.after_genesis signed
  have sender : (Action.payment ⟨.fill 6, "QjSSfvVj4hqM5PwYwjZn7UL4mZKzUCtoeR", ⟨300⟩⟩).creator =
      "QVbN9WGbczLY4rPWUxzEmipQjgr2m9dQmt" := Address.Sample.ofPublicKey_key
  have referred : openingAllocation.signature?.getD (.fill 0) = signature :=
    congrArg (fun known => known.getD (.fill 0)) signed
  rw [← sender, ← referred] at reference
  rw [← sender] at funded
  have paid : payment.IsAccepted (allocation.after start) :=
    Submission.isAccepted_iff.mpr
      ⟨Payment.verdict_eq_ok reference Address.Sample.isValid_other (by decide) (by decide)
        funded (by decide), _, rfl⟩
  have accepted : start.accepted [allocation, payment] = [openingAllocation, openingPayment] := by
    rw [Session.accepted, Session.accepted, if_pos allocated, if_pos paid]
    rfl
  have coins : mintedBy [openingAllocation, openingPayment] ≤ Int64.maxValue.toInt := by decide
  have assets : issuedBy [openingAllocation, openingPayment] < 2 ^ 64 - 1 := by decide
  have split : [allocation, payment] = [allocation] ++ payment :: [] := rfl
  have solvent := run_solvent (accepted ▸ coins) (accepted ▸ assets) split
  exact ⟨accepted, coins, assets, solvent.1, solvent.2⟩

/-! ## Ledgers to start from -/

/-- An allocation that is not negative, to a valid address, is accepted in every ledger. -/
theorem Genesis.exists_accepted (params : ChainParams) (s : Session) {g : Genesis}
    (valid : Address.isValid g.recipient = true) (nonneg : 0 ≤ g.amount.toInt) :
    ∃ signature, (Record.genesis g).signature? = some signature ∧
      (Submission.mk params (.genesis g)).IsAccepted s := by
  obtain ⟨signature, signed⟩ := Genesis.exists_signature valid
  exact ⟨signature, signed,
    Submission.isAccepted_iff.mpr ⟨Genesis.verdict_eq_ok nonneg valid, signature, signed⟩⟩

/-- An allocation opens a solvent ledger, in which its account has the coins and its signature as
reference. -/
theorem Genesis.opens (params : ChainParams) {g : Genesis}
    (valid : Address.isValid g.recipient = true) (nonneg : 0 ≤ g.amount.toInt) :
    let s := (Submission.mk params (.genesis g)).after OrderedMap.empty.session
    ∃ signature, (Record.genesis g).signature? = some signature ∧
      s.lastReference g.recipient = .ok (some signature) ∧
      s.balance g.recipient nativeAsset = .ok g.amount ∧ s.Solvent g.amount.toInt 0 := by
  obtain ⟨signature, signed, accepted⟩ :=
    exists_accepted params OrderedMap.empty.session valid nonneg
  obtain ⟨funded, reference⟩ := accepted.after_genesis signed
  have step := (Submission.solvent_after (x := ⟨params, .genesis g⟩) Session.solvent_empty
    (fun _ => (zero_add _).trans_le g.amount.toInt_le_largest)
    (fun _ => (by decide : 0 + 0 < 2 ^ 64))).2
  rw [if_pos accepted, mintedBy_singleton, issuedBy_singleton, zero_add] at step
  exact ⟨signature, signed, reference, funded, step⟩

/-- The ledger that the allocation opens. -/
def openedLedger : Session :=
  (Submission.mk .allReleased openingAllocation).after OrderedMap.empty.session

namespace openedLedger

/-- The account of the key has the coins, and the signature of the allocation as reference. -/
theorem opened :
    openedLedger.lastReference (Address.ofPublicKey (.fill 6 : PublicKey).bytes) =
      .ok (some (openingAllocation.signature?.getD (.fill 0))) ∧
    openedLedger.balance (Address.ofPublicKey (.fill 6 : PublicKey).bytes) nativeAsset =
      .ok ⟨1000⟩ := by
  have holder : Address.ofPublicKey (.fill 6 : PublicKey).bytes =
      "QVbN9WGbczLY4rPWUxzEmipQjgr2m9dQmt" := Address.Sample.ofPublicKey_key
  obtain ⟨signature, signed, reference, funded, -⟩ :=
    Genesis.opens (g := ⟨0, "QVbN9WGbczLY4rPWUxzEmipQjgr2m9dQmt", ⟨1000⟩⟩) .allReleased
      Address.Sample.isValid_account (by decide)
  have referred : openingAllocation.signature?.getD (.fill 0) = signature :=
    congrArg (fun known => known.getD (.fill 0)) signed
  rw [holder, referred]
  exact ⟨reference, funded⟩

theorem solvent : openedLedger.Solvent 1000 0 := by
  obtain ⟨-, -, -, -, solvent⟩ :=
    Genesis.opens (g := ⟨0, "QVbN9WGbczLY4rPWUxzEmipQjgr2m9dQmt", ⟨1000⟩⟩) .allReleased
      Address.Sample.isValid_account (by decide)
  exact solvent

/-- Besides a balance, a reference and the allocation it has no rows. -/
theorem holds_other {c : Cell} (other : c.family ∉ ["balance/", "reference/", "tx/"]) :
    openedLedger.holds c = false := by
  obtain ⟨signature, signed, accepted⟩ :=
    Genesis.exists_accepted (g := ⟨0, "QVbN9WGbczLY4rPWUxzEmipQjgr2m9dQmt", ⟨1000⟩⟩) .allReleased
      OrderedMap.empty.session Address.Sample.isValid_account (by decide)
  obtain ⟨_, rfl, -, left⟩ := accepted.made_genesis signed
  rw [openedLedger, openingAllocation, left, holds_makeAll]
  · rfl
  · simpa [families] using other

end openedLedger

end ChainLedger

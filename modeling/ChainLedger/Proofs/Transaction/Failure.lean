import ChainLedger.Proofs.Run.Reached
import ChainLedger.Proofs.Transaction.Conservation
import ChainLedger.Proofs.Transaction.Storable

/-!
# What failures leave behind

Processing plans before it writes, and every fault that is not one of the store shows while it
plans, so that such a failure leaves neither the transaction nor the ledger changed. Orphaning
removes the stored record before it plans how to undo it. That fails where the record has not what
processing would have added to it, and then the stored record is gone: this is the one trace of a
failure, which the caller wipes out with the session.
-/

namespace ChainLedger

open Change

variable {params : ChainParams} {s : Session} {r : Record} {signature : Signature}
  {error : TransactionError} {stage : Stage} {plan : Plan}

/-- The store could not be read. -/
def TransactionError.IsStorage : TransactionError → Prop
  | .data _ => True
  | _ => False

/-- What undoing a record asks for, where processing has not added it. -/
def Record.missingField? : Record → Option ProcessingField
  | .standard _ (.issueAsset i) => if i.assetId.isNone then some .assetId else none
  | .standard _ (.deployAt d) => if d.atAddress.isNone then some .atAddress else none
  | _ => none

/-- Undoing cannot be planned exactly for want of what processing adds. -/
theorem Record.undoing_eq_error_iff : r.undoing signature = .error error ↔
    ∃ field, r.missingField? = some field ∧ error = .missingField r.kind field := by
  cases r with
  | genesis => simp [undoing, missingField?]
  | standard envelope action =>
    cases action with
    | issueAsset i =>
      cases number : i.assetId <;>
        simp [undoing, Action.undoing, missingField?, number, kind, Action.kind, eq_comm]
    | deployAt d =>
      cases placed : d.atAddress <;>
        simp [undoing, Action.undoing, missingField?, placed, kind, Action.kind, eq_comm]
    | payment | createPoll | voteOnPoll | transferAsset | multiPayment | settleAt =>
      simp [undoing, Action.undoing, missingField?]

namespace Transaction

variable {t : Transaction}

/-- A plan that is carried out fails by the store alone. -/
theorem isStorage_of_carryOut (failed : (t.carryOut s stage plan).outcome = .error error) :
    error.IsStorage := by
  obtain ⟨fault, carried⟩ | done := carryOut_cases t s stage plan
  · rw [carried] at failed
    cases failed
    exact trivial
  · rw [done] at failed
    cases failed

/-- Processing that fails otherwise was refused. -/
theorem process_of_error (failed : (t.process params s).outcome = .error error)
    (plain : ¬error.IsStorage) : t.process params s = t.refuse s error := by
  obtain ⟨fault, refused⟩ | ⟨_, plan, -, -, -, carried⟩ := process_cases params s t
  · rw [refused] at failed ⊢
    cases failed
    rfl
  · rw [carried] at failed
    exact absurd (isStorage_of_carryOut failed) plain

theorem eq_of_permit_eq_error {operation : Operation}
    (refused : t.permit operation = .error error) :
    error = .illegalTransition operation t.stage := by
  unfold permit at refused
  split at refused <;> cases refused
  rfl

theorem eq_of_signature_eq_error (refused : t.signature = .error error) :
    error = .unsigned t.record.kind := by
  unfold signature at refused
  split at refused <;> cases refused
  rfl

/-- Orphaning that fails otherwise was refused, or it met a record that was not processed. -/
theorem orphan_of_error (failed : (t.orphan s).outcome = .error error)
    (plain : ¬error.IsStorage) :
    t.orphan s = t.refuse s error ∧ (∀ kind field, error ≠ .missingField kind field) ∨
      ∃ signature field, t.record.signature? = some signature ∧
        t.record.missingField? = some field ∧ error = .missingField t.record.kind field ∧
        t.orphan s = t.refuse (s.clear (.transaction signature)) error := by
  unfold orphan at failed ⊢
  cases permitted : t.permit .orphan with
  | error fault =>
    simp only [permitted] at failed ⊢
    cases failed
    obtain rfl := eq_of_permit_eq_error permitted
    exact .inl ⟨rfl, by simp⟩
  | ok allowed =>
    cases known : t.signature with
    | error fault =>
      simp only [permitted, known] at failed ⊢
      cases failed
      obtain rfl := eq_of_signature_eq_error known
      exact .inl ⟨rfl, by simp⟩
    | ok signature =>
      have signed := signature_eq_ok_iff.mp known
      simp only [permitted, known, make_deleteTransaction signed, Written.done] at failed ⊢
      cases planned : t.record.undoing signature with
      | error fault =>
        simp only [planned] at failed ⊢
        cases failed
        obtain ⟨field, missing, same⟩ := Record.undoing_eq_error_iff.mp planned
        exact .inr ⟨signature, field, signed, missing, same, rfl⟩
      | ok plan =>
        simp only [planned] at failed
        exact absurd (isStorage_of_carryOut failed) plain

/-- **What a failure leaves behind**, unless it is one of the store. The transaction is as it was.
So is the ledger, except where orphaning meets a record of an issue without the number of its asset
or of a deployment without the address of its AT: then the row of the stored record is gone, and
that row alone. -/
theorem trace_of_failure (params : ChainParams) (s : Session) (t : Transaction)
    (plain : ¬error.IsStorage) :
    ((t.process params s).outcome = .error error →
        (t.process params s).transaction = t ∧ (t.process params s).session = s) ∧
      ((t.orphan s).outcome = .error error →
        (t.orphan s).transaction = t ∧
          ((∀ kind field, error ≠ .missingField kind field) → (t.orphan s).session = s) ∧
          ∀ kind field, error = .missingField kind field →
            kind = t.record.kind ∧ t.record.missingField? = some field ∧
              ∃ signature, t.record.signature? = some signature ∧
                ∀ key, (t.orphan s).session.get? key =
                  if key = (Cell.transaction signature).key then none else s.get? key) := by
  refine ⟨fun failed => ?_, fun failed => ?_⟩
  · rw [process_of_error failed plain]
    exact ⟨rfl, rfl⟩
  · obtain ⟨refused, other⟩ | ⟨signature, field, signed, missing, rfl, refused⟩ :=
      orphan_of_error failed plain
    · rw [refused]
      exact ⟨rfl, fun _ => rfl, fun kind field same => absurd same (other kind field)⟩
    · rw [refused]
      refine ⟨rfl, fun other => absurd rfl (other _ _), fun kind field' same => ?_⟩
      cases same
      exact ⟨rfl, missing, signature, signed, s.get?_clear (.transaction signature)⟩

/-- Orphaning clears the cell of a record even if it was not processed. -/
theorem orphan_unprocessed {field : ProcessingField} (signed : r.signature? = some signature)
    (missing : r.missingField? = some field) (s : Session) :
    (processed r).orphan s =
      (processed r).refuse (s.clear (.transaction signature)) (.missingField r.kind field) := by
  have permitted : (processed r).permit .orphan = .ok () := rfl
  have known : (processed r).signature = .ok signature := signature_eq_ok signed .processed
  have own : (processed r).record = r := rfl
  have unplanned : r.undoing signature = .error (.missingField r.kind field) :=
    Record.undoing_eq_error_iff.mpr ⟨field, missing, rfl⟩
  unfold orphan
  simp only [permitted, known, own, make_deleteTransaction signed, Written.done, unplanned]

theorem trace_of_failure_openingIssue :
    let issue : Step := (Submission.mk .allReleased openingIssue).processed openedLedger
    let withdrawal : Step := (processed openingIssue).orphan issue.session
    ¬TransactionError.IsStorage (.missingField .issueAsset .assetId) ∧
      withdrawal.outcome = .error (.missingField .issueAsset .assetId) ∧
      withdrawal.transaction = processed openingIssue ∧
      ∀ key, withdrawal.session.get? key =
        if key = (Cell.transaction (.fill 170)).key then none else issue.session.get? key := by
  intro issue withdrawal
  have plain : ¬TransactionError.IsStorage (.missingField .issueAsset .assetId) := id
  have failed : withdrawal.outcome = .error (.missingField .issueAsset .assetId) :=
    congrArg Step.outcome (orphan_unprocessed rfl rfl issue.session)
  obtain ⟨same, -, gone⟩ :=
    (trace_of_failure .allReleased issue.session (processed openingIssue) plain).2 failed
  obtain ⟨-, -, signature, signed, rows⟩ := gone _ _ rfl
  obtain rfl : FixedBytes.fill 170 = signature := Option.some.inj signed
  exact ⟨plain, failed, same, rows⟩

/-! ## A record that was processed by another object -/

/-- What processing stores of an accepted record is found under its signature. -/
theorem transaction?_processed {x : Submission} (accepted : x.IsAccepted s)
    (done : (x.processed s).outcome = .ok ()) (fit : x.record.AddressesFit)
    (known : x.record.signature? = some signature) :
    (x.processed s).session.transaction? signature =
      .ok (some (x.processed s).transaction.record) := by
  obtain ⟨_, plan, signed, planned, made, left⟩ := accepted.exists_of_processed done
  obtain rfl := Option.some.inj (known.symm.trans signed)
  have storable := Record.storable_after (Submission.isAccepted_iff.mp accepted).1 fit planned
  obtain ⟨changes, split⟩ := Record.exists_saving planned
  rw [left, split]
  rw [split] at made
  exact transaction?_saved ((Record.signature?_after planned).trans signed) storable made

/-- Orphaning that fails on an unprocessed record takes the stored one away. -/
theorem transaction?_orphan_unprocessed {field : ProcessingField} {stored : Record}
    (signed : r.signature? = some signature) (missing : r.missingField? = some field)
    (found : s.transaction? signature = .ok (some stored)) :
    ((processed r).orphan s).session.transaction? signature = .ok none ∧
      ¬s.Agree ((processed r).orphan s).session := by
  have gone : ((processed r).orphan s).session.transaction? signature = .ok none := by
    rw [orphan_unprocessed signed missing]
    exact Session.read_clear_self _ _
  refine ⟨gone, fun same => ?_⟩
  have both := congrFun same.read (.transaction signature)
  cases found.symm.trans (both.trans gone)

/-- **A failure can leave a trace**: the record of an issue that another object has processed is
made a processed transaction again, without the number of its asset. Orphaning that fails, though
not by the store, and the stored record is gone. -/
theorem orphan_leaves_trace :
    let issue : Step := (Submission.mk .allReleased openingIssue).processed openedLedger
    let withdrawal : Step := (processed openingIssue).orphan issue.session
    issue.session.Reached ∧
      issue.session.transaction? (.fill 170) = .ok (some issue.transaction.record) ∧
      withdrawal.outcome = .error (.missingField .issueAsset .assetId) ∧
      ¬TransactionError.IsStorage (.missingField .issueAsset .assetId) ∧
      withdrawal.session.transaction? (.fill 170) = .ok none ∧
      ¬issue.session.Agree withdrawal.session := by
  have signed : openingIssue.signature? = some (.fill 170) := rfl
  have missing : openingIssue.missingField? = some .assetId := rfl
  have accepted := openingIssue_isAccepted
  have done := accepted.processed_of_sound (openedLedger.solvent.sound (by decide))
  have stored := transaction?_processed accepted done trivial signed
  obtain ⟨gone, differs⟩ := transaction?_orphan_unprocessed signed missing stored
  exact ⟨.processed openedLedger.reached accepted done, stored,
    congrArg Step.outcome (orphan_unprocessed signed missing _), id, gone, differs⟩

end Transaction

end ChainLedger

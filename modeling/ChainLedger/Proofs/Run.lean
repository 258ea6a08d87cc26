import ChainLedger.Proofs.Transaction.Step
import Mathlib.Order.Basic

/-!
# Runs

A run hands records in one after the other. Each is judged as the ledger stands and, if
it is found good and is signed, processed at once; any other leaves the ledger as it
was. What processing writes before it fails would stay, as it does in a session.
-/

namespace ChainLedger

open Change

/-- A record that is handed in, with the parameters of the chain that it is judged by. -/
structure Submission where
  params : ChainParams
  record : Record

namespace Submission

/-- The verdict on the record as the ledger stands, and its transaction after that. -/
def judged (x : Submission) (s : Session) : Except TransactionError Verdict × Transaction :=
  (Transaction.received x.record).validate x.params s

/-- The record is found good and is signed. -/
def IsAccepted (x : Submission) (s : Session) : Prop :=
  (x.judged s).1 = .ok .ok ∧ x.record.isSigned = true

instance (x : Submission) (s : Session) : Decidable (x.IsAccepted s) :=
  inferInstanceAs (Decidable (_ ∧ _))

/-- Processing the transaction that was judged. -/
def processed (x : Submission) (s : Session) : Step := (x.judged s).2.process x.params s

/-- The ledger after the record was handed in. -/
def after (x : Submission) (s : Session) : Session :=
  if x.IsAccepted s then (x.processed s).session else s

variable {x : Submission} {s : Session}

theorem judged_eq_ok {t : Transaction} :
    x.judged s = (.ok .ok, t) ↔ x.record.verdict x.params s = .ok .ok ∧ t = ⟨x.record, .valid⟩ :=
  Transaction.validate_received_eq_iff

/-- A record is accepted exactly if its verdict is good and it has a signature. -/
theorem isAccepted_iff : x.IsAccepted s ↔
    x.record.verdict x.params s = .ok .ok ∧ ∃ signature, x.record.signature? = some signature := by
  rw [IsAccepted, Record.isSigned, Option.isSome_iff_exists]
  refine and_congr_left fun _ => ⟨fun good => ?_, fun good => ?_⟩
  · have same : x.judged s = (.ok .ok, (x.judged s).2) := Prod.ext good rfl
    exact (judged_eq_ok.mp same).1
  · rw [judged_eq_ok.mpr ⟨good, rfl⟩]

/-- An accepted record is processed as a valid transaction. -/
theorem IsAccepted.processed_eq (accepted : x.IsAccepted s) :
    x.processed s = (Transaction.mk x.record .valid).process x.params s := by
  rw [processed, judged_eq_ok.mpr ⟨(isAccepted_iff.mp accepted).1, rfl⟩]

/-- Processing an accepted record makes the changes that are planned for it. -/
theorem IsAccepted.processed_eq_of_plan {signature : Signature} {plan : Plan}
    (accepted : x.IsAccepted s) (signed : x.record.signature? = some signature)
    (planned : x.record.processing x.params s signature = .ok plan)
    (made : (Change.makeAll plan.changes s).outcome = .ok ()) :
    x.processed s =
      ⟨.ok (), ⟨plan.after, .processed⟩, (Change.makeAll plan.changes s).session⟩ := by
  rw [accepted.processed_eq, Transaction.process_valid signed planned,
    Transaction.carryOut_of_ok made]

/-- An accepted record that was processed was planned, and its plan was carried out. -/
theorem IsAccepted.exists_of_processed (accepted : x.IsAccepted s)
    (done : (x.processed s).outcome = .ok ()) :
    ∃ signature plan, x.record.signature? = some signature ∧
      x.record.processing x.params s signature = .ok plan ∧
      (Change.makeAll plan.changes s).outcome = .ok () ∧
      x.processed s =
        ⟨.ok (), ⟨plan.after, .processed⟩, (Change.makeAll plan.changes s).session⟩ := by
  rw [accepted.processed_eq] at done ⊢
  obtain ⟨signature, plan, -, signed, planned, made, left⟩ := Transaction.exists_of_process done
  exact ⟨signature, plan, signed, planned, made, left⟩

theorem IsAccepted.after_eq (accepted : x.IsAccepted s) : x.after s = (x.processed s).session :=
  if_pos accepted

/-- What the changes that are planned for an accepted record do to a balance. -/
theorem IsAccepted.balance_after {signature : Signature} {plan : Plan} (accepted : x.IsAccepted s)
    (signed : x.record.signature? = some signature)
    (planned : x.record.processing x.params s signature = .ok plan)
    (done : (x.processed s).outcome = .ok ()) (account : Address) (asset : AssetId) :
    (x.after s).balance account asset =
      onBalanceAll account asset plan.changes (s.balance account asset) := by
  rw [accepted.processed_eq, Transaction.process_valid signed planned,
    Transaction.carryOut_eq_ok_iff] at done
  rw [accepted.after_eq, accepted.processed_eq_of_plan signed planned done]
  exact balance_makeAll done account asset

theorem after_of_not_isAccepted (refused : ¬x.IsAccepted s) : x.after s = s := if_neg refused

/-- The changes that an accepted allocation makes. -/
theorem IsAccepted.made_genesis {params : ChainParams} {g : Genesis} {signature : Signature}
    (accepted : (Submission.mk params (.genesis g)).IsAccepted s)
    (signed : (Record.genesis g).signature? = some signature) :
    ∃ changes, changes = [.setBalance g.recipient nativeAsset g.amount,
        .setReference g.recipient signature, .saveTransaction (.genesis g)] ∧
      (makeAll changes s).outcome = .ok () ∧
      (Submission.mk params (.genesis g)).after s = (makeAll changes s).session := by
  have stored : (Record.genesis g).isSigned = true := by
    rw [Record.isSigned, signed]
    rfl
  have made : (makeAll [.setBalance g.recipient nativeAsset g.amount,
      .setReference g.recipient signature, .saveTransaction (.genesis g)] s).outcome = .ok () := by
    apply makeAll_eq_ok <;> simp [IsSteady, Makeable, stored]
  refine ⟨_, rfl, made, ?_⟩
  rw [accepted.after_eq, accepted.processed_eq_of_plan signed rfl made]
  rfl

/-- An accepted allocation leaves its account with the coins and its signature as reference. -/
theorem IsAccepted.after_genesis {params : ChainParams} {g : Genesis} {signature : Signature}
    (accepted : (Submission.mk params (.genesis g)).IsAccepted s)
    (signed : (Record.genesis g).signature? = some signature) :
    ((Submission.mk params (.genesis g)).after s).balance g.recipient nativeAsset = .ok g.amount ∧
      ((Submission.mk params (.genesis g)).after s).lastReference g.recipient =
        .ok (some signature) := by
  obtain ⟨_, rfl, made, left⟩ := accepted.made_genesis signed
  rw [left]
  constructor
  · refine (balance_makeAll made _ _).trans ?_
    simp [onBalanceAll, onBalance]
  · refine (lastReference_makeAll made _).trans ?_
    simp [onReferenceAll, onReference]

/-- It leaves any other account as it was. -/
theorem IsAccepted.after_genesis_other {params : ChainParams} {g : Genesis}
    {signature : Signature} (accepted : (Submission.mk params (.genesis g)).IsAccepted s)
    (signed : (Record.genesis g).signature? = some signature) {account : Address}
    (other : account ≠ g.recipient) (asset : AssetId) :
    ((Submission.mk params (.genesis g)).after s).balance account asset =
        s.balance account asset ∧
      ((Submission.mk params (.genesis g)).after s).lastReference account =
        s.lastReference account := by
  obtain ⟨_, rfl, made, left⟩ := accepted.made_genesis signed
  rw [left]
  constructor
  · refine (balance_makeAll made _ _).trans ?_
    simp [onBalanceAll, onBalance, other]
  · refine (lastReference_makeAll made _).trans ?_
    simp [onReferenceAll, onReference, other]

end Submission

namespace Session

/-- The ledger after a run. -/
def run (s : Session) (history : List Submission) : Session :=
  history.foldl (fun s x => x.after s) s

/-- The records that a run processes. -/
def accepted (s : Session) : List Submission → List Record
  | [] => []
  | x :: rest => (if x.IsAccepted s then [x.record] else []) ++ (x.after s).accepted rest

variable {s : Session} {history : List Submission}

theorem run_cons (s : Session) (x : Submission) (history : List Submission) :
    s.run (x :: history) = (x.after s).run history :=
  rfl

theorem run_concat (s : Session) (history : List Submission) (x : Submission) :
    s.run (history ++ [x]) = x.after (s.run history) :=
  List.foldl_append

theorem accepted_append (s : Session) (first second : List Submission) :
    s.accepted (first ++ second) = s.accepted first ++ (s.run first).accepted second := by
  induction first generalizing s with
  | nil => rfl
  | cons x rest ih => rw [List.cons_append, accepted, accepted, ih, List.append_assoc, run_cons]

end Session

end ChainLedger

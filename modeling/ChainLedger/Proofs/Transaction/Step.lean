import ChainLedger.Proofs.Ledger.Change
import ChainLedger.Transaction

/-!
# Steps that are carried out

An allowed step on a signed record that can be planned makes the changes of the plan,
and it succeeds exactly when they do.
-/

namespace ChainLedger.Transaction

open Change

variable {params : ChainParams} {s : Session} {r : Record} {signature : Signature} {plan : Plan}

/-- A record that was just received becomes valid exactly by a good verdict. -/
theorem validate_received_eq_iff {t : Transaction} :
    (received r).validate params s = (.ok .ok, t) ↔
      r.verdict params s = .ok .ok ∧ t = ⟨r, .valid⟩ := by
  have permitted : (received r).permit .validate = .ok () := rfl
  have own : (received r).record = r := rfl
  unfold validate
  simp only [permitted, own]
  cases r.verdict params s with
  | error error => simp
  | ok verdict =>
    by_cases good : verdict = .ok
    · simp [good, eq_comm]
    · simp [good]

/-- A record that was just received is judged by its rules. -/
theorem validate_received_of_ok {verdict : Verdict} (known : r.verdict params s = .ok verdict) :
    ((received r).validate params s).1 = .ok verdict := by
  have permitted : (received r).permit .validate = .ok () := rfl
  have known' : (received r).record.verdict params s = .ok verdict := known
  unfold validate
  rw [permitted]
  simp only [known']

/-- The verdict on a record that was just received is the one of its rules. -/
theorem validate_received_fst_eq_ok_iff {verdict : Verdict} :
    ((received r).validate params s).1 = .ok verdict ↔ r.verdict params s = .ok verdict := by
  refine ⟨fun judged => ?_, validate_received_of_ok⟩
  have permitted : (received r).permit .validate = .ok () := rfl
  have own : (received r).record = r := rfl
  unfold validate at judged
  simp only [permitted, own] at judged
  cases known : r.verdict params s with
  | error error => simp [known] at judged
  | ok found => simpa [known] using judged

theorem carryOut_of_ok {t : Transaction} {stage : Stage}
    (made : (makeAll plan.changes s).outcome = .ok ()) :
    t.carryOut s stage plan = ⟨.ok (), ⟨plan.after, stage⟩, (makeAll plan.changes s).session⟩ := by
  unfold carryOut
  simp only [made]

theorem carryOut_eq_ok_iff {t : Transaction} {stage : Stage} :
    (t.carryOut s stage plan).outcome = .ok () ↔ (makeAll plan.changes s).outcome = .ok () := by
  unfold carryOut
  cases made : (makeAll plan.changes s).outcome <;> simp [made]

/-- A plan is carried out in full, or up to a change that fails. -/
theorem carryOut_cases (t : Transaction) (s : Session) (stage : Stage) (plan : Plan) :
    (∃ error, t.carryOut s stage plan =
        ⟨.error (.data error), { t with record := plan.during },
          (makeAll plan.changes s).session⟩) ∨
      t.carryOut s stage plan =
        ⟨.ok (), ⟨plan.after, stage⟩, (makeAll plan.changes s).session⟩ := by
  cases made : (makeAll plan.changes s).outcome with
  | error error => exact .inl ⟨error, by simp only [carryOut, made]⟩
  | ok done => exact .inr (carryOut_of_ok made)

theorem signature_eq_ok (signed : r.signature? = some signature) (stage : Stage) :
    (Transaction.mk r stage).signature = .ok signature := by
  unfold Transaction.signature
  rw [signed]

/-! ## All that a step can come to -/

section Cases

variable {t : Transaction}

/-- An operation is permitted exactly at the stages that allow it. -/
theorem permit_eq_ok_iff {operation : Operation} :
    t.permit operation = .ok () ↔ allows operation t.stage = true := by
  unfold permit
  split <;> simp_all

theorem stage_of_permit_process (permitted : t.permit .process = .ok ()) : t.stage = .valid := by
  have allowed := permit_eq_ok_iff.mp permitted
  cases stage : t.stage <;> simp_all [allows]

theorem stage_of_permit_orphan (permitted : t.permit .orphan = .ok ()) : t.stage = .processed := by
  have allowed := permit_eq_ok_iff.mp permitted
  cases stage : t.stage <;> simp_all [allows]

theorem signature_eq_ok_iff :
    t.signature = .ok signature ↔ t.record.signature? = some signature := by
  unfold Transaction.signature
  cases t.record.signature? <;> simp

/-- **Judging is refused or fails without a trace, or decides the stage.** -/
theorem validate_cases (params : ChainParams) (s : Session) (t : Transaction) :
    (∃ error, t.validate params s = (.error error, t)) ∨
      ∃ verdict, t.stage ≠ .processed ∧ t.record.verdict params s = .ok verdict ∧
        t.validate params s =
          (.ok verdict, { t with stage := if verdict = .ok then .valid else .unvalidated }) := by
  unfold validate
  cases permitted : t.permit .validate with
  | error error => exact .inl ⟨error, rfl⟩
  | ok allowed =>
    have allowed := permit_eq_ok_iff.mp permitted
    have unprocessed : t.stage ≠ .processed := by
      intro stage
      rw [stage] at allowed
      cases allowed
    cases known : t.record.verdict params s with
    | error error => exact .inl ⟨.data error, rfl⟩
    | ok verdict => exact .inr ⟨verdict, unprocessed, rfl, rfl⟩

/-- What was judged good is valid, by the verdict of the rules. -/
theorem good_of_validate {valid : Transaction}
    (judged : t.validate params s = (.ok .ok, valid)) :
    t.record.verdict params s = .ok .ok ∧ valid = ⟨t.record, .valid⟩ := by
  obtain ⟨error, failed⟩ | ⟨verdict, -, known, decided⟩ := validate_cases params s t
  · rw [failed] at judged
    cases judged
  · rw [decided] at judged
    cases judged
    exact ⟨known, rfl⟩

/-- **Processing is refused without a trace, or carries its plan out.** -/
theorem process_cases (params : ChainParams) (s : Session) (t : Transaction) :
    (∃ error, t.process params s = t.refuse s error) ∨
      ∃ signature plan, t.stage = .valid ∧ t.record.signature? = some signature ∧
        t.record.processing params s signature = .ok plan ∧
        t.process params s = t.carryOut s .processed plan := by
  unfold process
  cases permitted : t.permit .process with
  | error error => exact .inl ⟨error, rfl⟩
  | ok allowed =>
    cases known : t.signature with
    | error error => exact .inl ⟨error, rfl⟩
    | ok signature =>
      cases planned : t.record.processing params s signature with
      | error error => exact .inl ⟨error, by simp only [planned]⟩
      | ok plan =>
        refine .inr ⟨signature, plan, stage_of_permit_process permitted,
          signature_eq_ok_iff.mp known, planned, ?_⟩
        simp only [planned]

/-- **Orphaning is refused without a trace, or removes the record** and then fails for want of a
plan or carries it out. -/
theorem orphan_cases (s : Session) (t : Transaction) :
    (∃ error, t.orphan s = t.refuse s error) ∨
      ∃ signature, t.stage = .processed ∧ t.record.signature? = some signature ∧
        ((Change.deleteTransaction t.record).make s).outcome = .ok () ∧
        let removed := ((Change.deleteTransaction t.record).make s).session
        ((∃ error, t.record.undoing signature = .error error ∧
            t.orphan s = t.refuse removed error) ∨
          ∃ plan, t.record.undoing signature = .ok plan ∧
            t.orphan s = t.carryOut removed .orphaned plan) := by
  unfold orphan
  cases permitted : t.permit .orphan with
  | error error => exact .inl ⟨error, rfl⟩
  | ok allowed =>
    cases known : t.signature with
    | error error => exact .inl ⟨error, rfl⟩
    | ok signature =>
      have signed := signature_eq_ok_iff.mp known
      have removed : ((Change.deleteTransaction t.record).make s).outcome = .ok () :=
        make_eq_ok_iff.mpr (Option.isSome_iff_exists.mpr ⟨signature, signed⟩)
      refine .inr ⟨signature, stage_of_permit_orphan permitted, signed, removed, ?_⟩
      simp only [removed]
      cases planned : t.record.undoing signature with
      | error error => exact .inl ⟨error, rfl, rfl⟩
      | ok plan => exact .inr ⟨plan, rfl, rfl⟩

/-- What a transaction that was processed has done. -/
theorem exists_of_process (done : (t.process params s).outcome = .ok ()) :
    ∃ signature plan, t.stage = .valid ∧ t.record.signature? = some signature ∧
      t.record.processing params s signature = .ok plan ∧
      (makeAll plan.changes s).outcome = .ok () ∧
      t.process params s =
        ⟨.ok (), ⟨plan.after, .processed⟩, (makeAll plan.changes s).session⟩ := by
  obtain ⟨error, refused⟩ | ⟨signature, plan, valid, signed, planned, carried⟩ :=
    process_cases params s t
  · rw [refused] at done
    cases done
  · rw [carried] at done ⊢
    have made := carryOut_eq_ok_iff.mp done
    exact ⟨signature, plan, valid, signed, planned, made, carryOut_of_ok made⟩

/-- What a transaction that was orphaned has done. -/
theorem exists_of_orphan (done : (t.orphan s).outcome = .ok ()) :
    ∃ signature plan, t.stage = .processed ∧ t.record.signature? = some signature ∧
      t.record.undoing signature = .ok plan ∧
      (makeAll (.deleteTransaction t.record :: plan.changes) s).outcome = .ok () ∧
      t.orphan s = ⟨.ok (), ⟨plan.after, .orphaned⟩,
        (makeAll (.deleteTransaction t.record :: plan.changes) s).session⟩ := by
  obtain ⟨error, refused⟩ | ⟨signature, held, signed, removed, failed | carries⟩ :=
    orphan_cases s t
  · rw [refused] at done
    cases done
  · obtain ⟨error, -, refused⟩ := failed
    rw [refused] at done
    cases done
  · obtain ⟨plan, planned, carried⟩ := carries
    rw [carried] at done ⊢
    have made := carryOut_eq_ok_iff.mp done
    refine ⟨signature, plan, held, signed, planned, makeAll_cons_eq_ok_iff.mpr ⟨removed, made⟩, ?_⟩
    rw [makeAll_cons_of_ok removed, carryOut_of_ok made]

end Cases

/-! ## Steps at the stage that allows them -/

/-- A valid transaction with a plan is processed by carrying the plan out. -/
theorem process_valid (signed : r.signature? = some signature)
    (planned : r.processing params s signature = .ok plan) :
    (Transaction.mk r .valid).process params s =
      (Transaction.mk r .valid).carryOut s .processed plan := by
  have permitted : (Transaction.mk r .valid).permit .process = .ok () := rfl
  have known := signature_eq_ok signed .valid
  unfold process
  rw [permitted, known]
  simp only [planned]

/-- A valid transaction is processed only if it can be planned, and its plan be carried out. -/
theorem process_valid_eq_ok (signed : r.signature? = some signature)
    (done : ((Transaction.mk r .valid).process params s).outcome = .ok ()) :
    ∃ plan, r.processing params s signature = .ok plan ∧
      (makeAll plan.changes s).outcome = .ok () ∧
      (Transaction.mk r .valid).process params s =
        ⟨.ok (), ⟨plan.after, .processed⟩, (makeAll plan.changes s).session⟩ := by
  obtain ⟨signature', plan, -, signed', planned, made, carried⟩ := exists_of_process done
  obtain rfl := Option.some.inj (signed.symm.trans signed')
  exact ⟨plan, planned, made, carried⟩

/-- Only what has a signature is processed. -/
theorem exists_signature_of_process {stage : Stage}
    (done : ((Transaction.mk r stage).process params s).outcome = .ok ()) :
    ∃ signature, r.signature? = some signature := by
  obtain ⟨signature, _, -, signed, -⟩ := exists_of_process done
  exact ⟨signature, signed⟩

/-- A processed transaction is orphaned by removing its record and carrying out a plan. -/
theorem orphan_processed (signed : r.signature? = some signature)
    (planned : r.undoing signature = .ok plan)
    (made : (makeAll (.deleteTransaction r :: plan.changes) s).outcome = .ok ()) :
    (processed r).orphan s =
      ⟨.ok (), ⟨plan.after, .orphaned⟩,
        (makeAll (.deleteTransaction r :: plan.changes) s).session⟩ := by
  have permitted : (processed r).permit .orphan = .ok () := rfl
  have known : (processed r).signature = .ok signature := signature_eq_ok signed .processed
  have own : (processed r).record = r := rfl
  rcases makeAll_cons_eq_ok_iff.mp made with ⟨removed, undone⟩
  rw [makeAll_cons_of_ok removed]
  unfold orphan
  simp only [permitted, known, own, removed, planned]
  exact carryOut_of_ok undone

end ChainLedger.Transaction

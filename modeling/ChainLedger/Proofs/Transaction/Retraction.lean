import ChainLedger.Proofs.Transaction.Orphan

/-!
# There and back

Processing a record and orphaning it is one list of changes: those that process it, the
storing and the removing of the record, and those that undo. Both steps succeed if all of
these can be made, and they leave what these leave.
-/

namespace ChainLedger

open Change

variable {params : ChainParams} {s : Session} {signature : Signature} {r : Record}
  {envelope : Envelope} {action : Action} {plan back : Plan}

/-- A record that is processed and orphaned by its plans leaves what their changes leave. -/
theorem Transaction.orphan_process_of_plans (signed : r.signature? = some signature)
    (planned : r.processing params s signature = .ok plan)
    (signed' : plan.after.signature? = some signature)
    (undone : plan.after.undoing signature = .ok back)
    (made : (makeAll (plan.changes ++ .deleteTransaction plan.after :: back.changes) s).outcome =
      .ok ()) :
    let done := (Transaction.mk r .valid).process params s
    done.outcome = .ok () ∧
      done.transaction.orphan done.session = ⟨.ok (), ⟨back.after, .orphaned⟩,
        (makeAll (plan.changes ++ .deleteTransaction plan.after :: back.changes) s).session⟩ := by
  rcases makeAll_append_eq_ok_iff.mp made with ⟨stored, taken⟩
  rw [makeAll_append_of_ok stored, Transaction.process_valid signed planned,
    Transaction.carryOut_of_ok stored]
  exact ⟨rfl, Transaction.orphan_processed signed' undone taken⟩

/-- **Processing and orphaning as one list of changes.** -/
theorem Transaction.orphan_process_valid
    (signed : (Record.standard envelope action).signature? = some signature)
    (planned : action.processing params s signature envelope = .ok plan)
    (undone : plan.after.undoing signature = .ok back)
    (made : (makeAll (plan.changes ++ storeAndRemove plan.after ++ back.changes) s).outcome =
      .ok ()) :
    let done := (Transaction.mk (.standard envelope action) .valid).process params s
    done.outcome = .ok () ∧
      done.transaction.orphan done.session = ⟨.ok (), ⟨back.after, .orphaned⟩,
        (makeAll (plan.changes ++ storeAndRemove plan.after ++ back.changes) s).session⟩ := by
  obtain ⟨after, same⟩ := Record.exists_after planned
  have signed' : plan.after.signature? = some signature := same ▸ signed
  have split : plan.changes ++ storeAndRemove plan.after ++ back.changes =
      (plan.changes ++ [.saveTransaction plan.after]) ++
        .deleteTransaction plan.after :: back.changes := by
    simp [storeAndRemove]
  have whole := Record.processing_standard_eq_ok_iff.mpr ⟨plan, planned, rfl⟩
  rw [split] at made ⊢
  exact Transaction.orphan_process_of_plans signed whole signed' undone made

end ChainLedger

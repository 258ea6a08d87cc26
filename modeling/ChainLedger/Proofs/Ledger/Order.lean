import ChainLedger.Proofs.Amount
import ChainLedger.Proofs.Ledger.Total
import Mathlib.Data.List.Perm.Basic

/-!
# Changes in another order, and over another ledger

Amounts add up to the same balance in any order, even where a sum wraps around, so changes
that replace no balance may be made in any order. And what changes need is that certain
balances and references can be read: where they can be made, they can be made over every
ledger in which as much can be read.
-/

namespace ChainLedger

namespace Change

variable {account : Address} {asset : AssetId}

/-! ## Another order -/

/-- Two changes that replace no balance do the same to it in either order. -/
theorem onBalance_comm {first second : Change} (keep : first.ReplacesNoBalance)
    (keep' : second.ReplacesNoBalance) (balance : Except DataError Amount) :
    first.onBalance account asset (second.onBalance account asset balance) =
      second.onBalance account asset (first.onBalance account asset balance) := by
  cases first with
  | adjust other asset' delta =>
    cases second with
    | adjust other' asset'' delta' =>
      simp only [onBalance]
      split <;> split <;> try rfl
      cases balance with
      | error error => rfl
      | ok amount => exact congrArg Except.ok (Amount.add_right_comm amount delta' delta)
    | setBalance | clearBalance => exact keep'.elim
    | _ => rfl
  | setBalance | clearBalance => exact keep.elim
  | _ => rfl

/-- **Changes that replace no balance do the same to it in any order.** -/
theorem onBalanceAll_perm {changes others : List Change} (perm : changes.Perm others)
    (keep : ∀ change ∈ changes, change.ReplacesNoBalance) (balance : Except DataError Amount) :
    onBalanceAll account asset changes balance = onBalanceAll account asset others balance :=
  perm.foldl_eq' (fun first member second member' balance =>
    onBalance_comm (keep second member') (keep first member) balance) balance

end Change

/-! ## Another ledger -/

/-- Every balance and reference that can be read in the one ledger can be read in the other. -/
structure Session.AsLegible (s t : Session) : Prop where
  balance : ∀ {account asset}, s.Legible (.balance account asset) →
    t.Legible (.balance account asset)
  reference : ∀ {account}, s.Legible (.reference account) → t.Legible (.reference account)

namespace Change

variable {change : Change} {changes : List Change} {s t : Session}

/-- After changes that succeed as much can be read as before. -/
theorem asLegible_makeAll (made : (makeAll changes s).outcome = .ok ()) :
    s.AsLegible (makeAll changes s).session where
  balance legible := legible_balance_makeAll legible made
  reference legible := legible_reference_makeAll legible made

theorem makeable_of_asLegible (steady : change.IsSteady) (more : s.AsLegible t)
    (makeable : change.Makeable s) : change.Makeable t := by
  cases change with
  | adjust => exact more.balance makeable
  | introduce | retract => exact more.reference makeable
  | deleteAsset | deleteAt => exact steady.elim
  | saveTransaction | deleteTransaction => exact makeable
  | setBalance | clearBalance | setReference | clearReference | savePoll | deletePoll | saveVote
  | deleteVote | saveAsset | saveAt => exact trivial

section Legible

variable {account : Address} {asset : AssetId} {first second : Except DataError Amount}
  {last last' : Except DataError (Option Signature)}

/-- A balance that a change leaves legible it leaves so wherever it was as legible before. -/
theorem exists_onBalance (more : (∃ amount, first = .ok amount) → ∃ amount, second = .ok amount)
    (known : ∃ amount, change.onBalance account asset first = .ok amount) :
    ∃ amount, change.onBalance account asset second = .ok amount := by
  cases change with
  | adjust other asset' delta =>
    by_cases here : account = other ∧ asset = asset'
    · simp only [onBalance, if_pos here, Except.map_eq_ok_iff] at known ⊢
      obtain ⟨_, amount, before, -⟩ := known
      obtain ⟨amount', before'⟩ := more ⟨amount, before⟩
      exact ⟨_, amount', before', rfl⟩
    · simp only [onBalance, if_neg here] at known ⊢
      exact more known
  | setBalance other asset' | clearBalance other asset' =>
    by_cases here : account = other ∧ asset = asset'
    · exact ⟨_, if_pos here⟩
    · simp only [onBalance, if_neg here] at known ⊢
      exact more known
  | _ => exact more known

/-- A reference that a change leaves legible it leaves so wherever it was as legible before. -/
theorem exists_onReference (more : (∃ held, last = .ok held) → ∃ held, last' = .ok held)
    (known : ∃ held, change.onReference account last = .ok held) :
    ∃ held, change.onReference account last' = .ok held := by
  cases change with
  | introduce other | retract other =>
    by_cases here : account = other
    · simp only [onReference, if_pos here, Except.map_eq_ok_iff] at known ⊢
      obtain ⟨_, held, before, -⟩ := known
      obtain ⟨held', before'⟩ := more ⟨held, before⟩
      exact ⟨_, held', before', rfl⟩
    · simp only [onReference, if_neg here] at known ⊢
      exact more known
  | setReference other | clearReference other =>
    by_cases here : account = other
    · exact ⟨_, if_pos here⟩
    · simp only [onReference, if_neg here] at known ⊢
      exact more known
  | _ => exact more known

end Legible

/-- The same change leaves as much to be read in the one ledger as in the other. -/
theorem asLegible_make (more : s.AsLegible t) (made : (change.make s).outcome = .ok ())
    (made' : (change.make t).outcome = .ok ()) :
    (change.make s).session.AsLegible (change.make t).session where
  balance {account asset} legible := by
    rw [Session.legible_balance_iff, balance_make made] at legible
    rw [Session.legible_balance_iff, balance_make made']
    refine exists_onBalance (fun known => ?_) legible
    exact Session.legible_balance_iff.mp (more.balance (Session.legible_balance_iff.mpr known))
  reference {account} legible := by
    rw [Session.legible_reference_iff, lastReference_make made] at legible
    rw [Session.legible_reference_iff, lastReference_make made']
    exact exists_onReference more.reference legible

/-- **Steady changes can be made wherever as much can be read.** -/
theorem makeAll_of_asLegible (steady : ∀ change ∈ changes, change.IsSteady) (more : s.AsLegible t)
    (made : (makeAll changes s).outcome = .ok ()) : (makeAll changes t).outcome = .ok () := by
  induction changes generalizing s t with
  | nil => rfl
  | cons change rest ih =>
    rw [List.forall_mem_cons] at steady
    rcases makeAll_cons_eq_ok_iff.mp made with ⟨first, later⟩
    have first' := make_eq_ok_iff.mpr
      (makeable_of_asLegible steady.1 more (make_eq_ok_iff.mp first))
    exact makeAll_cons_eq_ok_iff.mpr
      ⟨first', ih steady.2 (asLegible_make more first first') later⟩

end Change

end ChainLedger

import ChainLedger.Proofs.Ledger.Supply
import ChainLedger.Proofs.Transaction.Plan

/-!
# Fees and legs within the supply

An account that has what it owes pays its fee and moves its legs without a balance
wrapping around, whatever the order of the legs and whoever receives them. What carries
this from one leg to the next is that the sender still has what the rest of the legs
take of each asset: a leg takes from it no more than it owes for that leg.
-/

namespace ChainLedger

open Change Change.AllSafe

variable {s : Session} {supply : AssetId → Int} {creator sender : Address} {fee : Amount}
  {leg : Leg} {legs : List Leg}

/-! ## What is owed -/

/-- What legs take of an asset. -/
def owed (asset : AssetId) (legs : List Leg) : Int :=
  (legs.filter fun leg => leg.assetId == asset).foldr (fun leg total => leg.amount.toInt + total) 0

theorem totalOf_eq (asset : AssetId) (legs : List Leg) (fee : Amount) :
    totalOf asset legs fee = (if asset = nativeAsset then fee.toInt else 0) + owed asset legs :=
  rfl

theorem owed_cons (asset : AssetId) (leg : Leg) (legs : List Leg) :
    owed asset (leg :: legs) =
      (if asset = leg.assetId then leg.amount.toInt else 0) + owed asset legs := by
  unfold owed
  by_cases same : asset = leg.assetId
  · simp [same]
  · have other : (leg.assetId == asset) = false := beq_eq_false_iff_ne.mpr (Ne.symm same)
    simp [same, other]

theorem owed_nonneg (nonneg : ∀ leg ∈ legs, 0 ≤ leg.amount.toInt) (asset : AssetId) :
    0 ≤ owed asset legs := by
  induction legs with
  | nil => exact Int.le_refl 0
  | cons leg rest ih =>
    rw [List.forall_mem_cons] at nonneg
    have later := ih nonneg.2
    rw [owed_cons]
    split <;> omega

/-- Nothing is owed of an asset that no leg moves. -/
theorem owed_eq_zero {asset : AssetId} (unmoved : ∀ leg ∈ legs, leg.assetId ≠ asset) :
    owed asset legs = 0 := by
  induction legs with
  | nil => rfl
  | cons leg rest ih =>
    rw [List.forall_mem_cons] at unmoved
    rw [owed_cons, if_neg (Ne.symm unmoved.1), ih unmoved.2, add_zero]

/-! ## Paying -/

/-- A fee that an account has is charged safely. -/
theorem safe_chargeFee (signature : Signature) (backed : s.Backed supply) (nonneg : 0 ≤ fee.toInt)
    (has : fee.toInt ≤ s.units creator nativeAsset) :
    AllSafe supply (chargeFee creator fee signature) s ∧
      ∀ account asset, (makeAll (chargeFee creator fee signature) s).session.units account asset =
        s.units account asset +
          if account = creator ∧ asset = nativeAsset then -fee.toInt else 0 := by
  obtain ⟨paid, units⟩ := backed.take nonneg has
  have other : ∀ change ∈ [Change.setReference creator signature],
      "balance/" ∉ change.families := by
    simp [families]
  obtain ⟨safe, same⟩ := paid.append_other other rfl
  exact ⟨safe, fun account asset => (same account asset).trans (units account asset)⟩

/-- A leg that the sender has is moved safely. -/
theorem safe_move (signature : Signature) (backed : s.Backed supply)
    (bounded : supply leg.assetId ≤ Amount.largest)
    (legible : ∀ account, s.Legible (.reference account)) (nonneg : 0 ≤ leg.amount.toInt)
    (has : leg.amount.toInt ≤ s.units sender leg.assetId) :
    AllSafe supply (leg.move sender signature) s ∧
      ∀ account asset, (makeAll (leg.move sender signature) s).session.units account asset =
        s.units account asset +
            (if account = sender ∧ asset = leg.assetId then -leg.amount.toInt else 0) +
          (if account = leg.recipient ∧ asset = leg.assetId then leg.amount.toInt else 0) := by
  obtain ⟨moved, units⟩ := backed.transfer leg.recipient bounded nonneg (Int.le_refl _) has
  unfold Leg.move
  split
  next =>
    have other : ∀ change ∈ [Change.introduce leg.recipient signature],
        "balance/" ∉ change.families := by
      simp [families]
    have known := legible_reference_makeAll (legible leg.recipient) moved.made
    obtain ⟨safe, same⟩ := moved.append_other other
      (makeAll_cons_eq_ok_iff.mpr ⟨make_eq_ok_iff.mpr known, rfl⟩)
    exact ⟨safe, fun account asset => (same account asset).trans (units account asset)⟩
  next =>
    rw [List.append_nil]
    exact ⟨moved, units⟩

/-- **Legs are moved safely** by a sender that has what it owes. -/
theorem safe_moveAll (signature : Signature) (backed : s.Backed supply)
    (bounded : ∀ leg ∈ legs, supply leg.assetId ≤ Amount.largest)
    (legible : ∀ account, s.Legible (.reference account))
    (nonneg : ∀ leg ∈ legs, 0 ≤ leg.amount.toInt)
    (has : ∀ asset, owed asset legs ≤ s.units sender asset) :
    AllSafe supply (moveAll sender signature legs) s ∧
      ∀ account asset, (∀ leg ∈ legs, leg.assetId ≠ asset) →
        (makeAll (moveAll sender signature legs) s).session.units account asset =
          s.units account asset := by
  induction legs generalizing s with
  | nil => exact ⟨.nil backed, fun _ _ _ => rfl⟩
  | cons leg rest ih =>
    rw [List.forall_mem_cons] at bounded nonneg
    have split : moveAll sender signature (leg :: rest) =
        leg.move sender signature ++ moveAll sender signature rest := List.flatMap_cons
    have covered : leg.amount.toInt ≤ s.units sender leg.assetId := by
      have due := has leg.assetId
      have later := owed_nonneg nonneg.2 leg.assetId
      rw [owed_cons, if_pos rfl] at due
      omega
    obtain ⟨moved, units⟩ := safe_move signature backed bounded.1 legible
      nonneg.1 covered
    have legible' : ∀ account, (makeAll (leg.move sender signature) s).session.Legible
        (.reference account) :=
      fun account => legible_reference_makeAll (legible account) moved.made
    have has' : ∀ asset, owed asset rest ≤
        (makeAll (leg.move sender signature) s).session.units sender asset := by
      intro asset
      have due := has asset
      rw [owed_cons] at due
      rw [units]
      by_cases same : asset = leg.assetId
      · subst same
        simp only [and_self, and_true, if_true] at due ⊢
        split <;> omega
      · simp only [same, and_false, if_false] at due ⊢
        omega
    obtain ⟨later, unmoved⟩ := ih moved.backed bounded.2 legible' nonneg.2 has'
    rw [split]
    refine ⟨moved.append later, fun account asset other => ?_⟩
    rw [List.forall_mem_cons] at other
    rw [makeAll_append_of_ok moved.made, unmoved account asset other.2, units]
    simp [Ne.symm other.1]

end ChainLedger

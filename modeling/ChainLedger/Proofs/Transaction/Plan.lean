import ChainLedger.Proofs.Amount
import ChainLedger.Proofs.Ledger.Change
import ChainLedger.Transaction.Plan

/-!
# Moving legs and moving them back

The parts that plans share, as what they do to one balance or one reference. Moving
legs back, the last one first, undoes the moves one by one, whoever sends and receives:
for a balance the legs nest. For references they do not, because a first reference
comes with the first leg and goes with the last one; there it is the set of the
accounts that receive coins that counts.
-/

namespace ChainLedger

open Change

variable {account creator : Address} {asset : AssetId} {signature reference : Signature}
  {fee : Amount} {leg : Leg} {legs : List Leg}

/-! ## Fees -/

/-- A fee that is refunded leaves every balance as it was. -/
theorem onBalanceAll_fee (balance : Except DataError Amount) :
    onBalanceAll account asset (chargeFee creator fee signature ++ refundFee creator fee reference)
      balance = balance := by
  by_cases same : account = creator ∧ asset = nativeAsset
  · cases balance <;>
      simp [chargeFee, refundFee, onBalanceAll, onBalance, same, Except.map]
  · simp [chargeFee, refundFee, onBalanceAll, onBalance, same]

theorem onReferenceAll_chargeFee (last : Except DataError (Option Signature)) :
    onReferenceAll account (chargeFee creator fee signature) last =
      if account = creator then .ok (some signature) else last :=
  rfl

theorem onReferenceAll_refundFee (last : Except DataError (Option Signature)) :
    onReferenceAll account (refundFee creator fee reference) last =
      if account = creator then .ok (some reference) else last :=
  rfl

/-! ## Balances -/

theorem onBalanceAll_move (balance : Except DataError Amount) :
    onBalanceAll account asset (leg.move creator signature) balance =
      onBalanceAll account asset
        [.adjust creator leg.assetId (-leg.amount), .adjust leg.recipient leg.assetId leg.amount]
        balance := by
  unfold Leg.move
  split <;> rfl

theorem onBalanceAll_moveBack (balance : Except DataError Amount) :
    onBalanceAll account asset (leg.moveBack creator signature) balance =
      onBalanceAll account asset
        [.adjust leg.recipient leg.assetId (-leg.amount), .adjust creator leg.assetId leg.amount]
        balance := by
  unfold Leg.moveBack
  split <;> rfl

/-- A leg moved there and back leaves every balance as it was. -/
theorem onBalanceAll_move_moveBack (balance : Except DataError Amount) :
    onBalanceAll account asset (leg.moveBack creator signature)
      (onBalanceAll account asset (leg.move creator signature) balance) = balance := by
  rw [onBalanceAll_move, onBalanceAll_moveBack]
  cases balance with
  | error error => simp [onBalanceAll, onBalance, Except.map]
  | ok amount =>
    obtain ⟨recipient, moved, paid⟩ := leg
    by_cases other : asset = moved
    · subst other
      by_cases sends : account = creator
      · subst sends
        by_cases receives : account = recipient
        · subst receives
          simp [onBalanceAll, onBalance, Except.map]
        · simp [onBalanceAll, onBalance, receives, Except.map]
      · by_cases receives : account = recipient
        · subst receives
          simp [onBalanceAll, onBalance, sends, Except.map]
        · simp [onBalanceAll, onBalance, sends, receives]
    · simp [onBalanceAll, onBalance, other]

/-- **Legs moved and moved back** leave every balance as it was. -/
theorem onBalanceAll_moveAll_moveAllBack (balance : Except DataError Amount) :
    onBalanceAll account asset (moveAllBack creator signature legs)
      (onBalanceAll account asset (moveAll creator signature legs) balance) = balance := by
  induction legs generalizing balance with
  | nil => rfl
  | cons leg rest ih =>
    have front : moveAll creator signature (leg :: rest) =
        leg.move creator signature ++ moveAll creator signature rest := List.flatMap_cons
    have back : moveAllBack creator signature (leg :: rest) =
        moveAllBack creator signature rest ++ leg.moveBack creator signature := by
      simp [moveAllBack]
    rw [front, back, onBalanceAll_append, onBalanceAll_append, ih, onBalanceAll_move_moveBack]

/-! ## References -/

/-- The leg brings coins to an account. -/
def Leg.BringsCoins (leg : Leg) (account : Address) : Prop :=
  leg.assetId = nativeAsset ∧ account = leg.recipient

instance : Decidable (leg.BringsCoins account) := inferInstanceAs (Decidable (_ ∧ _))

theorem onReferenceAll_move (last : Except DataError (Option Signature)) :
    onReferenceAll account (leg.move creator signature) last =
      if leg.BringsCoins account then onReference account (.introduce account signature) last
      else last := by
  by_cases coins : leg.assetId = nativeAsset <;> by_cases receives : account = leg.recipient <;>
    simp [Leg.move, Leg.BringsCoins, onReferenceAll, onReference, coins, receives]

theorem onReferenceAll_moveBack (last : Except DataError (Option Signature)) :
    onReferenceAll account (leg.moveBack creator signature) last =
      if leg.BringsCoins account then onReference account (.retract account signature) last
      else last := by
  by_cases coins : leg.assetId = nativeAsset <;> by_cases receives : account = leg.recipient <;>
    simp [Leg.moveBack, Leg.BringsCoins, onReferenceAll, onReference, coins, receives]

theorem introduce_introduce (last : Except DataError (Option Signature)) :
    onReference account (.introduce account signature)
      (onReference account (.introduce account signature) last) =
      onReference account (.introduce account signature) last := by
  rcases last with error | _ | held <;> simp [onReference, Except.map]

theorem retract_retract (last : Except DataError (Option Signature)) :
    onReference account (.retract account signature)
      (onReference account (.retract account signature) last) =
      onReference account (.retract account signature) last := by
  rcases last with error | _ | held
  · simp [onReference, Except.map]
  · simp [onReference, Except.map]
  · by_cases given : held = signature <;> simp [onReference, Except.map, given]

/-- A first reference that was not there before is taken away again. -/
theorem retract_introduce {last : Except DataError (Option Signature)}
    (fresh : last ≠ .ok (some signature)) :
    onReference account (.retract account signature)
      (onReference account (.introduce account signature) last) = last := by
  rcases last with error | _ | held
  · simp [onReference, Except.map]
  · simp [onReference, Except.map]
  · have other : held ≠ signature := fun same => fresh (by rw [same])
    simp [onReference, Except.map, other]

/-- Where a change made again makes no difference, legs that each make it if they bring coins to
an account make it once, if any of them does. -/
theorem onReferenceAll_flatMap {steps : Leg → List Change} {once : Change}
    (again : ∀ last, onReference account once (onReference account once last) =
      onReference account once last)
    (each : ∀ leg last, onReferenceAll account (steps leg) last =
      if leg.BringsCoins account then onReference account once last else last)
    (legs : List Leg) (last : Except DataError (Option Signature)) :
    onReferenceAll account (legs.flatMap steps) last =
      if ∃ leg ∈ legs, leg.BringsCoins account then onReference account once last else last := by
  induction legs generalizing last with
  | nil => simp [onReferenceAll]
  | cons leg rest ih =>
    rw [List.flatMap_cons, onReferenceAll_append, ih, each]
    by_cases here : leg.BringsCoins account <;>
      by_cases later : ∃ leg ∈ rest, leg.BringsCoins account <;>
      simp [here, later, again]

/-- **Legs moved and moved back** leave every reference as it was, if none is the signature under
which they were moved. -/
theorem onReferenceAll_moveAll_moveAllBack {last : Except DataError (Option Signature)}
    (fresh : last ≠ .ok (some signature)) :
    onReferenceAll account (moveAllBack creator signature legs)
      (onReferenceAll account (moveAll creator signature legs) last) = last := by
  have there : onReferenceAll account (legs.flatMap (Leg.move creator signature)) last = _ :=
    onReferenceAll_flatMap introduce_introduce (fun _ last => onReferenceAll_move last) legs last
  have back : ∀ last,
      onReferenceAll account (legs.reverse.flatMap (Leg.moveBack creator signature)) last = _ :=
    onReferenceAll_flatMap retract_retract (fun _ last => onReferenceAll_moveBack last) legs.reverse
  rw [moveAll, there, moveAllBack, back]
  by_cases receives : ∃ leg ∈ legs, leg.BringsCoins account
  · simp only [List.mem_reverse, receives, if_true]
    exact retract_introduce fresh
  · simp only [List.mem_reverse, receives, if_false]

end ChainLedger

import ChainLedger.Proofs.Ledger.Supply
import Mathlib.Algebra.Order.Group.Abs
import Mathlib.Algebra.Ring.Int.Defs

/-!
# Credits of one account

What a change adds to one balance can be read off the change. Where no addition wraps
around and no balance is replaced, changes add together what each of them adds, however
often they come back to the same account, as giver, as receiver or as both.
-/

namespace ChainLedger.Change

variable {s : Session} {account : Address} {asset : AssetId} {change : Change}
  {changes : List Change}

/-- What a change adds to a balance, if it does not replace it. -/
def credit (account : Address) (asset : AssetId) : Change → Int
  | .adjust other asset' delta => if account = other ∧ asset = asset' then delta.toInt else 0
  | _ => 0

/-- What changes add to a balance. -/
def creditBy (account : Address) (asset : AssetId) (changes : List Change) : Int :=
  (changes.map (credit account asset)).sum

@[simp] theorem creditBy_nil : creditBy account asset [] = 0 := rfl

@[simp] theorem creditBy_cons : creditBy account asset (change :: changes) =
    change.credit account asset + creditBy account asset changes :=
  List.sum_cons

@[simp] theorem creditBy_append {first second : List Change} :
    creditBy account asset (first ++ second) =
      creditBy account asset first + creditBy account asset second := by
  simp [creditBy]

/-- The change does not put another amount in place of this balance. -/
def Keeps (account : Address) (asset : AssetId) : Change → Prop
  | .setBalance other asset' _ | .clearBalance other asset' => ¬ (account = other ∧ asset = asset')
  | _ => True

/-- An exact change adds its credit. -/
theorem units_make (made : (change.make s).outcome = .ok ()) (exact : change.IsExact s)
    (keeps : change.Keeps account asset) :
    (change.make s).session.units account asset =
      s.units account asset + change.credit account asset := by
  have after := balance_make made account asset
  cases change with
  | adjust other asset' delta =>
    exact units_make_adjust (make_eq_ok_iff.mp made) exact account asset
  | setBalance | clearBalance =>
    simp only [onBalance, if_neg keeps] at after
    exact (Session.units_congr after).trans (add_zero _).symm
  | setReference | clearReference | introduce | retract | savePoll | deletePoll | saveVote
  | deleteVote | saveAsset | deleteAsset | saveAt | deleteAt | saveTransaction
  | deleteTransaction =>
    exact (Session.units_congr after).trans (add_zero _).symm

/-- **Exact changes add their credits**, in whatever order. -/
theorem units_makeAll (made : (makeAll changes s).outcome = .ok ()) (exact : AllExact changes s)
    (keep : ∀ change ∈ changes, change.Keeps account asset) :
    (makeAll changes s).session.units account asset =
      s.units account asset + creditBy account asset changes := by
  induction changes generalizing s with
  | nil => exact (add_zero _).symm
  | cons change rest ih =>
    rw [List.forall_mem_cons] at keep
    rcases makeAll_cons_eq_ok_iff.mp made with ⟨first, later⟩
    rw [makeAll_cons_of_ok first, ih later exact.2 keep.2, units_make first exact.1 keep.1,
      creditBy_cons, add_assoc]

/-! ## Room for changes -/

/-- How much a change adds to a balance or takes from it. -/
def size : Change → Int
  | .adjust _ _ delta => |delta.toInt|
  | _ => 0

theorem size_nonneg (change : Change) : 0 ≤ change.size := by
  cases change with
  | adjust => exact abs_nonneg _
  | _ => exact le_rfl

theorem abs_credit_le_size (change : Change) : |change.credit account asset| ≤ change.size := by
  cases change with
  | adjust other asset' delta =>
    rw [credit, size]
    split
    next => exact le_rfl
    next => exact abs_zero.trans_le (abs_nonneg _)
  | _ => exact le_rfl

/-- **Changes are exact where there is room for all of them**, on both sides of every balance, and
leave what room they did not use. -/
theorem allExact_of_room {room : Int} (made : (makeAll changes s).outcome = .ok ())
    (keep : ∀ change ∈ changes, ∀ account asset, change.Keeps account asset)
    (within : ∀ account asset, |s.units account asset| ≤ room)
    (enough : room + (changes.map size).sum ≤ Amount.largest) :
    AllExact changes s ∧ ∀ account asset,
      |(makeAll changes s).session.units account asset| ≤ room + (changes.map size).sum := by
  induction changes generalizing s room with
  | nil => exact ⟨trivial, fun account asset => (within account asset).trans_eq (add_zero _).symm⟩
  | cons change rest ih =>
    rw [List.forall_mem_cons] at keep
    rw [List.map_cons, List.sum_cons, ← add_assoc] at enough ⊢
    rcases makeAll_cons_eq_ok_iff.mp made with ⟨first, later⟩
    have left : 0 ≤ (rest.map size).sum := by
      refine List.sum_nonneg fun units member => ?_
      obtain ⟨other, -, rfl⟩ := List.mem_map.mp member
      exact other.size_nonneg
    have exact : change.IsExact s := by
      cases change with
      | adjust account asset delta =>
        intro balance held
        have most := within account asset
        rw [Session.units_of_balance held] at most
        have total : |balance.toInt + delta.toInt| ≤ Amount.largest :=
          (abs_add_le ..).trans (by rw [size] at enough; omega)
        obtain ⟨low, high⟩ := abs_le.mp total
        exact Amount.addsExactly_of_within low high
      | _ => trivial
    rw [makeAll_cons_of_ok first]
    refine (ih later keep.2 (fun account asset => ?_) enough).imp_left fun exact' => ⟨exact, exact'⟩
    rw [units_make first exact (keep.1 account asset)]
    exact (abs_add_le ..).trans (add_le_add (within account asset) (abs_credit_le_size change))

end ChainLedger.Change

import ChainLedger.Proofs.Ledger.Supply
import Mathlib.Algebra.BigOperators.Finprod

/-!
# Totals of assets

A ledger has finitely many rows, so that all accounts together have a total of every
asset. A change that adds to one balance without wrapping around adds as much to the
total, whichever account it is: what counts for a list of changes is the sum of what
they add, and neither the order nor who pays whom.
-/

namespace ChainLedger

open Change

namespace Session

variable {s t : Session} {account : Address} {asset : AssetId} {amount : Amount}

/-! ## Finitely many balances -/

/-- Rows stand under the keys that were committed or written, and under no others. -/
theorem finite_rows (s : Session) : {key | (s.get? key).isSome}.Finite := by
  refine (List.finite_toSet (s.pending.entries.map Prod.fst ++
    s.committed.entries.map Prod.fst)).subset fun key held => List.mem_append.mpr ?_
  rw [Set.mem_ofPred_eq, Session.get?] at held
  split at held
  next written found =>
    exact .inl (List.mem_map.mpr ⟨_, (s.pending.mem_entries_iff key written).mpr found, rfl⟩)
  next =>
    obtain ⟨row, found⟩ := Option.isSome_iff_exists.mp held
    exact .inr (List.mem_map.mpr ⟨_, (s.committed.mem_entries_iff key row).mpr found, rfl⟩)

/-- An account without a row for an asset has nothing of it. -/
theorem units_of_not_isSome (missing : ¬(s.get? (Cell.balance account asset).key).isSome) :
    s.units account asset = 0 := by
  rw [Option.not_isSome_iff_eq_none] at missing
  have nothing : s.balance account asset = .ok Amount.zero := by
    rw [balance, read, missing]
    rfl
  rw [units_of_balance nothing, Amount.toInt_zero]

/-- Finitely many accounts have anything of an asset. -/
theorem finite_holders (s : Session) (asset : AssetId) :
    Function.HasFiniteSupport fun account => s.units account asset := by
  have keyed : Function.Injective fun account => (Cell.balance account asset).key := by
    intro one other same
    cases Cell.key_injective same
    rfl
  refine (s.finite_rows.preimage keyed.injOn).subset fun account holds => ?_
  by_contra missing
  exact holds (units_of_not_isSome missing)

/-- No account has more units than fit an amount. -/
theorem units_le_largest (s : Session) (account : Address) (asset : AssetId) :
    s.units account asset ≤ Amount.largest := by
  unfold units
  split
  next balance _ => exact balance.toInt_le_largest
  next => exact (by decide : (0 : Int) ≤ Amount.largest)

/-! ## Totals -/

/-- The units that all accounts together have of an asset. -/
noncomputable def total (s : Session) (asset : AssetId) : Int := ∑ᶠ account, s.units account asset

/-- Balances that read the same have the same total. -/
theorem total_congr (same : ∀ account, s.balance account asset = t.balance account asset) :
    s.total asset = t.total asset :=
  finsum_congr fun account => units_congr (same account)

/-- Where one account has more or less than it had, the total is that much more or less. -/
theorem total_of_units (account : Address) {delta : Int} (units : ∀ other, t.units other asset =
    s.units other asset + if other = account then delta else 0) :
    t.total asset = s.total asset + delta := by
  have one : Function.HasFiniteSupport fun other : Address =>
      if other = account then delta else 0 := by
    refine (Set.finite_singleton account).subset fun other counts => ?_
    by_contra different
    exact counts (if_neg different)
  have alone : ∑ᶠ other : Address, (if other = account then delta else 0) = delta := by
    rw [finsum_eq_single _ account fun other different => if_neg different, if_pos rfl]
  rw [total, finsum_congr units, finsum_add_distrib (s.finite_holders asset) one, alone, total]

end Session

namespace Change

variable {s : Session} {account : Address} {asset : AssetId} {amount : Amount}
  {change : Change} {changes : List Change}

/-! ## What changes add -/

/-- What a change adds to the total of an asset, if it puts no balance in place of another. -/
def added (asset : AssetId) : Change → Int
  | .adjust _ other delta => if asset = other then delta.toInt else 0
  | _ => 0

/-- What changes add to the total of an asset. -/
def addedBy (asset : AssetId) (changes : List Change) : Int := (changes.map (added asset)).sum

@[simp] theorem addedBy_nil : addedBy asset [] = 0 := rfl

@[simp] theorem addedBy_cons : addedBy asset (change :: changes) =
    change.added asset + addedBy asset changes :=
  List.sum_cons

@[simp] theorem addedBy_append {first second : List Change} :
    addedBy asset (first ++ second) = addedBy asset first + addedBy asset second := by
  simp [addedBy]

/-- The change puts no balance in place of another. -/
def ReplacesNoBalance : Change → Prop
  | .setBalance .. | .clearBalance .. => False
  | _ => True

/-- **An exact change adds to the total what it adds to a balance.** -/
theorem total_make (made : (change.make s).outcome = .ok ()) (exact : change.IsExact s)
    (keeps : change.ReplacesNoBalance) (asset : AssetId) :
    (change.make s).session.total asset = s.total asset + change.added asset := by
  cases change with
  | adjust account asset' delta =>
    have units := units_make_adjust (make_eq_ok_iff.mp made) exact
    refine Session.total_of_units account fun other => ?_
    rw [units, added]
    by_cases here : other = account <;> simp [here]
  | setBalance | clearBalance => exact keeps.elim
  | setReference | clearReference | introduce | retract | savePoll | deletePoll | saveVote
  | deleteVote | saveAsset | deleteAsset | saveAt | deleteAt | saveTransaction
  | deleteTransaction =>
    have same := Session.total_congr fun account => balance_make made account asset
    exact same.trans (add_zero _).symm

/-- The changes put no balance in place of another, and this is what they add to every total. -/
structure Adds (net : AssetId → Int) (changes : List Change) : Prop where
  keep : ∀ change ∈ changes, change.ReplacesNoBalance
  sum : ∀ asset, addedBy asset changes = net asset

namespace Adds

variable {net net' : AssetId → Int} {first second : List Change}

theorem append (adds : Adds net first) (adds' : Adds net' second) :
    Adds (fun asset => net asset + net' asset) (first ++ second) where
  keep := List.forall_mem_append.mpr ⟨adds.keep, adds'.keep⟩
  sum asset := by rw [addedBy_append, adds.sum, adds'.sum]

/-- A change that writes no balance adds nothing. -/
theorem cons (other : "balance/" ∉ change.families) (adds : Adds net changes) :
    Adds net (change :: changes) := by
  have plain : change.ReplacesNoBalance ∧ ∀ asset, change.added asset = 0 := by
    cases change with
    | adjust | setBalance | clearBalance => exact absurd (by simp [families]) other
    | _ => exact ⟨trivial, fun _ => rfl⟩
  refine ⟨List.forall_mem_cons.mpr ⟨plain.1, adds.keep⟩, fun asset => ?_⟩
  rw [addedBy_cons, plain.2, adds.sum, zero_add]

/-- **Exact changes add to a total what they add together**, in whatever order and to whomever. -/
theorem total_makeAll (adds : Adds net changes) (made : (makeAll changes s).outcome = .ok ())
    (exact : AllExact changes s) (asset : AssetId) :
    (makeAll changes s).session.total asset = s.total asset + net asset := by
  obtain ⟨keep, sum⟩ := adds
  rw [← sum]
  clear sum
  induction changes generalizing s with
  | nil => exact (add_zero _).symm
  | cons change rest ih =>
    rw [List.forall_mem_cons] at keep
    rcases makeAll_cons_eq_ok_iff.mp made with ⟨first, later⟩
    rw [makeAll_cons_of_ok first, ih later exact.2 keep.2, total_make first exact.1 keep.1,
      addedBy_cons, add_assoc]

end Adds

/-- An amount put where there was nothing adds itself to the total. -/
theorem total_setBalance (empty : s.units account asset = 0) (other : AssetId) :
    (s.setBalance account asset amount).total other =
      s.total other + if other = asset then amount.toInt else 0 := by
  refine Session.total_of_units account fun holder => ?_
  have after := s.balance_setBalance account holder asset other amount
  by_cases here : holder = account ∧ other = asset
  · obtain ⟨rfl, rfl⟩ := here
    rw [if_pos ⟨rfl, rfl⟩] at after
    rw [Session.units_of_balance after, empty, if_pos rfl, if_pos rfl, zero_add]
  · rw [if_neg here] at after
    rw [Session.units_congr after]
    by_cases same : holder = account
    · have different : other ≠ asset := fun there => here ⟨same, there⟩
      rw [if_pos same, if_neg different, add_zero]
    · rw [if_neg same, add_zero]

end Change

end ChainLedger

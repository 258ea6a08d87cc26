import ChainLedger.Proofs.Amount
import ChainLedger.Proofs.Ledger.Change
import Mathlib.Algebra.BigOperators.Group.Finset.Piecewise
import Mathlib.Algebra.Order.BigOperators.Group.Finset
import Mathlib.Algebra.Order.Group.Int

/-!
# Supplies that stay in range

Nothing checks the recipient's side of a payment: its balance could wrap around. What
rules that out is not a property of one balance. If no balance is negative and no
accounts together have more of an asset than there is of it, then what one account
gives another one has room for, because the two together had it before.
-/

namespace ChainLedger

open Change

/-! ## Units of an account -/

/-- The units that an account has of an asset; none where its balance cannot be read. -/
def Session.units (s : Session) (account : Address) (asset : AssetId) : Int :=
  match s.balance account asset with
  | .ok balance => balance.toInt
  | .error _ => 0

namespace Session

variable {s t : Session} {account : Address} {asset : AssetId} {amount : Amount}

theorem units_of_balance (held : s.balance account asset = .ok amount) :
    s.units account asset = amount.toInt := by
  rw [units, held]

theorem units_congr (same : s.balance account asset = t.balance account asset) :
    s.units account asset = t.units account asset := by
  rw [units, units, same]

end Session

/-! ## Exact changes -/

/-- The change adds to a balance without wrapping around. -/
def Change.IsExact (s : Session) : Change → Prop
  | .adjust account asset delta =>
    ∀ balance, s.balance account asset = .ok balance → balance.AddsExactly delta
  | _ => True

/-- Every change adds to a balance without wrapping around, at the moment it is made. -/
def Change.AllExact : List Change → Session → Prop
  | [], _ => True
  | change :: rest, s => change.IsExact s ∧ AllExact rest (change.make s).session

theorem Change.allExact_append {first second : List Change} {s : Session}
    (made : (makeAll first s).outcome = .ok ()) :
    AllExact (first ++ second) s ↔
      AllExact first s ∧ AllExact second (makeAll first s).session := by
  induction first generalizing s with
  | nil => simp [AllExact, makeAll, Written.done]
  | cons change rest ih =>
    rcases makeAll_cons_eq_ok_iff.mp made with ⟨here, later⟩
    rw [List.cons_append, AllExact, AllExact, ih later, makeAll_cons_of_ok here, and_assoc]

/-- Changes that add to no balance are exact. -/
theorem Change.allExact_of_other {changes : List Change}
    (other : ∀ change ∈ changes, ∀ s, change.IsExact s) (s : Session) : AllExact changes s := by
  induction changes generalizing s with
  | nil => trivial
  | cons change rest ih =>
    rw [List.forall_mem_cons] at other
    exact ⟨other.1 s, ih other.2 _⟩

/-- What an exact addition does to the units of every account. -/
theorem Change.units_make_adjust {s : Session} {account : Address} {asset : AssetId}
    {delta : Amount} (legible : s.Legible (.balance account asset))
    (exact : (Change.adjust account asset delta).IsExact s) (other : Address) (asset' : AssetId) :
    ((Change.adjust account asset delta).make s).session.units other asset' =
      s.units other asset' + if other = account ∧ asset' = asset then delta.toInt else 0 := by
  have made : ((Change.adjust account asset delta).make s).outcome = .ok () :=
    make_eq_ok_iff.mpr legible
  have after := balance_make made other asset'
  rcases Session.legible_balance_iff.mp legible with ⟨balance, held⟩
  simp only [onBalance] at after
  by_cases same : other = account ∧ asset' = asset
  · obtain ⟨rfl, rfl⟩ := same
    rw [if_pos ⟨rfl, rfl⟩, held] at after
    rw [Session.units_of_balance after, Session.units_of_balance held, if_pos ⟨rfl, rfl⟩]
    exact exact balance held
  · rw [if_neg same] at after
    rw [Session.units_congr after, if_neg same, add_zero]

/-- What an amount that is put in place of a balance does to the units of every account. -/
theorem Change.units_make_setBalance {s : Session} {account : Address} {asset : AssetId}
    {amount : Amount} (other : Address) (asset' : AssetId) :
    ((Change.setBalance account asset amount).make s).session.units other asset' =
      if other = account ∧ asset' = asset then amount.toInt else s.units other asset' := by
  have made : ((Change.setBalance account asset amount).make s).outcome = .ok () := rfl
  have after := balance_make made other asset'
  simp only [onBalance] at after
  by_cases same : other = account ∧ asset' = asset
  · rw [if_pos same] at after ⊢
    exact Session.units_of_balance after
  · rw [if_neg same] at after ⊢
    exact Session.units_congr after

/-! ## Backed balances -/

/-- Every balance can be read and is not negative, and no accounts together have more of an asset
than its supply. -/
structure Session.Backed (s : Session) (supply : AssetId → Int) : Prop where
  readable : ∀ account asset, s.Legible (.balance account asset)
  nonneg : ∀ account asset, 0 ≤ s.units account asset
  covered : ∀ (accounts : Finset Address) asset,
    ∑ account ∈ accounts, s.units account asset ≤ supply asset

namespace Session.Backed

variable {s t : Session} {supply : AssetId → Int} {asset : AssetId}

/-- One account has at most all there is. -/
theorem units_le (backed : s.Backed supply) (account : Address) (asset : AssetId) :
    s.units account asset ≤ supply asset := by
  have single := backed.covered {account} asset
  rwa [Finset.sum_singleton] at single

/-- Two accounts together have at most all there is. -/
theorem units_add_le (backed : s.Backed supply) {one other : Address} (different : one ≠ other)
    (asset : AssetId) : s.units one asset + s.units other asset ≤ supply asset := by
  have both := backed.covered {one, other} asset
  rwa [Finset.sum_pair different] at both

/-- Balances that read the same are backed the same. -/
theorem of_balance (backed : s.Backed supply)
    (same : ∀ account asset, t.balance account asset = s.balance account asset) :
    t.Backed supply where
  readable account asset := by
    rw [Session.legible_balance_iff, same]
    exact Session.legible_balance_iff.mp (backed.readable account asset)
  nonneg account asset := by
    rw [Session.units_congr (same account asset)]
    exact backed.nonneg account asset
  covered accounts asset := by
    rw [Finset.sum_congr rfl fun account _ => Session.units_congr (same account asset)]
    exact backed.covered accounts asset

theorem mono {supply' : AssetId → Int} (backed : s.Backed supply)
    (more : ∀ asset, supply asset ≤ supply' asset) : s.Backed supply' where
  readable := backed.readable
  nonneg := backed.nonneg
  covered accounts asset := le_trans (backed.covered accounts asset) (more asset)

/-- Over any accounts, what one gives is covered by what it had. -/
theorem covered_transfer (backed : s.Backed supply) {sender recipient : Address}
    {taken given : Int} (nonneg : 0 ≤ given) (enough : given ≤ taken)
    (has : taken ≤ s.units sender asset) (accounts : Finset Address) :
    ∑ account ∈ accounts, (s.units account asset + (if account = sender then -taken else 0) +
      (if account = recipient then given else 0)) ≤ supply asset := by
  rw [Finset.sum_add_distrib, Finset.sum_add_distrib, Finset.sum_ite_eq', Finset.sum_ite_eq']
  have total := backed.covered accounts asset
  by_cases pays : sender ∈ accounts
  · rw [if_pos pays]
    split <;> omega
  · have more := backed.covered (insert sender accounts) asset
    rw [Finset.sum_insert pays] at more
    rw [if_neg pays]
    split <;> omega

/-- Over any accounts, an amount in place of what one had adds at most itself. -/
theorem covered_set (backed : s.Backed supply) {account : Address} {units : Int}
    (nonneg : 0 ≤ units) (accounts : Finset Address) :
    ∑ other ∈ accounts, (if other = account then units else s.units other asset) ≤
      supply asset + units := by
  have each : ∀ other ∈ accounts, (if other = account then units else s.units other asset) ≤
      s.units other asset + if other = account then units else 0 := by
    intro other _
    have before := backed.nonneg other asset
    split <;> omega
  have total := backed.covered accounts asset
  calc ∑ other ∈ accounts, (if other = account then units else s.units other asset)
      ≤ ∑ other ∈ accounts, (s.units other asset + if other = account then units else 0) :=
        Finset.sum_le_sum each
    _ = ∑ other ∈ accounts, s.units other asset + if account ∈ accounts then units else 0 := by
        rw [Finset.sum_add_distrib, Finset.sum_ite_eq']
    _ ≤ supply asset + units := by
        split <;> omega

/-- What was taken from one account, any account has room for: the two had it before. -/
theorem isExact_give (backed : s.Backed supply) {sender recipient : Address}
    {taken given : Amount} (bounded : supply asset ≤ Amount.largest) (nonneg : 0 ≤ given.toInt)
    (enough : given.toInt ≤ taken.toInt) (has : taken.toInt ≤ s.units sender asset)
    (least : 0 ≤ t.units recipient asset)
    (paid : t.units recipient asset =
      s.units recipient asset + if recipient = sender then -taken.toInt else 0) :
    (Change.adjust recipient asset given).IsExact t := by
  intro balance held
  rw [Session.units_of_balance held] at paid least
  have room : balance.toInt + given.toInt ≤ supply asset := by
    by_cases itself : recipient = sender
    · rw [if_pos itself] at paid
      have most := backed.units_le recipient asset
      omega
    · rw [if_neg itself] at paid
      have most := backed.units_add_le itself asset
      omega
  exact Amount.addsExactly_of_range (by omega) (by omega)

end Session.Backed

/-! ## Safe changes -/

/-- The changes are all made, none of them wraps around, and they leave balances backed. -/
structure Change.AllSafe (supply : AssetId → Int) (changes : List Change) (s : Session) : Prop where
  made : (makeAll changes s).outcome = .ok ()
  exact : AllExact changes s
  backed : (makeAll changes s).session.Backed supply

namespace Change.AllSafe

variable {s : Session} {supply supply' : AssetId → Int} {first second : List Change}

theorem nil (backed : s.Backed supply) : AllSafe supply [] s := ⟨rfl, trivial, backed⟩

/-- Safe changes after safe changes are safe. -/
theorem append (safe : AllSafe supply first s)
    (safe' : AllSafe supply' second (makeAll first s).session) :
    AllSafe supply' (first ++ second) s where
  made := makeAll_append_eq_ok_iff.mpr ⟨safe.made, safe'.made⟩
  exact := (allExact_append safe.made).mpr ⟨safe.exact, safe'.exact⟩
  backed := by
    rw [makeAll_append_of_ok safe.made]
    exact safe'.backed

/-- Changes that write no balance leave all balances as they are. -/
theorem balance_makeAll_of_other (other : ∀ change ∈ first, "balance/" ∉ change.families)
    (account : Address) (asset : AssetId) :
    (makeAll first s).session.balance account asset = s.balance account asset := by
  apply balance_congr
  apply get?_makeAll
  intro change member
  exact not_writes_of_family (other change member)

/-- Changes that write no balance are safe where they can be made. -/
theorem of_other (backed : s.Backed supply) (other : ∀ change ∈ first, "balance/" ∉ change.families)
    (made : (makeAll first s).outcome = .ok ()) : AllSafe supply first s where
  made := made
  exact := by
    apply allExact_of_other
    intro change member t
    cases change with
    | adjust => exact absurd (other _ member) (by simp [families])
    | _ => trivial
  backed := backed.of_balance fun account asset => balance_makeAll_of_other other account asset

/-- Changes that write no balance after safe ones leave all units as those left them. -/
theorem append_other (safe : AllSafe supply first s)
    (other : ∀ change ∈ second, "balance/" ∉ change.families)
    (made : (makeAll second (makeAll first s).session).outcome = .ok ()) :
    AllSafe supply (first ++ second) s ∧
      ∀ account asset, (makeAll (first ++ second) s).session.units account asset =
        (makeAll first s).session.units account asset := by
  refine ⟨safe.append (of_other safe.backed other made), fun account asset => ?_⟩
  rw [makeAll_append_of_ok safe.made]
  exact Session.units_congr (balance_makeAll_of_other other account asset)

end Change.AllSafe

section Moves

variable {s : Session} {supply : AssetId → Int} {account sender : Address} {asset : AssetId}
  {taken given amount : Amount}

/-- What an account can spare can be taken from it. -/
theorem Session.Backed.take (backed : s.Backed supply) (nonneg : 0 ≤ taken.toInt)
    (has : taken.toInt ≤ s.units sender asset) :
    AllSafe supply [.adjust sender asset (-taken)] s ∧
      ∀ account asset', (makeAll [.adjust sender asset (-taken)] s).session.units account asset' =
        s.units account asset' + if account = sender ∧ asset' = asset then -taken.toInt else 0 := by
  have negated : (-taken).toInt = -taken.toInt := Amount.negatesExactly_of_nonneg nonneg
  have made : ((Change.adjust sender asset (-taken)).make s).outcome = .ok () :=
    make_eq_ok_iff.mpr (backed.readable sender asset)
  have exact : (Change.adjust sender asset (-taken)).IsExact s := by
    intro balance held
    rw [Session.units_of_balance held] at has
    exact Amount.addsExactly_neg nonneg has
  have units := units_make_adjust (backed.readable sender asset) exact
  rw [makeAll_cons_of_ok made]
  rw [negated] at units
  refine ⟨⟨makeAll_cons_eq_ok_iff.mpr ⟨made, rfl⟩, ⟨exact, trivial⟩, ?_⟩, units⟩
  rw [makeAll_cons_of_ok made]
  constructor
  case readable =>
    intro account asset'
    exact legible_balance_make made (backed.readable account asset')
  case nonneg =>
    intro account asset'
    have before := backed.nonneg account asset'
    change 0 ≤ Session.units ((Change.adjust sender asset (-taken)).make s).session account asset'
    rw [units]
    by_cases pays : account = sender ∧ asset' = asset
    · obtain ⟨rfl, rfl⟩ := pays
      rw [if_pos ⟨rfl, rfl⟩]
      omega
    · rw [if_neg pays]
      omega
  case covered =>
    intro accounts asset'
    refine le_trans (Finset.sum_le_sum fun account _ => ?_) (backed.covered accounts asset')
    change Session.units ((Change.adjust sender asset (-taken)).make s).session account asset' ≤ _
    rw [units]
    split <;> omega

/-- **Taking and giving stay in range.** What one account can spare is taken from it, and at most
that is given to another one or to itself. -/
theorem Session.Backed.transfer (backed : s.Backed supply) (recipient : Address)
    (bounded : supply asset ≤ Amount.largest) (nonneg : 0 ≤ given.toInt)
    (enough : given.toInt ≤ taken.toInt) (has : taken.toInt ≤ s.units sender asset) :
    let changes : List Change := [.adjust sender asset (-taken), .adjust recipient asset given]
    AllSafe supply changes s ∧
      ∀ account asset', (makeAll changes s).session.units account asset' =
        s.units account asset' + (if account = sender ∧ asset' = asset then -taken.toInt else 0) +
          (if account = recipient ∧ asset' = asset then given.toInt else 0) := by
  intro changes
  obtain ⟨paid, unitsPaid⟩ := backed.take (by omega) has
  have whole := makeAll_append_of_ok paid.made [.adjust recipient asset given]
  have exactAll : AllExact changes s ↔ _ := allExact_append paid.made
  have exactPaid := paid.exact
  have backedPaid := paid.backed
  generalize (makeAll [.adjust sender asset (-taken)] s).session = t at *
  have readable := backedPaid.readable recipient asset
  have exactGiven : (Change.adjust recipient asset given).IsExact t :=
    backed.isExact_give bounded nonneg enough has (backedPaid.nonneg recipient asset)
      (by simpa using unitsPaid recipient asset)
  have last : ((Change.adjust recipient asset given).make t).outcome = .ok () :=
    make_eq_ok_iff.mpr readable
  have unitsGiven := units_make_adjust readable exactGiven
  rw [makeAll_cons_of_ok last] at whole
  change makeAll changes s = .done ((Change.adjust recipient asset given).make t).session at whole
  have units : ∀ account asset', (makeAll changes s).session.units account asset' =
      s.units account asset' + (if account = sender ∧ asset' = asset then -taken.toInt else 0) +
        (if account = recipient ∧ asset' = asset then given.toInt else 0) := by
    intro account asset'
    rw [whole, ← unitsPaid account asset', ← unitsGiven]
    rfl
  refine ⟨⟨congrArg Written.outcome whole, exactAll.mpr ⟨exactPaid, exactGiven, trivial⟩, ?_⟩,
    units⟩
  constructor
  case readable =>
    intro account asset'
    rw [whole]
    exact legible_balance_make last (backedPaid.readable account asset')
  case nonneg =>
    intro account asset'
    have before := backedPaid.nonneg account asset'
    rw [units, ← unitsPaid]
    split <;> omega
  case covered =>
    intro accounts asset'
    rw [Finset.sum_congr rfl fun account _ => units account asset']
    by_cases moved : asset' = asset
    · subst moved
      simpa using backed.covered_transfer nonneg enough has accounts
    · simpa [moved] using backed.covered accounts asset'

/-- An amount that is put in place of a balance adds to the supply at most itself. -/
theorem Session.Backed.set (backed : s.Backed supply) (nonneg : 0 ≤ amount.toInt) :
    AllSafe (fun other => supply other + if other = asset then amount.toInt else 0)
      [.setBalance account asset amount] s := by
  have made : ((Change.setBalance account asset amount).make s).outcome = .ok () := rfl
  refine ⟨rfl, ⟨trivial, trivial⟩, ?_⟩
  change Session.Backed ((Change.setBalance account asset amount).make s).session _
  constructor
  case readable =>
    intro other asset'
    exact legible_balance_make made (backed.readable other asset')
  case nonneg =>
    intro other asset'
    have before := backed.nonneg other asset'
    rw [units_make_setBalance]
    split <;> omega
  case covered =>
    intro accounts asset'
    rw [Finset.sum_congr rfl fun other _ => units_make_setBalance other asset']
    by_cases there : asset' = asset
    · subst there
      simpa using backed.covered_set nonneg accounts
    · simpa [there] using backed.covered accounts asset'

end Moves

end ChainLedger

import ChainLedger.Proofs.Ledger.Credit
import ChainLedger.Proofs.Ledger.Listing
import ChainLedger.Proofs.Run.Reached
import ChainLedger.Proofs.Transaction.Conservation

/-!
# Changes of balances as records report them

A record reports what it does to an account's balance of coins without looking at the
ledger: it takes and gives amounts step by step, in checked sums. Processing moves the
same amounts in the ledger. For every account the two come to the same, a settlement
apart, which reports a fee that it does not pay. What a good record reports is never out
of range: the parts of the sum that are still to come bound each of the sums before them
from both sides, because their account has them all.

Nothing is reported of the quantity that an issue puts in place of a balance of its owner.
That is no balance of coins, unless the numbers of assets have run out: then the next one
is that of the coins.
-/

namespace ChainLedger

open Change

variable {params : ChainParams} {s : Session} {envelope : Envelope} {action : Action}
  {signature : Signature} {account creator sender : Address} {asset : AssetId}
  {fee change next : Amount} {leg : Leg} {legs : List Leg} {plan : Plan}

/-! ## Checked sums of legs -/

/-- What a leg in coins does to the balance of an account. -/
def Leg.netFor (account sender : Address) (leg : Leg) : Int :=
  (if account = sender then -leg.amount.toInt else 0) +
    if account = leg.recipient then leg.amount.toInt else 0

/-- A leg is added in two steps, each of which has to stay in range. -/
theorem Leg.addTo?_eq_some_iff : leg.addTo? account sender change = some next ↔
    ∃ paid : Amount,
      paid.toInt = change.toInt + (if account = sender then -leg.amount.toInt else 0) ∧
        next.toInt = paid.toInt + if account = leg.recipient then leg.amount.toInt else 0 := by
  have steps : leg.addTo? account sender change =
      (if account = sender then change.checkedSub leg.amount else some change).bind fun paid =>
        if account = leg.recipient then paid.checkedAdd leg.amount else some paid := by
    by_cases sends : account = sender <;> simp only [Leg.addTo?, sends, if_true, if_false] <;> rfl
  simp only [steps, Option.bind_eq_some_iff, Amount.subIf_eq_some_iff, Amount.addIf_eq_some_iff]

/-- **Legs can be added** where there is room on both sides for all of their amounts. -/
theorem exists_foldlM {room : Int} (nonneg : ∀ leg ∈ legs, 0 ≤ leg.amount.toInt)
    (low : -room ≤ change.toInt) (high : change.toInt ≤ room)
    (enough : room + (legs.map fun leg => leg.amount.toInt).sum ≤ Amount.largest) :
    ∃ total, legs.foldlM (Leg.addTo? account sender) change = some total := by
  induction legs generalizing change room with
  | nil => exact ⟨change, rfl⟩
  | cons leg rest ih =>
    rw [List.forall_mem_cons] at nonneg
    rw [List.map_cons, List.sum_cons] at enough
    have later : 0 ≤ (rest.map fun leg => leg.amount.toInt).sum := by
      refine List.sum_nonneg fun units member => ?_
      rcases List.mem_map.mp member with ⟨other, among, rfl⟩
      exact nonneg.2 other among
    obtain ⟨paid, taken⟩ : ∃ paid : Amount, paid.toInt =
        change.toInt + if account = sender then -leg.amount.toInt else 0 := by
      apply Amount.exists_toInt_eq <;> split <;> omega
    obtain ⟨first, given⟩ : ∃ first : Amount, first.toInt =
        paid.toInt + if account = leg.recipient then leg.amount.toInt else 0 := by
      apply Amount.exists_toInt_eq <;> rw [taken] <;> split <;> split <;> omega
    have added := Leg.addTo?_eq_some_iff.mpr ⟨paid, taken, given⟩
    have within : -(room + leg.amount.toInt) ≤ first.toInt ∧
        first.toInt ≤ room + leg.amount.toInt := by
      rw [given, taken]
      split <;> split <;> omega
    obtain ⟨total, found⟩ := ih nonneg.2 within.1 within.2 (by omega)
    exact ⟨total, by rw [List.foldlM_cons, added]; exact found⟩

theorem owed_eq_sum (asset : AssetId) (legs : List Leg) : owed asset legs =
    ((legs.filter fun leg => leg.assetId == asset).map fun leg => leg.amount.toInt).sum := by
  rw [List.sum_eq_foldr, List.foldr_map]
  rfl

/-! ## Credits of parts of plans -/

theorem creditBy_chargeFee (negates : fee.NegatesExactly) :
    creditBy account asset (chargeFee creator fee signature) =
      if account = creator then fee.asFee asset else 0 := by
  have negated : (-fee).toInt = -fee.toInt := negates
  by_cases pays : account = creator <;> simp [chargeFee, credit, negated, pays, Amount.asFee]

/-- Moving a leg credits what the leg does to a balance, if it is one of its asset. -/
theorem creditBy_move (negates : leg.amount.NegatesExactly) :
    creditBy account asset (leg.move sender signature) =
      if leg.assetId = asset then leg.netFor account sender else 0 := by
  have negated : (-leg.amount).toInt = -leg.amount.toInt := negates
  have introduced : creditBy account asset
      (if leg.assetId = nativeAsset then [.introduce leg.recipient signature] else []) = 0 := by
    split <;> rfl
  rw [Leg.move, creditBy_append, introduced]
  by_cases moved : leg.assetId = asset
  · simp [credit, moved, negated, Leg.netFor]
  · simp [credit, moved, Ne.symm moved]

theorem feeChange?_eq_some_iff : feeChange? account creator fee = some change ↔
    change.toInt = if account = creator then -fee.toInt else 0 := by
  rw [feeChange?, Amount.subIf_eq_some_iff, Amount.toInt_zero, zero_add]

/-- What takes a fee from an account can be reported. -/
theorem exists_feeChange? (nonneg : 0 ≤ fee.toInt) :
    ∃ change, feeChange? account creator fee = some change := by
  have most := fee.toInt_le_largest
  obtain ⟨change, units⟩ : ∃ change : Amount,
      change.toInt = if account = creator then -fee.toInt else 0 := by
    apply Amount.exists_toInt_eq <;> split <;> omega
  exact ⟨change, feeChange?_eq_some_iff.mpr units⟩

/-- **A payment that is covered can be reported**, since its sender has all that it takes. -/
theorem IsPayable.exists_paymentChange? (payable : IsPayable s sender legs fee)
    (account : Address) : ∃ change, paymentChange? account sender legs fee = some change := by
  have positive := payable.positive
  have covered := payable.covered nativeAsset List.mem_cons_self
  have most := s.units_le_largest sender nativeAsset
  rw [totalOf_eq, if_pos rfl, owed_eq_sum] at covered
  obtain ⟨paid, charged⟩ : ∃ paid, feeChange? account sender fee = some paid :=
    exists_feeChange? (Int.le_of_lt positive)
  have units := feeChange?_eq_some_iff.mp charged
  have nonneg : ∀ leg ∈ legs.filter fun leg => leg.assetId == nativeAsset, 0 ≤ leg.amount.toInt :=
    fun leg among => Int.le_of_lt (payable.amounts leg (List.mem_of_mem_filter among))
  have within : -fee.toInt ≤ paid.toInt ∧ paid.toInt ≤ fee.toInt := by
    rw [units]
    split <;> omega
  obtain ⟨total, found⟩ := exists_foldlM nonneg within.1 within.2 (by omega)
  exact ⟨total, Option.bind_eq_some_iff.mpr ⟨paid, charged, found⟩⟩

section Transfers

variable {amount : Amount} {taken given : Prop} [Decidable taken] [Decidable given]

/-- The change of a balance from which a fee and an amount may be taken, and to which the amount
may be given. -/
def transfer? (taken given : Prop) [Decidable taken] [Decidable given] (fee amount : Amount) :
    Option Amount :=
  (if taken then (fee.checkedAdd amount).bind Amount.zero.checkedSub else some Amount.zero).bind
    fun paid => if given then paid.checkedAdd amount else some paid

/-- A transfer is reported in two steps, each of which has to stay in range, and so has the sum of
the fee and the amount if it is taken. -/
theorem transfer?_eq_some_iff : transfer? taken given fee amount = some change ↔
    ∃ paid : Amount, (taken → fee.toInt + amount.toInt ≤ Amount.largest) ∧
      paid.toInt = (if taken then -(fee.toInt + amount.toInt) else 0) ∧
        change.toInt = paid.toInt + if given then amount.toInt else 0 := by
  simp only [transfer?, Option.bind_eq_some_iff, Amount.addIf_eq_some_iff, ← and_assoc]
  refine exists_congr fun paid => and_congr_left fun _ => ?_
  by_cases takes : taken
  · simp only [takes, if_true, forall_const, Option.bind_eq_some_iff,
      Amount.checkedAdd_eq_some_iff, Amount.checkedSub_eq_some_iff, Amount.toInt_zero, zero_sub]
    constructor
    · rintro ⟨sum, total, opposite⟩
      exact ⟨total ▸ sum.toInt_le_largest, total ▸ opposite⟩
    · rintro ⟨fits, opposite⟩
      obtain ⟨sum, total⟩ : ∃ sum : Amount, sum.toInt = fee.toInt + amount.toInt := by
        have most := paid.toInt_le_largest
        apply Amount.exists_toInt_eq <;> omega
      exact ⟨sum, total, total ▸ opposite⟩
  · rw [if_neg takes, if_neg takes, Option.some.injEq, ← Amount.toInt_inj, Amount.toInt_zero,
      eq_comm]
    exact (and_iff_right fun held => absurd held takes).symm

/-- **A transfer can be reported** exactly if what it takes fits an amount, and so does the fee
alone where the amount is given back. -/
theorem exists_transfer?_iff (nonneg : 0 ≤ amount.toInt) :
    (∃ change, transfer? taken given fee amount = some change) ↔
      (taken → -Amount.largest ≤ fee.toInt + amount.toInt ∧
        fee.toInt + amount.toInt ≤ Amount.largest ∧ (given → -Amount.largest ≤ fee.toInt)) := by
  have most := amount.toInt_le_largest
  have most' := fee.toInt_le_largest
  constructor
  · rintro ⟨change, reported⟩ takes
    obtain ⟨paid, fits, first, second⟩ := transfer?_eq_some_iff.mp reported
    rw [if_pos takes] at first
    have within := paid.toInt_le_largest
    refine ⟨by omega, fits takes, fun gives => ?_⟩
    rw [if_pos gives] at second
    have within' := change.toInt_le_largest
    omega
  · intro fits
    obtain ⟨paid, first⟩ : ∃ paid : Amount,
        paid.toInt = if taken then -(fee.toInt + amount.toInt) else 0 := by
      apply Amount.exists_toInt_eq <;> split
      next takes => have := fits takes; omega
      next => omega
      next takes => have := fits takes; omega
      next => omega
    obtain ⟨change, second⟩ : ∃ change : Amount,
        change.toInt = paid.toInt + if given then amount.toInt else 0 := by
      apply Amount.exists_toInt_eq <;> rw [first] <;> split <;> split <;> grind
    exact ⟨change, transfer?_eq_some_iff.mpr ⟨paid, fun takes => (fits takes).2.1, first, second⟩⟩

end Transfers

theorem AtDeployment.change?_eq_transfer? (d : AtDeployment) (account : Address) (fee : Amount) :
    d.change? account fee = transfer? (Address.ofPublicKey d.creator.bytes = account)
      (d.atAddress = some account) fee d.amount := by
  by_cases takes : Address.ofPublicKey d.creator.bytes = account <;>
    simp only [change?, transfer?, takes, if_true, if_false] <;> rfl

theorem AtSettlement.change?_eq_transfer? (settlement : AtSettlement) (account : Address)
    (fee : Amount) : settlement.change? account fee =
      transfer? (account = settlement.atAddress) (account = settlement.recipient) fee
        settlement.coins := by
  by_cases takes : account = settlement.atAddress <;>
    simp only [change?, transfer?, takes, if_true, if_false] <;> rfl

/-- **A deployment that is covered can be reported**, whether or not it knows the address of its
AT. -/
theorem AtDeployment.IsGood.exists_change? {d : AtDeployment} (good : d.IsGood s fee creator)
    (deployed : Option Address) (account : Address) :
    ∃ change, { d with atAddress := deployed }.change? account fee = some change := by
  have covered := good.covered
  have most := s.units_le_largest creator nativeAsset
  have positive := good.positive
  have amount := good.amount
  rw [change?_eq_transfer?, exists_transfer?_iff (Int.le_of_lt amount)]
  exact fun _ => ⟨by omega, by omega, fun _ => by omega⟩

/-! ## Reports of accepted records -/

/-- Only an issue puts an amount in place of a balance: one of its asset, which its owner is
given. -/
theorem Action.keeps_processing (planned : action.processing params s signature envelope = .ok plan)
    (account : Address) (asset : AssetId) :
    (∀ change ∈ plan.changes, change.Keeps account asset) ∨
      ∃ i, action = .issueAsset i ∧ account = i.owner ∧ s.nextAssetId = .ok asset := by
  by_cases issues : ∃ i, action = .issueAsset i
  · obtain ⟨i, rfl⟩ := issues
    obtain ⟨id, next, rfl⟩ := processing_issueAsset_eq_ok_iff.mp planned
    by_cases brings : account = i.owner ∧ asset = id
    · exact .inr ⟨i, rfl, brings.1, brings.2 ▸ next⟩
    · exact .inl (by simpa [Plan.same, chargeFee, Keeps] using brings)
  · refine .inl fun change member => ?_
    have makes := makes_processing planned change member
    cases makes with
    | bring => exact absurd ⟨_, rfl⟩ issues
    | _ => trivial

theorem Transaction.amountFor_eq_ok_iff {t : Transaction} :
    t.amountFor account = .ok change ↔ t.record.amountFor? account = some change := by
  rw [amountFor]
  cases t.record.amountFor? account <;> simp

/-- An issue of coins to the account that pays for it leaves the account the quantity less the fee,
in place of what it had. -/
theorem onBalanceAll_issuing_coins {issued : Asset} {quantity : Amount} {r : Record}
    {last : Except DataError Amount} (coins : issued.id = nativeAsset) :
    onBalanceAll issued.owner nativeAsset
      (issuing issued quantity issued.owner fee signature ++ [.saveTransaction r]) last =
        .ok (quantity + -fee) := by
  simp [issuing, chargeFee, onBalanceAll, onBalance, coins, Except.map]

namespace Exhausted

open openedLedger (firstReference laterSignature)

/-- A ledger in which an account has coins. -/
def funded : Session :=
  openedLedger.setBalance openedLedger.account nativeAsset ⟨300000000⟩

/-- An asset under the last number. -/
def lastIssued : Asset :=
  ⟨lastAsset, openedLedger.account, "last", "the last one", 1, true, firstReference⟩

/-- The ledger when no number is left. -/
def ledger : Session := funded.saveAsset lastIssued

/-- The record of an issue to the account that pays for it, at a fee of twice the quantity. -/
def record (id : Option AssetId) : Record :=
  .standard ⟨1, firstReference, ⟨200000000⟩, some laterSignature⟩
    (.issueAsset ⟨.fill 6, openedLedger.account, "gold", "a metal", 1, true, id⟩)

def issue : Submission := ⟨.allReleased, record none⟩

/-- The asset, under the number of the coins. -/
def coined : Asset :=
  ⟨nativeAsset, openedLedger.account, "gold", "a metal", 1, true, laterSignature⟩

/-- What is planned for the issue in this ledger. -/
def issuance : Plan :=
  .same (record (some nativeAsset))
    (issuing coined ⟨100000000⟩ coined.owner ⟨200000000⟩ laterSignature ++
      [.saveTransaction (record (some nativeAsset))])

theorem balance_ledger (holder : Address) (asset : AssetId) : ledger.balance holder asset =
    if holder = openedLedger.account ∧ asset = nativeAsset then .ok ⟨300000000⟩
    else openedLedger.balance holder asset := by
  rw [ledger, balance_saveAsset, funded, Session.balance_setBalance]

theorem lastReference_ledger (holder : Address) :
    ledger.lastReference holder = openedLedger.lastReference holder := by
  rw [Session.lastReference, ledger, Session.saveAsset, Session.read_write_of_ne (by simp),
    Session.read_write_of_ne (by simp), funded, Session.setBalance,
    Session.read_write_of_ne (by simp), Session.lastReference]

theorem balance_account : ledger.balance openedLedger.account nativeAsset = .ok ⟨300000000⟩ := by
  rw [balance_ledger, if_pos ⟨rfl, rfl⟩]

/-- The next number is that of the coins. -/
theorem nextAssetId_ledger : ledger.nextAssetId = .ok nativeAsset := by
  have numbered : funded.Numbered 0 := by
    have kept : ∀ change ∈ [Change.setBalance openedLedger.account nativeAsset ⟨300000000⟩],
        "asset/" ∉ change.families := by simp [families]
    exact openedLedger.solvent.numbered.makeAll kept
  have most : 0 ≤ 2 ^ 64 - 2 := by decide
  have next : lastIssued.id.toNat ≤ 2 ^ 64 - 2 + 1 := by decide
  have used : ledger.holds (.asset lastAsset) = true := by
    rw [ledger, Session.holds_saveAsset]
    rfl
  exact ((numbered.of_le most).saveAsset next).nextAssetId_of_last used

theorem unnamed : ledger.holds (.assetName "gold") = false := by
  have other : (Cell.assetName "gold").family ∉ ["balance/", "reference/", "tx/"] := by
    simp [Cell.family]
  rw [ledger, Session.saveAsset, Session.holds_write, if_neg (by simp), Session.holds_write,
    if_neg (by simp [lastIssued]), funded, Session.setBalance, Session.holds_write,
    if_neg (by simp), openedLedger.holds_other other]

theorem isAccepted_issue : issue.IsAccepted ledger := by
  have valid : Address.isValid openedLedger.account = true := Address.isValid_ofPublicKey _
  have reference : ledger.lastReference openedLedger.account = .ok (some firstReference) :=
    (lastReference_ledger _).trans openedLedger.opened.1
  exact Submission.isAccepted_iff.mpr ⟨AssetIssue.verdict_eq_ok reference rfl valid (by decide)
    (by decide) (by decide) (by decide) balance_account (by decide) unnamed, _, rfl⟩

theorem processing_issue :
    issue.record.processing .allReleased ledger laterSignature = .ok issuance :=
  Record.processing_standard_eq_ok_iff.mpr
    ⟨_, Action.processing_issueAsset_eq_ok_iff.mpr ⟨_, nextAssetId_ledger, rfl⟩, rfl⟩

theorem made : (makeAll issuance.changes ledger).outcome = .ok () := by
  refine Record.makeAll_planned (fun holder asset => ?_) (fun holder => ?_) rfl processing_issue
  · rw [Session.legible_balance_iff, balance_ledger]
    split
    next => exact ⟨_, rfl⟩
    next => exact Session.legible_balance_iff.mp (openedLedger.solvent.consultable.balance ..)
  · rw [Session.legible_reference_iff, lastReference_ledger]
    exact Session.legible_reference_iff.mp (openedLedger.solvent.consultable.reference holder)

/-- The fee is taken from the quantity, not from what the account had. -/
theorem addsExactly_issue : issue.AddsExactly ledger := by
  intro signature planned signed same
  cases Option.some.inj signed
  cases Except.ok.inj (processing_issue.symm.trans same)
  refine ⟨trivial, trivial, fun balance held => ?_, trivial, trivial, trivial⟩
  have brought := (ledger.saveAsset coined).balance_setBalance coined.owner coined.owner nativeAsset
    nativeAsset ⟨100000000⟩
  rw [if_pos ⟨rfl, rfl⟩] at brought
  cases Except.ok.inj (brought.symm.trans held)
  exact rfl

/-- **It is processed in this ledger**, and its account is left with less than nothing. -/
theorem exists_processed : ∃ t : Session,
    issue.processed ledger = ⟨.ok (), ⟨issuance.after, .processed⟩, t⟩ ∧
      t.balance openedLedger.account nativeAsset = .ok ⟨-100000000⟩ := by
  have left : (makeAll issuance.changes ledger).session.balance coined.owner nativeAsset =
      .ok (⟨100000000⟩ + -⟨200000000⟩) :=
    (balance_makeAll made _ _).trans (onBalanceAll_issuing_coins rfl)
  exact ⟨_, isAccepted_issue.processed_eq_of_plan rfl processing_issue made, left⟩

end Exhausted

end ChainLedger

import ChainLedger.Proofs.Transaction.Additions
import ChainLedger.Proofs.Transaction.Conditions
import ChainLedger.Proofs.Transaction.Processing
import ChainLedger.Proofs.Transaction.Supply

/-!
# Solvent ledgers

A ledger is solvent if the rules can be judged in it, its assets are numbered in order,
and no balance is negative, nor any accounts together have more coins than were minted,
more of an issued asset than an issue can bring, or anything of an asset that was not
issued. A good record of any kind is processed in a solvent ledger without a fault or a
sum that wraps around, and leaves it solvent.
-/

namespace ChainLedger

open Change

/-! ## Solvency -/

/-- The units that the largest issue brings. -/
def largestIssue : Int := Limits.assetQuantity.toInt * unitsPerCoin.toInt

/-- What there can be of every asset, after so many coins were minted. -/
def Session.supplies (minted : Int) (s : Session) (asset : AssetId) : Int :=
  if asset = nativeAsset then minted else if s.holds (.asset asset) then largestIssue else 0

/-- The ledger can be consulted, and its balances are backed by what was minted and issued. -/
structure Session.Solvent (minted : Int) (issued : Nat) (s : Session) : Prop where
  consultable : s.Consultable
  numbered : s.Numbered issued
  backed : s.Backed (s.supplies minted)

namespace Session

variable {s : Session} {minted : Int} {issued : Nat}

/-- What there can be of an asset fits an amount. -/
theorem supplies_le (bounded : minted ≤ Amount.largest) (asset : AssetId) :
    s.supplies minted asset ≤ Amount.largest := by
  have issue : largestIssue ≤ Amount.largest := by decide
  have none : 0 ≤ Amount.largest := by decide
  unfold supplies
  split
  next => exact bounded
  next =>
    split
    next => exact issue
    next => exact none

/-- The ledger without rows is solvent. -/
theorem solvent_empty : OrderedMap.empty.session.Solvent 0 0 where
  consultable := consultable_empty
  numbered := .empty
  backed := by
    have nothing : ∀ account asset, OrderedMap.empty.session.units account asset = 0 :=
      fun _ _ => rfl
    constructor
    case readable => exact fun _ _ => legible_empty _
    case nonneg => exact fun account asset => (nothing account asset).ge
    case covered =>
      intro accounts asset
      rw [Finset.sum_congr rfl fun account _ => nothing account asset, Finset.sum_const_zero]
      have missing : OrderedMap.empty.session.holds (.asset asset) = false := rfl
      simp [supplies, missing]

namespace Solvent

/-- What processing reads in a solvent ledger can be read. -/
theorem sound (solvent : s.Solvent minted issued) (left : issued + 1 < 2 ^ 64) : s.Sound where
  balance := solvent.consultable.balance
  reference := solvent.consultable.reference
  numbering := by
    obtain ⟨id, next, -⟩ := solvent.numbered.exists_nextAssetId left
    exact ⟨id, next⟩

/-- Where the same rows are read, a ledger is just as solvent. -/
theorem congr {t : Session} (solvent : s.Solvent minted issued)
    (same : ∀ key, t.get? key = s.get? key) : t.Solvent minted issued := by
  have read : ∀ c : Cell, t.read c = s.read c := fun c => read_congr (same c.key)
  have legible : ∀ c, s.Legible c → t.Legible c := fun c known => by
    rwa [Legible, read c]
  have units : ∀ account asset, t.units account asset = s.units account asset :=
    fun account asset => units_congr (balance_congr (same _))
  constructor
  case consultable =>
    have known := solvent.consultable
    exact ⟨fun _ _ => legible _ (known.balance ..), fun _ => legible _ (known.reference _),
      fun _ => legible _ (known.asset _), fun _ => legible _ (known.poll _),
      fun _ _ => legible _ (known.vote ..)⟩
  case numbered =>
    intro key held
    rw [same] at held
    exact solvent.numbered key held
  case backed =>
    have supplied : t.supplies minted = s.supplies minted := by
      funext asset
      rw [supplies, supplies, holds, holds, contains, contains, same]
    rw [supplied]
    constructor
    case readable => exact fun _ _ => legible _ (solvent.backed.readable ..)
    case nonneg => exact fun account asset => units account asset ▸ solvent.backed.nonneg ..
    case covered =>
      intro accounts asset
      rw [Finset.sum_congr rfl fun account _ => units account asset]
      exact solvent.backed.covered accounts asset

/-- **Safe additions keep a ledger solvent** that issue no asset. -/
theorem makeAll {minted' : Int} {changes : List Change} (solvent : s.Solvent minted issued)
    (safe : AllSafe (s.supplies minted') changes s)
    (additions : ∀ change ∈ changes, change.IsAddition)
    (other : ∀ change ∈ changes, "asset/" ∉ change.families) :
    (Change.makeAll changes s).session.Solvent minted' issued where
  consultable := consultable_makeAll solvent.consultable additions safe.made
  numbered := solvent.numbered.makeAll other
  backed := by
    apply safe.backed.mono
    intro asset
    rw [supplies, supplies, holds_makeAll (c := .asset asset) other]

end Solvent

end Session

/-! ## Exact reckoning -/

/-- What is reckoned to plan an action does not wrap around: amounts that are negated, the sum that
a deployment takes, and the units of a quantity of coins. -/
def Action.ReckonsExactly (envelope : Envelope) (action : Action) : Prop :=
  match action with
  | .payment _ | .transferAsset _ | .multiPayment _ =>
    envelope.fee.NegatesExactly ∧ ∀ leg ∈ action.legs, leg.amount.NegatesExactly
  | .settleAt _ => ∀ leg ∈ action.legs, leg.amount.NegatesExactly
  | .createPoll _ | .voteOnPoll _ => envelope.fee.NegatesExactly
  | .issueAsset i =>
    envelope.fee.NegatesExactly ∧
      (Amount.ofCoins i.quantity).toInt = i.quantity.toInt * unitsPerCoin.toInt
  | .deployAt d => envelope.fee.AddsExactly d.amount ∧ (envelope.fee + d.amount).NegatesExactly

/-- What is reckoned to plan a record does not wrap around. -/
def Record.ReckonsExactly : Record → Prop
  | .genesis _ => True
  | .standard envelope action => action.ReckonsExactly envelope

/-! ## Good actions -/

section Actions

variable {params : ChainParams} {s : Session} {supply : AssetId → Int} {envelope : Envelope}
  {creator sender : Address} {fee : Amount} {legs : List Leg}

/-- Charging a fee adds only. -/
theorem addition_chargeFee (signature : Signature) : ∀ change ∈ chargeFee creator fee signature,
    change.IsAddition ∧ "asset/" ∉ change.families := by
  simp [chargeFee, IsAddition, families]

/-- Moving legs adds only. -/
theorem addition_moveAll (signature : Signature) : ∀ change ∈ moveAll creator signature legs,
    change.IsAddition ∧ "asset/" ∉ change.families := by
  intro change member
  rcases List.mem_flatMap.mp member with ⟨leg, -, moved⟩
  rcases List.mem_append.mp moved with adjusted | introduced
  · simp only [List.mem_cons, List.not_mem_nil, or_false] at adjusted
    rcases adjusted with rfl | rfl <;> simp [IsAddition, families]
  · split at introduced
    next =>
      rw [List.mem_singleton] at introduced
      simp [introduced, IsAddition, families]
    next => cases introduced

/-- Charging a fee and moving legs adds only. -/
theorem addition_payment (signature : Signature) :
    ∀ change ∈ chargeFee creator fee signature ++ moveAll creator signature legs,
      change.IsAddition ∧ "asset/" ∉ change.families := by
  rw [List.forall_mem_append]
  exact ⟨addition_chargeFee signature, addition_moveAll signature⟩

/-- Settling adds only. -/
theorem addition_settlement (signature : Signature) :
    ∀ change ∈ .setReference creator signature :: moveAll creator signature legs,
      change.IsAddition ∧ "asset/" ∉ change.families := by
  rw [List.forall_mem_cons]
  exact ⟨by simp [IsAddition, families], addition_moveAll signature⟩

/-- **A payment that is covered is safe.** -/
theorem IsPayable.safe (payable : IsPayable s sender legs fee) (signature : Signature)
    (backed : s.Backed supply) (bounded : ∀ asset, supply asset ≤ Amount.largest)
    (legible : ∀ account, s.Legible (.reference account)) :
    AllSafe supply (chargeFee sender fee signature ++ moveAll sender signature legs) s := by
  have nonneg : ∀ leg ∈ legs, 0 ≤ leg.amount.toInt :=
    fun leg member => Int.le_of_lt (payable.amounts leg member)
  have due := payable.covered nativeAsset List.mem_cons_self
  have later := owed_nonneg nonneg nativeAsset
  rw [totalOf_eq, if_pos rfl] at due
  have coins : fee.toInt ≤ s.units sender nativeAsset := by omega
  obtain ⟨charged, units⟩ :=
    safe_chargeFee signature backed (Int.le_of_lt payable.positive) coins
  refine charged.append (safe_moveAll signature charged.backed (fun leg _ => bounded _) ?_ nonneg
    ?_).1
  · exact fun account => legible_reference_makeAll (legible account) charged.made
  · intro asset
    rw [units]
    by_cases native : asset = nativeAsset
    · subst native
      simp only [and_self, if_true]
      omega
    · simp only [native, and_false, if_false, add_zero]
      by_cases moved : asset ∈ legs.map Leg.assetId
      · have covered := payable.covered asset (List.mem_cons_of_mem _ moved)
        rwa [totalOf_eq, if_neg native, zero_add] at covered
      · have unmoved : ∀ leg ∈ legs, leg.assetId ≠ asset :=
          fun leg member same => moved (List.mem_map.mpr ⟨leg, member, same⟩)
        rw [owed_eq_zero unmoved]
        exact backed.nonneg sender asset

theorem IsPayable.negatesExactly (payable : IsPayable s sender legs fee) :
    fee.NegatesExactly ∧ ∀ leg ∈ legs, leg.amount.NegatesExactly :=
  ⟨Amount.negatesExactly_of_nonneg (Int.le_of_lt payable.positive),
    fun leg member => Amount.negatesExactly_of_nonneg (Int.le_of_lt (payable.amounts leg member))⟩

/-- A fee that is covered is charged safely after a change that touches no balance. -/
theorem HasFee.safe {change : Change} (has : HasFee s creator fee) (signature : Signature)
    (backed : s.Backed supply) (other : "balance/" ∉ change.families)
    (made : (change.make s).outcome = .ok ()) :
    AllSafe supply (change :: chargeFee creator fee signature) s := by
  have other' : ∀ only ∈ [change], "balance/" ∉ only.families := by simpa using other
  have alone : AllSafe supply [change] s :=
    .of_other backed other' (makeAll_cons_eq_ok_iff.mpr ⟨made, rfl⟩)
  have same := AllSafe.balance_makeAll_of_other (s := s) other' creator nativeAsset
  have covered := has.covered
  rw [← Session.units_congr same] at covered
  exact alone.append (safe_chargeFee signature alone.backed (Int.le_of_lt has.positive) covered).1

theorem HasFee.negatesExactly (has : HasFee s creator fee) : fee.NegatesExactly :=
  Amount.negatesExactly_of_nonneg (Int.le_of_lt has.positive)

theorem AtSettlement.IsGood.nonneg {settlement : AtSettlement} (good : settlement.IsGood s) :
    ∀ leg ∈ settlement.legs, 0 ≤ leg.amount.toInt := by
  intro leg member
  rcases List.mem_map.mp member with ⟨payment, paid, rfl⟩
  exact good.amounts payment (Option.mem_toList.mp paid)

/-- A good settlement owes nothing that its account does not have. -/
theorem AtSettlement.IsGood.owed_le {settlement : AtSettlement} (good : settlement.IsGood s)
    (backed : s.Backed supply) (asset : AssetId) :
    owed asset settlement.legs ≤ s.units settlement.atAddress asset := by
  have least := backed.nonneg settlement.atAddress asset
  cases paid : settlement.payment with
  | none =>
    have legs : settlement.legs = [] := by simp [AtSettlement.legs, paid]
    rw [legs]
    exact least
  | some payment =>
    have legs : settlement.legs = [⟨settlement.recipient, payment.assetId, payment.amount⟩] := by
      simp [AtSettlement.legs, paid]
    have covered := good.covered payment paid
    rw [legs, owed_cons, owed_eq_zero (by simp), add_zero]
    split
    next same => rwa [same]
    next => exact least

/-- **A settlement that is covered is safe.** -/
theorem AtSettlement.IsGood.safe {settlement : AtSettlement} (good : settlement.IsGood s)
    (signature : Signature) (backed : s.Backed supply)
    (bounded : ∀ asset, supply asset ≤ Amount.largest)
    (legible : ∀ account, s.Legible (.reference account)) :
    AllSafe supply (.setReference settlement.atAddress signature ::
      moveAll settlement.atAddress signature settlement.legs) s := by
  have other : ∀ change ∈ [Change.setReference settlement.atAddress signature],
      "balance/" ∉ change.families := by
    simp [families]
  have referred : AllSafe supply [.setReference settlement.atAddress signature] s :=
    .of_other backed other rfl
  refine referred.append (safe_moveAll signature referred.backed (fun leg _ => bounded _) ?_ ?_
    ?_).1
  · exact fun account => legible_reference_makeAll (legible account) referred.made
  · exact good.nonneg
  · intro asset
    rw [Session.units_congr (AllSafe.balance_makeAll_of_other other settlement.atAddress asset)]
    exact good.owed_le backed asset

theorem AtDeployment.IsGood.reckonsExactly {d : AtDeployment} (good : d.IsGood s fee creator)
    (backed : s.Backed supply) (bounded : ∀ asset, supply asset ≤ Amount.largest) :
    fee.AddsExactly d.amount ∧ (fee + d.amount).NegatesExactly := by
  have amount := good.amount
  have positive := good.positive
  have covered := good.covered
  have most := backed.units_le creator nativeAsset
  have limit := bounded nativeAsset
  have sum : fee.AddsExactly d.amount := Amount.addsExactly_of_range (by omega) (by omega)
  refine ⟨sum, Amount.negatesExactly_of_nonneg ?_⟩
  rw [sum]
  omega

/-- **A deployment that is covered is safe.** -/
theorem AtDeployment.IsGood.safe {d : AtDeployment} (good : d.IsGood s fee creator)
    (signature : Signature) (backed : s.Backed supply)
    (bounded : ∀ asset, supply asset ≤ Amount.largest) (deployed : DeployedAt) :
    AllSafe supply [.saveAt deployed, .adjust creator nativeAsset (-(fee + d.amount)),
      .adjust deployed.address nativeAsset d.amount, .setReference creator signature,
      .setReference deployed.address signature] s := by
  have sum : (fee + d.amount).toInt = fee.toInt + d.amount.toInt :=
    (good.reckonsExactly backed bounded).1
  have positive := good.positive
  have nonneg : 0 ≤ d.amount.toInt := Int.le_of_lt good.amount
  have covered := good.covered
  have other : ∀ change ∈ [Change.saveAt deployed], "balance/" ∉ change.families := by
    simp [families]
  have saved : AllSafe supply [.saveAt deployed] s := .of_other backed other rfl
  have same := AllSafe.balance_makeAll_of_other (s := s) other creator nativeAsset
  rw [← Session.units_congr same] at covered
  rw [← sum] at covered
  have moved := (saved.backed.transfer deployed.address (bounded nativeAsset) nonneg
    (by omega) covered).1
  have referred : ∀ change ∈ [Change.setReference creator signature,
      .setReference deployed.address signature], "balance/" ∉ change.families := by
    simp [families]
  exact saved.append (moved.append_other referred rfl).1

/-- The units of a quantity that can be issued. -/
theorem AssetIssue.IsGood.units_eq {i : AssetIssue} (good : i.IsGood s fee creator) :
    (Amount.ofCoins i.quantity).toInt = i.quantity.toInt * unitsPerCoin.toInt := by
  have quantity := good.quantity
  have limit : Limits.assetQuantity.toInt = 10000000000 := rfl
  have units : unitsPerCoin.toInt = 100000000 := rfl
  change (i.quantity * unitsPerCoin).toInt = _
  rw [Int64.toInt_mul, units]
  apply Int.bmod_eq_of_le <;> omega

/-- What an issue brings is not negative and at most what the largest one does. -/
theorem AssetIssue.IsGood.units_range {i : AssetIssue} (good : i.IsGood s fee creator) :
    0 ≤ (Amount.ofCoins i.quantity).toInt ∧
      (Amount.ofCoins i.quantity).toInt ≤ largestIssue := by
  have quantity := good.quantity
  have limit : Limits.assetQuantity.toInt = 10000000000 := rfl
  have units : unitsPerCoin.toInt = 100000000 := rfl
  have largest : largestIssue = 10000000000 * 100000000 := rfl
  rw [good.units_eq, units]
  omega

/-- **An issue is safe** and adds to the supply of its asset what it brings. -/
theorem AssetIssue.IsGood.safe {i : AssetIssue} {id : AssetId} (good : i.IsGood s fee creator)
    (signature : Signature) (backed : s.Backed supply) (left : id ≠ nativeAsset) :
    AllSafe
      (fun other => supply other +
        if other = id then (Amount.ofCoins i.quantity).toInt else 0)
      ([.saveAsset (i.toAsset id signature), .setBalance i.owner id (Amount.ofCoins i.quantity)] ++
        chargeFee creator fee signature) s := by
  have other : ∀ change ∈ [Change.saveAsset (i.toAsset id signature)],
      "balance/" ∉ change.families := by
    simp [families]
  have saved : AllSafe supply [.saveAsset (i.toAsset id signature)] s :=
    .of_other backed other rfl
  have brought : AllSafe
      (fun other => supply other + if other = id then (Amount.ofCoins i.quantity).toInt else 0)
      [.setBalance i.owner id (Amount.ofCoins i.quantity)]
      (makeAll [.saveAsset (i.toAsset id signature)] s).session :=
    saved.backed.set good.units_range.1
  have issued := saved.append brought
  have coins : (makeAll ([.saveAsset (i.toAsset id signature)] ++
      [.setBalance i.owner id (Amount.ofCoins i.quantity)]) s).session.units creator nativeAsset =
        s.units creator nativeAsset := by
    apply Session.units_congr
    rw [balance_makeAll issued.made]
    simp [onBalanceAll, onBalance, Ne.symm left]
  have covered := good.fee.covered
  rw [← coins] at covered
  exact issued.append
    (safe_chargeFee signature issued.backed (Int.le_of_lt good.fee.positive) covered).1

end Actions

end ChainLedger

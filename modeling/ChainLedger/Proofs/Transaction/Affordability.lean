import ChainLedger.Proofs.Ledger.Order
import ChainLedger.Proofs.Run.Reached
import ChainLedger.Proofs.Transaction.BalanceChange

/-!
# Payments that can be afforded

The legs of a payment are judged one after the other, with the total that has been reached so far
of each asset, and at last the totals are held against the balances. All the same the order of the
legs does not matter: what is accepted is what every leg is fit for by itself and what the sender
can afford altogether (`Affordable`). A total that is reached on the way is no more than the one at
the end, since no leg is negative, and therefore fits an amount if the balance covers the end. Nor
does the order matter to what is left of the balances and references once the legs are moved.
-/

namespace ChainLedger

open Change Rule

variable {s : Session} {sender account : Address} {legs others : List Leg} {fee : Amount}
  {signature : Signature} {asset : AssetId}

/-! ## Legs and payments -/

/-- A leg that a payment may have: it pays something to a valid address, in coins or of an asset
that is there, and whole coins of an asset that is not divisible. -/
structure Leg.IsFit (s : Session) (leg : Leg) : Prop where
  amount : 0 < leg.amount.toInt
  recipient : Address.isValid leg.recipient = true
  asset : leg.assetId ≠ nativeAsset → ∃ asset, s.asset? leg.assetId = .ok (some asset) ∧
    (asset.isDivisible = true ∨ unitsPerCoin.toInt ∣ leg.amount.toInt)

/-- The sender can afford the legs and the fee. -/
structure Affordable (s : Session) (sender : Address) (legs : List Leg) (fee : Amount) :
    Prop where
  positive : 0 < fee.toInt
  fit : ∀ leg ∈ legs, leg.IsFit s
  /-- The sender has the sum of all legs in an asset, and of the fee if the asset is coins. -/
  covered : ∀ asset, asset = nativeAsset ∨ (∃ leg ∈ legs, leg.assetId = asset) →
    ∃ balance, s.balance sender asset = .ok balance ∧
      (if asset = nativeAsset then fee.toInt else 0) +
        ((legs.filter fun leg => leg.assetId == asset).map fun leg => leg.amount.toInt).sum ≤
          balance.toInt

/-- It does not matter in which order the legs are given. -/
theorem Affordable.perm (perm : legs.Perm others) (affordable : Affordable s sender legs fee) :
    Affordable s sender others fee where
  positive := affordable.positive
  fit leg member := affordable.fit leg (perm.mem_iff.mpr member)
  covered asset named := by
    simp only [← perm.mem_iff] at named
    obtain ⟨balance, known, enough⟩ := affordable.covered asset named
    rw [((perm.filter _).map _).sum_eq] at enough
    exact ⟨balance, known, enough⟩

/-! ## The rules, leg by leg -/

/-- An amount is a number of whole coins if its units are a multiple of those of a coin. -/
theorem Amount.isIntegral_iff {a : Amount} :
    a.isIntegral = true ↔ unitsPerCoin.toInt ∣ a.toInt := by
  rw [isIntegral, beq_iff_eq, ← Int64.toInt_inj, Int64.toInt_mod, Int.dvd_iff_tmod_eq_zero]
  rfl

theorem Rule.balance_holds_iff {units : Int} :
    (balance s account asset units).holds = .ok true ↔
      ∃ balance, s.balance account asset = .ok balance ∧ units ≤ balance.toInt := by
  simp only [balance, Except.map_eq_ok_iff, decide_eq_true_eq]

theorem Rule.assetAmount_hold_iff {amount : Amount} :
    (∀ rule ∈ assetAmount s asset amount, rule.holds = .ok true) ↔
      (asset ≠ nativeAsset → ∃ row, s.asset? asset = .ok (some row) ∧
        (row.isDivisible = true ∨ unitsPerCoin.toInt ∣ amount.toInt)) := by
  by_cases coins : asset = nativeAsset
  · simp [assetAmount, coins]
  · rw [assetAmount, if_neg coins, List.forall_mem_cons, List.forall_mem_singleton,
      ← Amount.isIntegral_iff, Session.assetExists]
    cases s.asset? asset with
    | error error => simp [Except.map, coins]
    | ok row => cases row <;> simp [Except.map, coins]

/-- The rules for a leg after others. -/
theorem Leg.rules_hold_iff {leg : Leg} {before : List Leg} :
    (∀ rule ∈ leg.rules s fee before, rule.holds = .ok true) ↔
      leg.IsFit s ∧ (Amount.ofInt? (totalOf leg.assetId (leg :: before) fee)).isSome = true := by
  rw [Leg.rules, List.forall_mem_append, List.forall_mem_append, List.forall_mem_cons,
    List.forall_mem_singleton, List.forall_mem_singleton, plain_holds_iff, validAddress,
    plain_holds_iff, plain_holds_iff, assetAmount_hold_iff, Amount.isPositive_iff]
  constructor
  · rintro ⟨⟨⟨amount, recipient⟩, asset⟩, fits⟩
    exact ⟨⟨amount, recipient, asset⟩, fits⟩
  · rintro ⟨fit, fits⟩
    exact ⟨⟨⟨fit.amount, fit.recipient⟩, fit.asset⟩, fits⟩

/-- The rules for legs are those for each leg after the ones before it. -/
theorem mem_legRules {rule : Rule} {before : List Leg} :
    rule ∈ legRules s fee before legs ↔ ∃ front leg back, legs = front ++ leg :: back ∧
      rule ∈ leg.rules s fee (front.reverse ++ before) := by
  induction legs generalizing before with
  | nil => simp [legRules]
  | cons first rest ih =>
    rw [legRules, List.mem_append, ih]
    constructor
    · rintro (here | ⟨front, leg, back, rfl, later⟩)
      · exact ⟨[], first, rest, rfl, here⟩
      · exact ⟨first :: front, leg, back, rfl, by simpa using later⟩
    · rintro ⟨_ | ⟨other, front⟩, leg, back, split, member⟩
      · cases split
        exact .inl member
      · cases split
        exact .inr ⟨front, leg, back, rfl, by simpa using member⟩

/-! ## Totals on the way -/

theorem owed_append (asset : AssetId) (front back : List Leg) :
    owed asset (front ++ back) = owed asset front + owed asset back := by
  simp only [owed_eq_sum, List.filter_append, List.map_append, List.sum_append]

theorem owed_reverse (asset : AssetId) (legs : List Leg) :
    owed asset legs.reverse = owed asset legs := by
  simp only [owed_eq_sum, ((legs.reverse_perm.filter _).map _).sum_eq]

/-- A total that is reached on the way fits an amount if the sender can afford the payment. -/
theorem Affordable.isSome_total {front back : List Leg} {leg : Leg}
    (affordable : Affordable s sender (front ++ leg :: back) fee) :
    (Amount.ofInt? (totalOf leg.assetId (leg :: front.reverse) fee)).isSome = true := by
  obtain ⟨balance, -, enough⟩ :=
    affordable.covered leg.assetId (.inr ⟨leg, by simp, rfl⟩)
  rw [← owed_eq_sum, owed_append] at enough
  have nonneg : ∀ other ∈ front ++ leg :: back, 0 ≤ other.amount.toInt :=
    fun other member => (affordable.fit other member).amount.le
  rw [List.forall_mem_append, List.forall_mem_cons] at nonneg
  have most := balance.toInt_le_largest
  have before := owed_nonneg nonneg.1 leg.assetId
  have later := owed_nonneg nonneg.2.2 leg.assetId
  have charged : 0 ≤ if leg.assetId = nativeAsset then fee.toInt else 0 := by
    split
    next => exact affordable.positive.le
    next => exact le_rfl
  rw [owed_cons, if_pos rfl] at enough
  have here := nonneg.2.1
  rw [totalOf_eq, owed_cons, if_pos rfl, owed_reverse]
  exact Amount.isSome_ofInt? (by omega) (by omega)

/-- **A payment is found good exactly if the sender can afford it**, whatever the ledger. -/
theorem judge_paymentRules_iff : Rule.judge (paymentRules s sender legs fee) = .ok .ok ↔
    Affordable s sender legs fee := by
  have fair : AllFair s (paymentRules s sender legs fee) := allFair_paymentRules sender legs fee
  rw [judge_eq_ok_iff fun rule member => (fair rule member).1]
  constructor
  · intro rules
    rcases List.forall_mem_append.mp rules with ⟨front, balances⟩
    rcases List.forall_mem_cons.mp front with ⟨feeRule, each⟩
    constructor
    case positive => exact positiveFee_holds_iff.mp feeRule
    case fit =>
      intro leg member
      obtain ⟨earlier, here⟩ := rules_of_legRules each member
      exact (Leg.rules_hold_iff.mp here).1
    case covered =>
      intro asset named
      have among : asset ∈ assetsOf legs := by
        simpa [mem_assetsOf] using named
      have rule := balances _ (List.mem_map.mpr ⟨asset, among, rfl⟩)
      rwa [balance_holds_iff, totalOf_eq, owed_eq_sum] at rule
  · intro affordable
    refine List.forall_mem_append.mpr ⟨List.forall_mem_cons.mpr ⟨?_, ?_⟩, ?_⟩
    · exact positiveFee_holds_iff.mpr affordable.positive
    · intro rule member
      obtain ⟨front, leg, back, rfl, here⟩ := mem_legRules.mp member
      rw [List.append_nil] at here
      have fit := affordable.fit leg (by simp)
      exact Leg.rules_hold_iff.mpr ⟨fit, affordable.isSome_total⟩ rule here
    · intro rule member
      obtain ⟨asset, among, rfl⟩ := List.mem_map.mp member
      have named : asset = nativeAsset ∨ ∃ leg ∈ legs, leg.assetId = asset := by
        simpa [mem_assetsOf] using among
      rw [balance_holds_iff, totalOf_eq, owed_eq_sum]
      exact affordable.covered asset named

/-! ## Moving legs in another order -/

/-- Paying adds to balances and gives references, and does nothing else. -/
theorem mem_paying {change : Change}
    (member : change ∈ chargeFee sender fee signature ++ moveAll sender signature legs) :
    (∃ account asset delta, change = .adjust account asset delta) ∨
      (∃ account, change = .setReference account signature) ∨
      ∃ account, change = .introduce account signature := by
  rcases List.mem_append.mp member with charged | moved
  · simp only [chargeFee, List.mem_cons, List.not_mem_nil, or_false] at charged
    rcases charged with rfl | rfl
    · exact .inl ⟨_, _, _, rfl⟩
    · exact .inr (.inl ⟨_, rfl⟩)
  · obtain ⟨leg, -, moved⟩ := List.mem_flatMap.mp moved
    rcases List.mem_append.mp moved with adjusted | introduced
    · simp only [List.mem_cons, List.not_mem_nil, or_false] at adjusted
      rcases adjusted with rfl | rfl <;> exact .inl ⟨_, _, _, rfl⟩
    · split at introduced
      next => exact .inr (.inr ⟨_, List.mem_singleton.mp introduced⟩)
      next => cases introduced

/-- Every account has the same balances and the same reference in both ledgers. -/
def Session.SameAccounts (s t : Session) : Prop :=
  (∀ account asset, t.balance account asset = s.balance account asset) ∧
    ∀ account, t.lastReference account = s.lastReference account

/-- **Legs can be moved in any order**: where balances and references can be read, the payment is
made either way and leaves the same of them, even if a balance wraps around. -/
theorem moveAll_perm (perm : legs.Perm others)
    (balance : ∀ account asset, s.Legible (.balance account asset))
    (reference : ∀ account, s.Legible (.reference account)) :
    let pay := fun legs =>
      makeAll (chargeFee sender fee signature ++ moveAll sender signature legs) s
    (pay legs).outcome = .ok () ∧ (pay others).outcome = .ok () ∧
      (pay legs).session.SameAccounts (pay others).session := by
  intro pay
  have made : ∀ legs, (pay legs).outcome = .ok () := by
    refine fun legs => makeAll_eq_ok (fun change member => ?_) fun change member => ?_
    · obtain ⟨_, _, _, rfl⟩ | ⟨_, rfl⟩ | ⟨_, rfl⟩ := mem_paying member <;> trivial
    · obtain ⟨_, _, _, rfl⟩ | ⟨_, rfl⟩ | ⟨_, rfl⟩ := mem_paying member
      · exact balance _ _
      · trivial
      · exact reference _
  refine ⟨made legs, made others, fun account asset => ?_, fun account => ?_⟩
  · have reordered := (perm.flatMap_right (Leg.move sender signature)).append_left
      (chargeFee sender fee signature)
    have keep : ∀ change ∈ chargeFee sender fee signature ++ moveAll sender signature legs,
        change.ReplacesNoBalance := by
      intro change member
      obtain ⟨_, _, _, rfl⟩ | ⟨_, rfl⟩ | ⟨_, rfl⟩ := mem_paying member <;> trivial
    rw [balance_makeAll (made legs), balance_makeAll (made others)]
    exact (onBalanceAll_perm reordered keep _).symm
  · -- Whoever is brought coins is introduced, by whichever leg comes first.
    rw [lastReference_makeAll (made legs), lastReference_makeAll (made others),
      onReferenceAll_append, onReferenceAll_append, onReferenceAll_chargeFee,
      onReferenceAll_moveAll_creator, onReferenceAll_moveAll_creator]
    simp only [perm.mem_iff]

/-- **A payment is accepted exactly if the sender can afford it.** So the order of the legs does not
matter: in another order they are accepted as well, and where balances and references can be read
they are moved to the same effect. -/
theorem payment_accepted_iff (s : Session) (sender : Address) (legs : List Leg) (fee : Amount) :
    (Rule.judge (paymentRules s sender legs fee) = .ok .ok ↔ Affordable s sender legs fee) ∧
      ∀ others, legs.Perm others →
        (Rule.judge (paymentRules s sender others fee) = .ok .ok ↔
          Rule.judge (paymentRules s sender legs fee) = .ok .ok) ∧
        ((∀ account asset, s.Legible (.balance account asset)) →
          (∀ account, s.Legible (.reference account)) → ∀ signature,
            let pay := fun legs =>
              makeAll (chargeFee sender fee signature ++ moveAll sender signature legs) s
            (pay legs).outcome = .ok () ∧ (pay others).outcome = .ok () ∧
              (pay legs).session.SameAccounts (pay others).session) := by
  refine ⟨judge_paymentRules_iff, fun others perm => ⟨?_, fun balance reference signature => ?_⟩⟩
  · rw [judge_paymentRules_iff, judge_paymentRules_iff]
    exact ⟨Affordable.perm perm.symm, Affordable.perm perm⟩
  · exact moveAll_perm perm balance reference

/-- Coins for another account and for the sender itself. -/
def coinLegs : List Leg :=
  [⟨"QjSSfvVj4hqM5PwYwjZn7UL4mZKzUCtoeR", nativeAsset, ⟨300⟩⟩,
    ⟨"QVbN9WGbczLY4rPWUxzEmipQjgr2m9dQmt", nativeAsset, ⟨600⟩⟩]

theorem affordable_coinLegs : Affordable openedLedger openedLedger.account coinLegs ⟨100⟩ where
  positive := by decide
  fit leg member := by
    simp only [coinLegs, List.mem_cons, List.not_mem_nil, or_false] at member
    rcases member with rfl | rfl
    · exact ⟨by decide, Address.Sample.isValid_other, fun other => absurd rfl other⟩
    · exact ⟨by decide, Address.Sample.isValid_account, fun other => absurd rfl other⟩
  covered asset named := by
    have coins : asset = nativeAsset ∨ nativeAsset = asset := by simpa [coinLegs] using named
    obtain rfl := coins.elim id Eq.symm
    exact ⟨_, openedLedger.opened.2, by decide⟩

theorem payment_accepted_iff_coinLegs :
    let pay := fun legs => makeAll (chargeFee openedLedger.account ⟨100⟩ (.fill 170) ++
      moveAll openedLedger.account (.fill 170) legs) openedLedger
    Rule.judge (paymentRules openedLedger openedLedger.account coinLegs ⟨100⟩) = .ok .ok ∧
      Rule.judge (paymentRules openedLedger openedLedger.account coinLegs.reverse ⟨100⟩) =
        .ok .ok ∧
      (pay coinLegs).outcome = .ok () ∧ (pay coinLegs.reverse).outcome = .ok () ∧
      (pay coinLegs).session.SameAccounts (pay coinLegs.reverse).session := by
  obtain ⟨accepted, reordered⟩ :=
    payment_accepted_iff openedLedger openedLedger.account coinLegs ⟨100⟩
  obtain ⟨same, moved⟩ := reordered coinLegs.reverse coinLegs.reverse_perm.symm
  have good := accepted.mpr affordable_coinLegs
  have coherent := openedLedger.reached.coherent
  exact ⟨good, same.mpr good, moved coherent.balance coherent.reference (.fill 170)⟩

end ChainLedger

import ChainLedger.Proofs.Transaction.Solvency
import ChainLedger.Proofs.Transaction.Storable

/-!
# Steps of a solvent ledger

A good signed record of any kind can be processed in a solvent ledger: nothing that is
reckoned for it wraps around, and the ledger that it leaves is solvent with the coins
that it mints and the asset that it issues.
-/

namespace ChainLedger

open Change

namespace Record

/-- The units of coins that a record mints. -/
def minted : Record → Int
  | .genesis g => g.amount.toInt
  | .standard .. => 0

/-- The number of assets that a record issues. -/
def issues : Record → Nat
  | .standard _ (.issueAsset _) => 1
  | .genesis _ | .standard .. => 0

end Record

/-- The changes are all made, none of them wraps around, and they leave the ledger solvent. -/
structure Change.KeepSolvent (minted : Int) (issued : Nat) (changes : List Change)
    (s : Session) : Prop where
  made : (makeAll changes s).outcome = .ok ()
  exact : AllExact changes s
  solvent : (makeAll changes s).session.Solvent minted issued

section Steps

variable {params : ChainParams} {s : Session} {minted minted' : Int} {issued : Nat}
  {envelope : Envelope} {signature : Signature} {r : Record} {changes : List Change}

/-! ## What is stored last -/

/-- Storing a signed record after safe changes is safe. -/
theorem Change.AllSafe.store {supply : AssetId → Int} (safe : AllSafe supply changes s)
    (signed : r.isSigned = true) : AllSafe supply (changes ++ [.saveTransaction r]) s := by
  refine (safe.append_other ?_ ?_).1
  · simp [families]
  · exact makeAll_cons_eq_ok_iff.mpr ⟨make_eq_ok_iff.mpr signed, rfl⟩

/-- Safe additions that issue no asset keep the ledger solvent, with the record stored. -/
theorem Session.Solvent.keepSolvent (solvent : s.Solvent minted issued)
    (safe : AllSafe (s.supplies minted') changes s)
    (additions : ∀ change ∈ changes, change.IsAddition ∧ "asset/" ∉ change.families)
    (signed : r.isSigned = true) :
    KeepSolvent minted' issued (changes ++ [.saveTransaction r]) s := by
  have stored := safe.store signed
  have all : ∀ change ∈ changes ++ [.saveTransaction r],
      change.IsAddition ∧ "asset/" ∉ change.families := by
    rw [List.forall_mem_append]
    exact ⟨additions, by simp [IsAddition, families]⟩
  have kept := solvent.makeAll stored (fun change member => (all change member).1)
    fun change member => (all change member).2
  exact ⟨stored.made, stored.exact, kept⟩

/-! ## Kinds of records -/

/-- **A good allocation** leaves the ledger solvent with the coins that it mints. -/
theorem Genesis.keepSolvent {g : Genesis} (solvent : s.Solvent minted issued)
    (good : (Record.genesis g).verdict params s = .ok .ok)
    (signed : (Record.genesis g).isSigned = true) (signature : Signature) :
    KeepSolvent (minted + g.amount.toInt) issued
      ([.setBalance g.recipient nativeAsset g.amount, .setReference g.recipient signature] ++
        [.saveTransaction (.genesis g)]) s := by
  have allocated : AllSafe (s.supplies (minted + g.amount.toInt))
      [.setBalance g.recipient nativeAsset g.amount] s := by
    have set : AllSafe
        (fun asset => s.supplies minted asset + if asset = nativeAsset then g.amount.toInt else 0)
        [.setBalance g.recipient nativeAsset g.amount] s :=
      solvent.backed.set (Genesis.nonneg_of_verdict good)
    have same : s.supplies (minted + g.amount.toInt) = fun asset =>
        s.supplies minted asset + if asset = nativeAsset then g.amount.toInt else 0 := by
      funext asset
      unfold Session.supplies
      split <;> simp
    rwa [same]
  have referred : ∀ change ∈ [Change.setReference g.recipient signature],
      "balance/" ∉ change.families := by
    simp [families]
  exact solvent.keepSolvent (allocated.append_other referred rfl).1 (by simp [IsAddition, families])
    signed

/-- A new asset keeps the ledger solvent, if what it brings is no more than the largest issue. -/
theorem Session.Solvent.saveAsset {asset : Asset} {units : Int} (solvent : s.Solvent minted issued)
    (safe : AllSafe (fun id => s.supplies minted id + if id = asset.id then units else 0)
      (.saveAsset asset :: changes) s)
    (storable : asset.Storable)
    (additions : ∀ change ∈ changes, change.IsAddition ∧ "asset/" ∉ change.families)
    (left : asset.id ≠ nativeAsset) (next : asset.id.toNat ≤ issued + 1)
    (unissued : s.holds (.asset asset.id) = false) (most : units ≤ largestIssue) :
    (Change.makeAll (.saveAsset asset :: changes) s).session.Solvent minted (issued + 1) := by
  have adds : ∀ change ∈ changes, change.IsAddition := fun change member =>
    (additions change member).1
  have other : ∀ change ∈ changes, "asset/" ∉ change.families := fun change member =>
    (additions change member).2
  have saved : ((Change.saveAsset asset).make s).outcome = .ok () := rfl
  have whole := makeAll_cons_of_ok saved changes
  constructor
  case consultable =>
    exact consultable_makeAll solvent.consultable (List.forall_mem_cons.mpr ⟨storable, adds⟩)
      safe.made
  case numbered =>
    rw [whole]
    exact Numbered.makeAll (solvent.numbered.saveAsset next) other
  case backed =>
    apply safe.backed.mono
    intro id
    have held := holds_makeAll (c := .asset id) other (s.saveAsset asset)
    rw [holds_saveAsset] at held
    rw [whole, supplies, supplies]
    change _ ≤ if id = nativeAsset then minted
      else if (Change.makeAll changes (s.saveAsset asset)).session.holds (.asset id) then
        largestIssue
      else 0
    rw [held]
    by_cases same : id = asset.id
    · subst same
      simp [left, unissued, most]
    · simp [same]

/-- **A good issue** leaves the ledger solvent with one more asset. -/
theorem AssetIssue.IsGood.keepSolvent {i : AssetIssue} {creator : Address} {fee : Amount}
    {id : AssetId} (good : i.IsGood s fee creator) (solvent : s.Solvent minted issued)
    (left : id ≠ nativeAsset) (next : id.toNat ≤ issued + 1)
    (unissued : s.holds (.asset id) = false) (signature : Signature) (signed : r.isSigned = true) :
    KeepSolvent minted (issued + 1)
      ([.saveAsset (i.toAsset id signature), .setBalance i.owner id (Amount.ofCoins i.quantity)] ++
        chargeFee creator fee signature ++ [.saveTransaction r]) s := by
  have safe := (good.safe signature solvent.backed left).store signed
  have additions : ∀ change ∈ Change.setBalance i.owner id (Amount.ofCoins i.quantity) ::
      (chargeFee creator fee signature ++ [.saveTransaction r]),
      change.IsAddition ∧ "asset/" ∉ change.families := by
    simp [chargeFee, IsAddition, families]
  exact ⟨safe.made, safe.exact,
    solvent.saveAsset safe (good.storable id signature) additions left next unissued
      good.units_range.2⟩

/-! ## Any action -/

/-- What a good action of any kind comes to in a solvent ledger. -/
theorem Action.exists_plan {action : Action} (solvent : s.Solvent minted issued)
    (bounded : minted ≤ Amount.largest)
    (left : issued + (Record.standard envelope action).issues < 2 ^ 64)
    (good : (Record.standard envelope action).verdict params s = .ok .ok)
    (signed : envelope.signature = some signature) :
    ∃ plan, action.processing params s signature envelope = .ok plan ∧
      action.ReckonsExactly envelope ∧
      KeepSolvent minted (issued + (Record.standard envelope action).issues)
        (plan.changes ++ [.saveTransaction plan.after]) s := by
  have rules := Record.rules_of_verdict good
  have limit := s.supplies_le bounded
  have backed := solvent.backed
  have legible := solvent.consultable.reference
  have stored : ∀ after, (Record.standard envelope after).isSigned = true := by
    intro after
    rw [Record.isSigned, Record.signature?, signed]
    rfl
  cases action with
  | payment p =>
    have payable := isPayable_of_rules rules
    exact ⟨_, rfl, payable.negatesExactly, solvent.keepSolvent
      (payable.safe signature backed limit legible) (addition_payment signature) (stored _)⟩
  | transferAsset t =>
    have payable := isPayable_of_rules (List.forall_mem_cons.mp rules).2
    exact ⟨_, rfl, payable.negatesExactly, solvent.keepSolvent
      (payable.safe signature backed limit legible) (addition_payment signature) (stored _)⟩
  | multiPayment m =>
    have payable := isPayable_of_rules (List.forall_mem_append.mp rules).2
    exact ⟨_, rfl, payable.negatesExactly, solvent.keepSolvent
      (payable.safe signature backed limit legible) (addition_payment signature) (stored _)⟩
  | settleAt settlement =>
    have paid := AtSettlement.isGood_of_rules rules
    refine ⟨_, rfl, fun leg member => Amount.negatesExactly_of_nonneg (paid.nonneg leg member), ?_⟩
    exact solvent.keepSolvent (paid.safe signature backed limit legible)
      (addition_settlement signature) (stored _)
  | createPoll c =>
    have creates := PollCreation.isGood_of_rules rules
    refine ⟨_, rfl, creates.fee.negatesExactly, ?_⟩
    refine solvent.keepSolvent (creates.fee.safe signature backed ?_ rfl) ?_ (stored _)
    · simp [families]
    · exact List.forall_mem_cons.mpr
        ⟨⟨creates.storable _, by simp [families]⟩, addition_chargeFee signature⟩
  | voteOnPoll b =>
    have votes := Ballot.isGood_of_rules rules
    obtain ⟨vote, voted⟩ := votes.vote
    refine ⟨_, processing_voteOnPoll_eq_ok_iff.mpr ⟨vote, voted, rfl⟩, votes.fee.negatesExactly, ?_⟩
    refine solvent.keepSolvent (votes.fee.safe signature backed ?_ rfl) ?_ (stored _)
    · simp [families]
    · exact List.forall_mem_cons.mpr
        ⟨⟨votes.storable, by simp [families]⟩, addition_chargeFee signature⟩
  | issueAsset i =>
    have issues := AssetIssue.isGood_of_rules rules
    obtain ⟨id, next, unused, number⟩ := solvent.numbered.exists_nextAssetId left
    have unissued := Session.not_holds_nextAssetId next unused
    exact ⟨_, processing_issueAsset_eq_ok_iff.mpr ⟨id, next, rfl⟩,
      ⟨issues.fee.negatesExactly, issues.units_eq⟩,
      issues.keepSolvent solvent unused number unissued signature (stored _)⟩
  | deployAt d =>
    have deploys := AtDeployment.isGood_of_rules rules
    rcases Option.isSome_iff_exists.mp deploys.version with ⟨version, versioned⟩
    obtain ⟨seed, seeded⟩ := deploys.exists_signingBytes params
    refine ⟨_, processing_deployAt_eq_ok_iff.mpr ⟨version, seed, versioned, seeded, rfl⟩,
      deploys.reckonsExactly backed limit, ?_⟩
    exact solvent.keepSolvent (deploys.safe signature backed limit (.fresh ..))
      (by simp [IsAddition, families]) (stored _)

/-- **Every good signed record is processed in a solvent ledger** without a fault or a sum that
wraps around, and leaves the ledger solvent. -/
theorem Record.exists_plan (solvent : s.Solvent minted issued)
    (bounded : minted + r.minted ≤ Amount.largest) (left : issued + r.issues < 2 ^ 64)
    (good : r.verdict params s = .ok .ok) (signed : r.signature? = some signature) :
    ∃ plan, r.processing params s signature = .ok plan ∧ r.ReckonsExactly ∧
      KeepSolvent (minted + r.minted) (issued + r.issues) plan.changes s := by
  cases r with
  | genesis g =>
    have stored : (Record.genesis g).isSigned = true := by
      rw [isSigned, signed]
      rfl
    exact ⟨_, rfl, trivial, g.keepSolvent solvent good stored signature⟩
  | standard envelope action =>
    rw [Record.minted, add_zero] at bounded ⊢
    obtain ⟨plan, planned, exact, keeps⟩ := action.exists_plan solvent bounded left good signed
    exact ⟨_, processing_standard_eq_ok_iff.mpr ⟨plan, planned, rfl⟩, exact, keeps⟩

end Steps

end ChainLedger

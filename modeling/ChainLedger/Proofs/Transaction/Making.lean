import ChainLedger.Proofs.Ledger.Registry
import ChainLedger.Proofs.Transaction.Conditions
import ChainLedger.Proofs.Transaction.References

/-!
# What processing makes

Processing makes changes of ten forms, and none of them takes a row away. None of them
but the saving of an asset, which only an issue makes, touches the rows of assets or of
their names.
-/

namespace ChainLedger

open Change

variable {params : ChainParams} {s : Session} {r : Record} {signature : Signature}

/-! ## What processing makes -/

/-- The changes that processing a record may make. None of them takes a row away. -/
inductive Record.Makes (params : ChainParams) : Record → Change → Prop
  | adjust {r account asset delta} : Makes params r (.adjust account asset delta)
  | allocate {g} : Makes params (.genesis g) (.setBalance g.recipient nativeAsset g.amount)
  | bring {envelope i id} :
    Makes params (.standard envelope (.issueAsset i))
      (.setBalance i.owner id (Amount.ofCoins i.quantity))
  | setReference {r account reference} : Makes params r (.setReference account reference)
  | introduce {r account reference} : Makes params r (.introduce account reference)
  | saveTransaction {r after} (same : after.signature? = r.signature?) :
    Makes params r (.saveTransaction after)
  | savePoll {envelope} {c : PollCreation} :
    Makes params (.standard envelope (.createPoll c)) (.savePoll (c.toPoll envelope.timestamp))
  | saveVote {envelope} {b : Ballot} :
    Makes params (.standard envelope (.voteOnPoll b)) (.saveVote b.toVote)
  | saveAsset {envelope i asset} :
    Makes params (.standard envelope (.issueAsset i)) (.saveAsset asset)
  | saveAt {envelope d deployed}
    (placed : (Record.standard envelope (.deployAt d)).deployed? params = some deployed.address) :
    Makes params (.standard envelope (.deployAt d)) (.saveAt deployed)

theorem Record.makes_chargeFee {creator : Address} {fee : Amount} :
    ∀ change ∈ chargeFee creator fee signature, r.Makes params change := by
  rw [chargeFee, List.forall_mem_cons, List.forall_mem_singleton]
  exact ⟨.adjust, .setReference⟩

theorem Record.makes_moveAll {creator : Address} {legs : List Leg} :
    ∀ change ∈ moveAll creator signature legs, r.Makes params change := by
  intro change member
  rcases List.mem_flatMap.mp member with ⟨leg, -, moved⟩
  rcases List.mem_append.mp moved with adjusted | introduced
  · simp only [List.mem_cons, List.not_mem_nil, or_false] at adjusted
    rcases adjusted with rfl | rfl <;> exact .adjust
  · split at introduced
    next =>
      rw [List.mem_singleton.mp introduced]
      exact .introduce
    next => cases introduced

theorem Action.makes_processing {envelope : Envelope} {action : Action} {plan : Plan}
    (planned : action.processing params s signature envelope = .ok plan) :
    ∀ change ∈ plan.changes, (Record.standard envelope action).Makes params change := by
  cases action with
  | payment | transferAsset | multiPayment =>
    cases planned
    exact List.forall_mem_append.mpr ⟨Record.makes_chargeFee, Record.makes_moveAll⟩
  | settleAt =>
    cases planned
    exact List.forall_mem_cons.mpr ⟨.setReference, Record.makes_moveAll⟩
  | createPoll c =>
    cases planned
    exact List.forall_mem_cons.mpr ⟨.savePoll, Record.makes_chargeFee⟩
  | voteOnPoll b =>
    rcases processing_voteOnPoll_eq_ok_iff.mp planned with ⟨vote, -, rfl⟩
    exact List.forall_mem_cons.mpr ⟨.saveVote, Record.makes_chargeFee⟩
  | issueAsset i =>
    rcases processing_issueAsset_eq_ok_iff.mp planned with ⟨id, -, rfl⟩
    refine List.forall_mem_append.mpr ⟨?_, Record.makes_chargeFee⟩
    rw [List.forall_mem_cons, List.forall_mem_singleton]
    exact ⟨.saveAsset, .bring⟩
  | deployAt d =>
    rcases processing_deployAt_eq_ok_iff.mp planned with ⟨version, seed, -, seeded, rfl⟩
    have placed : (Record.standard envelope (.deployAt d)).deployed? params =
        some (Address.ofSeed seed) := by
      rw [Record.deployed?, seeded]
      rfl
    simp only [List.forall_mem_cons, List.not_mem_nil, false_implies, implies_true, and_true]
    exact ⟨.saveAt placed, .adjust, .adjust, .setReference, .setReference⟩

/-- **What processing makes** of the ledger, kind by kind. -/
theorem Record.makes_processing {plan : Plan}
    (planned : r.processing params s signature = .ok plan) :
    ∀ change ∈ plan.changes, r.Makes params change := by
  cases r with
  | genesis g =>
    cases planned
    simp only [Plan.same, List.cons_append, List.nil_append, List.forall_mem_cons,
      List.not_mem_nil, false_implies, implies_true, and_true]
    exact ⟨.allocate, .setReference, .saveTransaction rfl⟩
  | standard envelope action =>
    rcases processing_standard_eq_ok_iff.mp planned with ⟨actionPlan, actionPlanned, rfl⟩
    have same := signature?_after planned
    exact List.forall_mem_append.mpr ⟨Action.makes_processing actionPlanned,
      List.forall_mem_singleton.mpr (.saveTransaction same)⟩

/-! ## When it succeeds -/

theorem Record.Makes.isSteady {change : Change} (makes : r.Makes params change) :
    change.IsSteady := by
  cases makes <;> trivial

section Legible

variable (balance : ∀ account asset, s.Legible (.balance account asset))
  (reference : ∀ account, s.Legible (.reference account))
include balance reference

/-- Where balances and references can be read each change of processing can be made. -/
theorem Record.Makes.makeable {change : Change} (makes : r.Makes params change)
    (signed : r.isSigned = true) : change.Makeable s := by
  cases makes with
  | adjust => exact balance _ _
  | introduce => exact reference _
  | saveTransaction same =>
    rw [Makeable, Record.isSigned, same]
    exact signed
  | _ => trivial

/-- **Where balances and references can be read, what is planned is carried out.** -/
theorem Record.makeAll_planned {plan : Plan} (signed : r.signature? = some signature)
    (planned : r.processing params s signature = .ok plan) :
    (makeAll plan.changes s).outcome = .ok () := by
  have makes := Record.makes_processing planned
  have stored : r.isSigned = true := Option.isSome_iff_exists.mpr ⟨signature, signed⟩
  exact makeAll_eq_ok (fun change member => (makes change member).isSteady) fun change member =>
    (makes change member).makeable balance reference stored

end Legible

/-- **A good action can be planned** in a sound ledger. -/
theorem Action.exists_processing {envelope : Envelope} {action : Action}
    (good : (Record.standard envelope action).verdict params s = .ok .ok) (sound : s.Sound)
    (signature : Signature) :
    ∃ plan, action.processing params s signature envelope = .ok plan := by
  have rules := Record.rules_of_verdict good
  cases action with
  | payment | transferAsset | multiPayment | settleAt | createPoll => exact ⟨_, rfl⟩
  | voteOnPoll b =>
    obtain ⟨vote, voted⟩ := (Ballot.isGood_of_rules rules).vote
    exact ⟨_, processing_voteOnPoll_eq_ok_iff.mpr ⟨vote, voted, rfl⟩⟩
  | issueAsset i =>
    obtain ⟨id, numbered⟩ := sound.numbering
    exact ⟨_, processing_issueAsset_eq_ok_iff.mpr ⟨id, numbered, rfl⟩⟩
  | deployAt d =>
    have deploys := AtDeployment.isGood_of_rules rules
    obtain ⟨version, versioned⟩ := Option.isSome_iff_exists.mp deploys.version
    obtain ⟨seed, seeded⟩ := deploys.exists_signingBytes params
    exact ⟨_, processing_deployAt_eq_ok_iff.mpr ⟨version, seed, versioned, seeded, rfl⟩⟩

/-- **A good record that is signed is processed** in a sound ledger. -/
theorem Transaction.process_of_good (good : r.verdict params s = .ok .ok)
    (signed : r.signature? = some signature) (sound : s.Sound) :
    ((Transaction.mk r .valid).process params s).outcome = .ok () := by
  obtain ⟨plan, planned⟩ : ∃ plan, r.processing params s signature = .ok plan := by
    cases r with
    | genesis => exact ⟨_, rfl⟩
    | standard envelope action =>
      obtain ⟨plan, planned⟩ := Action.exists_processing good sound signature
      exact ⟨_, Record.processing_standard_eq_ok_iff.mpr ⟨plan, planned, rfl⟩⟩
  rw [process_valid signed planned, carryOut_eq_ok_iff]
  exact Record.makeAll_planned sound.balance sound.reference signed planned

theorem Submission.IsAccepted.processed_of_sound {x : Submission} (accepted : x.IsAccepted s)
    (sound : s.Sound) : (x.processed s).outcome = .ok () := by
  obtain ⟨good, signature, signed⟩ := isAccepted_iff.mp accepted
  exact accepted.processed_eq ▸ Transaction.process_of_good good signed sound

/-! ## What it leaves alone -/

/-- Only an issue touches the rows of assets. -/
theorem Record.Makes.not_mem_families {change : Change} (makes : r.Makes params change)
    (other : r.kind ≠ .issueAsset) : ∀ name ∈ Cell.registry, name ∉ change.families := by
  cases makes with
  | saveAsset => exact absurd rfl other
  | _ => simp [Cell.registry, families]

/-- **Processing any other record leaves the assets alone.** -/
theorem Record.sameAssets_processing {plan : Plan} (other : r.kind ≠ .issueAsset)
    (planned : r.processing params s signature = .ok plan) :
    s.SameAssets (makeAll plan.changes s).session :=
  sameAssets_makeAll
    (fun change member => (makes_processing planned change member).not_mem_families other) s

end ChainLedger

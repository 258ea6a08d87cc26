import ChainLedger.Proofs.Address
import ChainLedger.Proofs.Run
import ChainLedger.Proofs.Transaction.Processing

/-!
# What processing does to references

Every kind writes references in its own part of the ledger's changes: as the account that
signs, as a recipient of first coins, or as an AT that is deployed. Told for one account
all kinds come to the same: the signature of the record becomes the reference of its
creator and of the AT that it deploys, and the first one of an account that it brings
coins to; any other account keeps what it has.
-/

namespace ChainLedger

open Change

variable {params : ChainParams} {s : Session} {envelope : Envelope} {action : Action}
  {signature : Signature} {account : Address}

/-- The AT that a record deploys. -/
def Record.deployed? (params : ChainParams) : Record → Option Address
  | .standard envelope (.deployAt d) =>
    ((Record.standard envelope (.deployAt d)).signingBytes params).toOption.map Address.ofSeed
  | _ => none

/-- The account that a record deploys is one of an AT. -/
theorem Record.isAt_of_deployed {r : Record} (deployed : r.deployed? params = some account) :
    Address.isAt account = true := by
  cases r with
  | genesis => cases deployed
  | standard envelope action =>
    cases action with
    | deployAt d =>
      obtain ⟨seed, -, rfl⟩ := Option.map_eq_some_iff.mp deployed
      exact Address.isAt_ofSeed seed
    | _ => cases deployed

/-- What a key signs is of the account of that key. -/
theorem Action.creator_of_key {key : PublicKey} (keyed : action.creatorKey? = some key) :
    action.creator = Address.ofPublicKey key.bytes := by
  cases action with
  | settleAt => cases keyed
  | _ =>
    cases keyed
    rfl

theorem Record.creator?_of_key {r : Record} {key : PublicKey} (keyed : r.creatorKey? = some key) :
    r.creator? = some (Address.ofPublicKey key.bytes) := by
  cases r with
  | genesis => cases keyed
  | standard envelope action => exact congrArg some (Action.creator_of_key keyed)

/-- The record brings an account coins, in one of its legs. -/
def Record.BringsCoins (account : Address) : Record → Prop
  | .genesis _ => False
  | .standard _ action => ∃ leg ∈ action.legs, leg.BringsCoins account

instance (account : Address) : (r : Record) → Decidable (r.BringsCoins account)
  | .genesis _ => inferInstanceAs (Decidable False)
  | .standard _ action =>
    inferInstanceAs (Decidable (∃ leg ∈ action.legs, leg.BringsCoins account))

/-- What becomes of an account's reference when a record is processed. -/
def Record.onReference (params : ChainParams) (signature : Signature) (account : Address)
    (r : Record) (last : Except DataError (Option Signature)) :
    Except DataError (Option Signature) :=
  if r.creator? = some account ∨ r.deployed? params = some account then .ok (some signature)
  else if r.BringsCoins account then Change.onReference account (.introduce account signature) last
  else last

/-- A first reference does not replace one that is there. -/
theorem onReference_introduce_some (held : Signature) :
    onReference account (.introduce account signature) (.ok (some held)) = .ok (some held) := by
  simp [onReference, Except.map]

theorem onReference_introduce_none :
    onReference account (.introduce account signature) (.ok none) = .ok (some signature) := by
  simp [onReference, Except.map]

/-- An account keeps the reference that it has or is given the signature. -/
theorem Record.onReference_eq_or (r : Record) (last : Except DataError (Option Signature)) :
    r.onReference params signature account last = last ∨
      r.onReference params signature account last = .ok (some signature) := by
  unfold Record.onReference
  split
  · exact .inr rfl
  · split
    · rcases last with error | _ | held
      · exact .inl (by simp [Change.onReference, Except.map])
      · exact .inr onReference_introduce_none
      · exact .inl (onReference_introduce_some held)
    · exact .inl rfl

/-- An account keeps the reference that it has, unless the record is of that account or deploys
it. -/
theorem Record.onReference_some {r : Record} {held : Signature}
    (other : r.creator? ≠ some account) (undeployed : r.deployed? params ≠ some account) :
    r.onReference params signature account (.ok (some held)) = .ok (some held) := by
  rw [onReference, if_neg (not_or.mpr ⟨other, undeployed⟩)]
  split
  next => exact onReference_introduce_some held
  next => rfl

/-- Moving legs introduces the accounts that they bring coins to. -/
theorem onReferenceAll_moveAll {sender : Address} (legs : List Leg)
    (last : Except DataError (Option Signature)) :
    onReferenceAll account (moveAll sender signature legs) last =
      if ∃ leg ∈ legs, leg.BringsCoins account then
        onReference account (.introduce account signature) last
      else last :=
  onReferenceAll_flatMap introduce_introduce (fun _ last => onReferenceAll_move last) legs last

/-- Once the creator has the signature as reference, legs make no difference to it. -/
theorem onReferenceAll_moveAll_creator {creator : Address} (legs : List Leg)
    (last : Except DataError (Option Signature)) :
    onReferenceAll account (moveAll creator signature legs)
        (if account = creator then .ok (some signature) else last) =
      if account = creator then .ok (some signature)
      else if ∃ leg ∈ legs, leg.BringsCoins account then
        onReference account (.introduce account signature) last
      else last := by
  rw [onReferenceAll_moveAll]
  by_cases itself : account = creator
  · rw [if_pos itself, if_pos itself, onReference_introduce_some, ite_self]
  · rw [if_neg itself, if_neg itself]

/-- A deployment gives its signature to the creator and to the AT. -/
theorem onReferenceAll_deployment {creator : Address} {deployed : DeployedAt} {paid given : Amount}
    (last : Except DataError (Option Signature)) :
    onReferenceAll account [.saveAt deployed, .adjust creator nativeAsset paid,
        .adjust deployed.address nativeAsset given, .setReference creator signature,
        .setReference deployed.address signature] last =
      if account = deployed.address then .ok (some signature)
      else if account = creator then .ok (some signature)
      else last :=
  rfl

/-- **What planned changes do to references** is the same for all kinds. -/
theorem Action.onReferenceAll_processing {plan : Plan}
    (planned : action.processing params s signature envelope = .ok plan) (account : Address)
    (last : Except DataError (Option Signature)) :
    onReferenceAll account plan.changes last =
      (Record.standard envelope action).onReference params signature account last := by
  have itself : (Record.standard envelope action).creator? = some account ↔
      account = action.creator := by
    simp [Record.creator?, eq_comm]
  have coins : (Record.standard envelope action).BringsCoins account ↔
      ∃ leg ∈ action.legs, leg.BringsCoins account := Iff.rfl
  simp only [Record.onReference, itself, coins]
  clear itself coins
  cases action with
  | payment | transferAsset | multiPayment =>
    cases planned
    refine (onReferenceAll_append ..).trans ?_
    rw [onReferenceAll_chargeFee, onReferenceAll_moveAll_creator]
    simp [Record.deployed?]
  | settleAt settlement =>
    cases planned
    refine (onReferenceAll_moveAll_creator ..).trans ?_
    simp [Record.deployed?]
  | createPoll =>
    cases planned
    refine (onReferenceAll_chargeFee last).trans ?_
    simp [Record.deployed?, legs]
  | voteOnPoll b =>
    rcases processing_voteOnPoll_eq_ok_iff.mp planned with ⟨vote, -, rfl⟩
    refine (onReferenceAll_chargeFee last).trans ?_
    simp [Record.deployed?, legs]
  | issueAsset i =>
    rcases processing_issueAsset_eq_ok_iff.mp planned with ⟨id, -, rfl⟩
    refine (onReferenceAll_chargeFee last).trans ?_
    simp [Record.deployed?, legs]
  | deployAt d =>
    rcases processing_deployAt_eq_ok_iff.mp planned with ⟨version, seed, -, seeded, rfl⟩
    have deployed : (Record.standard envelope (.deployAt d)).deployed? params =
        some (Address.ofSeed seed) := by
      rw [Record.deployed?, seeded]
      rfl
    refine (onReferenceAll_deployment _).trans ?_
    rw [deployed]
    -- The addresses are kept closed: comparing them would be reckoned out.
    generalize Address.ofSeed seed = address
    generalize (Action.deployAt d).creator = creator
    have placed : (DeployedAt.fresh address creator envelope.timestamp version
        d.creationBytes).address = address := rfl
    rw [placed]
    by_cases there : account = address
    · simp [there]
    · simp [legs, there, Ne.symm there]

/-- **What is planned for a record does this to references** once it is carried out. -/
theorem Record.lastReference_makeAll {plan : Plan}
    (planned : (Record.standard envelope action).processing params s signature = .ok plan)
    (made : (makeAll plan.changes s).outcome = .ok ()) (account : Address) :
    (makeAll plan.changes s).session.lastReference account =
      (Record.standard envelope action).onReference params signature account
        (s.lastReference account) := by
  rcases processing_standard_eq_ok_iff.mp planned with ⟨actionPlan, actionPlanned, rfl⟩
  rw [← Action.onReferenceAll_processing actionPlanned]
  refine (Change.lastReference_makeAll made account).trans ?_
  exact onReferenceAll_append ..

/-- **What processing does to references.** -/
theorem Submission.lastReference_processed {x : Submission}
    (standard : x.record = .standard envelope action) (accepted : x.IsAccepted s)
    (signed : x.record.signature? = some signature) (done : (x.processed s).outcome = .ok ())
    (account : Address) :
    (x.processed s).session.lastReference account =
      x.record.onReference x.params signature account (s.lastReference account) := by
  rw [accepted.processed_eq] at done ⊢
  obtain ⟨plan, planned, made, same⟩ := Transaction.process_valid_eq_ok signed done
  rw [same]
  rw [standard] at planned ⊢
  exact Record.lastReference_makeAll planned made account

end ChainLedger

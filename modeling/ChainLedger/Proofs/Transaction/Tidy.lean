import ChainLedger.Proofs.Transaction.Additions
import ChainLedger.Proofs.Transaction.Storable
import ChainLedger.Proofs.Transaction.Unmaking

/-!
# Ledgers in which nothing fails

A change fails only where it meets a row that it cannot read. All rows are read back as they
were written if what is saved fits its row, as everything in a good record does, and no change
saves a state of an AT. So in a ledger in which every row can be read good records are
processed, processed ones are orphaned, and every row can still be read.
-/

namespace ChainLedger

open Change

variable {params : ChainParams} {s t : Session} {r : Record} {x : Transaction} {change : Change}
  {changes : List Change} {signature : Signature} {plan : Plan}

/-- Every row that the rules, a change or the numbering of the assets have to read can be read. -/
structure Session.Tidy (s : Session) : Prop extends s.Consultable where
  /-- The rows of assets stand under their numbers. -/
  numbered : ∀ key, Cell.assets <+: key → (s.get? key).isSome →
    ∃ id : AssetId, key = (Cell.asset id).key
  /-- No AT has a state. -/
  stateless : ∀ key, Cell.keyOf "at-state/" [] <+: key → s.get? key = none

/-- What the change saves is read back. -/
def Change.Orderly : Change → Prop
  | .savePoll poll => poll.Storable
  | .saveVote vote => vote.Storable
  | .saveAsset asset => asset.Storable
  | .saveTransaction r | .deleteTransaction r => r.isSigned = true
  | _ => True

namespace Session

/-- Clearing a cell takes its row away and no other. -/
theorem get?_clear_eq_or (s : Session) (c : Cell) (key : Bytes) :
    (s.clear c).get? key = none ∨ (s.clear c).get? key = s.get? key := by
  rw [get?_clear]
  split
  next => exact .inl rfl
  next => exact .inr rfl

namespace Tidy

theorem empty : OrderedMap.empty.session.Tidy where
  toConsultable := consultable_empty
  numbered _ _ held := by cases held
  stateless _ _ := rfl

theorem congr (tidy : s.Tidy) (same : s.Agree t) : t.Tidy where
  balance account asset := (tidy.balance account asset).congr (same _).symm
  reference account := (tidy.reference account).congr (same _).symm
  asset id := (tidy.asset id).congr (same _).symm
  poll name := (tidy.poll name).congr (same _).symm
  vote poll voter := (tidy.vote poll voter).congr (same _).symm
  numbered key leads held := tidy.numbered key leads (same key ▸ held)
  stateless key leads := (same key).symm.trans (tidy.stateless key leads)

theorem sound (tidy : s.Tidy) : s.Sound where
  balance := tidy.balance
  reference := tidy.reference
  numbering := exists_nextAssetId_of_rows tidy.numbered

/-! ## Changes -/

/-- An AT is removed by taking its row away. -/
theorem make_deleteAt (tidy : s.Tidy) (address : Address) :
    (Change.deleteAt address).make s = .done (s.clear (.deployedAt address)) := by
  rw [Change.make, Session.deleteAt, scan_statesOf_eq_nil address tidy.stateless]
  rfl

/-- Every orderly change can be made. -/
theorem makeable (tidy : s.Tidy) (orderly : change.Orderly) : change.Makeable s := by
  cases change with
  | adjust account asset => exact tidy.balance account asset
  | introduce account | retract account => exact tidy.reference account
  | deleteAsset id => exact tidy.asset id
  | deleteAt address =>
    rw [Makeable, scan_statesOf_eq_nil address tidy.stateless]
    exact List.forall_mem_nil _
  | saveTransaction | deleteTransaction => exact orderly
  | _ => trivial

/-- A change that is no addition takes rows away and leaves the others. -/
theorem get?_make_eq_or (tidy : s.Tidy) (orderly : change.Orderly)
    (removes : ¬change.IsAddition) (key : Bytes) :
    (change.make s).session.get? key = none ∨
      (change.make s).session.get? key = s.get? key := by
  cases change with
  | deletePoll name =>
    rw [Change.make, Written.done, get?_deletePoll]
    split
    next => exact .inl rfl
    next => exact .inr rfl
  | deleteVote poll voter => exact s.get?_clear_eq_or (.vote poll voter) key
  | deleteAsset id =>
    obtain ⟨held, known⟩ := tidy.asset id
    simp only [Change.make, Session.deleteAsset, Session.asset?, known, Except.map,
      Written.ofExcept, Written.done]
    cases held with
    | none => exact s.get?_clear_eq_or (.asset id) key
    | some asset =>
      rcases (s.clear (.assetName asset.name)).get?_clear_eq_or (.asset id) key with none | same
      · exact .inl none
      · rw [same]
        exact s.get?_clear_eq_or (.assetName asset.name) key
  | deleteAt address =>
    rw [tidy.make_deleteAt]
    exact s.get?_clear_eq_or (.deployedAt address) key
  | savePoll | saveVote | saveAsset => exact absurd orderly removes
  | _ => exact absurd trivial removes

/-- What could be read can be read after a change that takes rows away. -/
theorem legible_make (tidy : s.Tidy) (orderly : change.Orderly) (removes : ¬change.IsAddition)
    {c : Cell} (legible : s.Legible c) : (change.make s).session.Legible c := by
  rcases tidy.get?_make_eq_or orderly removes c.key with gone | same
  · refine ⟨none, ?_⟩
    rw [read, gone]
  · exact legible.congr same

/-- **An orderly change is made**, and leaves a ledger in which every row can be read. -/
theorem make (tidy : s.Tidy) (orderly : change.Orderly) :
    (change.make s).outcome = .ok () ∧ (change.make s).session.Tidy := by
  have made := make_eq_ok_iff.mpr (tidy.makeable orderly)
  refine ⟨made, ?_, fun key leads held => ?_, fun key leads => ?_⟩
  · by_cases adds : change.IsAddition
    · exact consultable_make tidy.toConsultable adds made
    · exact ⟨fun account asset => tidy.legible_make orderly adds (tidy.balance account asset),
        fun account => tidy.legible_make orderly adds (tidy.reference account),
        fun id => tidy.legible_make orderly adds (tidy.asset id),
        fun name => tidy.legible_make orderly adds (tidy.poll name),
        fun poll voter => tidy.legible_make orderly adds (tidy.vote poll voter)⟩
  · by_cases written : change.Writes key
    · -- Only rows of assets and of their names can be written here, and it is no name's.
      have unnamed : ∀ name, key ≠ (Cell.assetName name).key := by
        rintro name rfl
        simpa [Cell.family] using Cell.family_eq_of_assets leads
      cases change with
      | saveAsset asset => exact ⟨asset.id, written.resolve_right (unnamed asset.name)⟩
      | deleteAsset id =>
        refine ⟨id, written.resolve_right ?_⟩
        rintro ⟨name, named⟩
        exact unnamed name named
      | _ =>
        exact absurd written
          (not_writes_of_front (by simp [Cell.families]) leads (by simp [families]))
    · rw [get?_make written] at held
      exact tidy.numbered key leads held
  · by_cases written : change.Writes key
    · cases change with
      | deleteAt address =>
        rw [tidy.make_deleteAt, Written.done, get?_clear, tidy.stateless key leads, ite_self]
      | _ =>
        exact absurd written
          (not_writes_of_front (by simp [Cell.families]) leads (by simp [families]))
    · rw [get?_make written]
      exact tidy.stateless key leads

/-- **Orderly changes are all made.** -/
theorem makeAll (tidy : s.Tidy) (orderly : ∀ change ∈ changes, change.Orderly) :
    (makeAll changes s).outcome = .ok () ∧ (Change.makeAll changes s).session.Tidy := by
  induction changes generalizing s with
  | nil => exact ⟨rfl, tidy⟩
  | cons change rest ih =>
    rw [List.forall_mem_cons] at orderly
    obtain ⟨made, left⟩ := tidy.make orderly.1
    rw [makeAll_cons_of_ok made]
    exact ih left orderly.2

end Tidy

end Session

/-! ## Plans -/

/-- What the processing of a good record saves is read back. -/
theorem Record.orderly_processing (good : r.verdict params s = .ok .ok)
    (signed : r.signature? = some signature)
    (planned : r.processing params s signature = .ok plan) :
    ∀ change ∈ plan.changes, change.Orderly := by
  intro change member
  have makes := makes_processing planned change member
  cases makes with
  | saveTransaction same =>
    rw [Change.Orderly, isSigned, same, signed]
    rfl
  | savePoll => exact (PollCreation.isGood_of_rules (rules_of_verdict good)).storable _
  | saveVote => exact (Ballot.isGood_of_rules (rules_of_verdict good)).storable
  | saveAsset =>
    obtain ⟨_, actionPlanned, rfl⟩ := processing_standard_eq_ok_iff.mp planned
    obtain ⟨id, -, rfl⟩ := Action.processing_issueAsset_eq_ok_iff.mp actionPlanned
    simp [Plan.same, chargeFee] at member
    subst member
    exact (AssetIssue.isGood_of_rules (rules_of_verdict good)).storable id signature
  | _ => trivial

/-- What undoing a record saves is read back, if the vote that its ballot took the place of is. -/
theorem Record.orderly_undoing (planned : r.undoing signature = .ok plan)
    (replaced : ∀ vote ∈ r.replacedVote?, vote.Storable) :
    ∀ change ∈ plan.changes, change.Orderly := by
  intro change member
  have unmakes := unmakes_undoing planned change member
  cases unmakes with
  | saveVote earlier => exact replaced _ earlier
  | _ => trivial

end ChainLedger

import ChainLedger.Proofs.Run.Reached
import ChainLedger.Proofs.Transaction.Conservation

/-!
# The registry along a run

Assets come and go: an issue stores one under the next number, and the issue may be orphaned
at any time later, which sets the name free, and the number too if no higher one is in use.
Through all of this the registry lists the assets of the issues that still stand, each with
what its issue says, and the next number is none of theirs.
-/

namespace ChainLedger

open Change

variable {params : ChainParams} {s t : Session} {r : Record} {x : Transaction}
  {standing front back : List Transaction} {issued : Nat} {changes : List Change}

/-! ## Issues -/

/-- The asset that a processed issue made: what the issue says of it, with the number that it was
given and the signature of the issue. -/
def Record.issuedAsset? : Record → Option Asset
  | .standard envelope (.issueAsset i) =>
    match i.assetId, envelope.signature with
    | some id, some signature => some (i.toAsset id signature)
    | _, _ => none
  | .genesis _ | .standard .. => none

theorem Record.issuedAsset?_eq_some_iff {asset : Asset} :
    r.issuedAsset? = some asset ↔ ∃ envelope i id signature,
      r = .standard envelope (.issueAsset i) ∧ i.assetId = some id ∧
        envelope.signature = some signature ∧ i.toAsset id signature = asset := by
  constructor
  · intro issued
    cases r with
    | genesis => cases issued
    | standard envelope action =>
      cases action with
      | issueAsset i =>
        simp only [issuedAsset?] at issued
        split at issued
        next id signature number signed =>
          exact ⟨envelope, i, id, signature, rfl, number, signed, Option.some.inj issued⟩
        next => cases issued
      | _ => cases issued
  · rintro ⟨envelope, i, id, signature, rfl, number, signed, rfl⟩
    simp only [issuedAsset?, number, signed]

/-- The assets that processed transactions issued. -/
def issuedAssets (standing : List Transaction) : List Asset :=
  standing.filterMap fun x => x.record.issuedAsset?

theorem issuedAssets_cons {asset : Asset} (issued : x.record.issuedAsset? = some asset)
    (standing : List Transaction) :
    issuedAssets (x :: standing) = asset :: issuedAssets standing :=
  List.filterMap_cons_some issued

theorem issuedAssets_append (front back : List Transaction) :
    issuedAssets (front ++ back) = issuedAssets front ++ issuedAssets back :=
  List.filterMap_append

theorem Record.exists_issue (issues : r.kind = .issueAsset) :
    ∃ envelope i, r = .standard envelope (.issueAsset i) := by
  cases r with
  | genesis => cases issues
  | standard envelope action =>
    cases action with
    | issueAsset i => exact ⟨envelope, i, rfl⟩
    | _ => cases issues

theorem Record.issues_eq_zero (other : r.kind ≠ .issueAsset) : r.issues = 0 := by
  cases r with
  | genesis => rfl
  | standard envelope action =>
    cases action with
    | issueAsset => exact absurd rfl other
    | _ => rfl

/-- Past the saving of its asset, an issue leaves the assets alone. -/
theorem sameAssets_issuing (asset : Asset) (balance : Amount) (creator : Address) (fee : Amount)
    (signature : Signature) (r : Record) (s : Session) :
    (s.saveAsset asset).SameAssets (makeAll
      (issuing asset balance creator fee signature ++ [.saveTransaction r]) s).session := by
  have saved : ((Change.saveAsset asset).make s).outcome = .ok () := rfl
  rw [issuing, List.cons_append, List.cons_append, makeAll_cons_of_ok saved]
  exact sameAssets_makeAll (by simp [chargeFee, families, Cell.registry]) _

/-- Taking an issue back takes the rows of its asset away, and leaves all other assets alone. -/
theorem makeAll_withdrawing {asset : Asset} (creator : Address) (fee : Amount)
    (reference : Signature) (balance : ∀ account asset, s.Legible (.balance account asset))
    (stored : r.isSigned = true) (held : s.asset? asset.id = .ok (some asset)) :
    let changes := .deleteTransaction r :: withdrawing asset creator fee reference
    (makeAll changes s).outcome = .ok () ∧
      ((s.clear (.assetName asset.name)).clear (.asset asset.id)).SameAssets
        (makeAll changes s).session := by
  intro changes
  have removed : ((Change.deleteTransaction r).make s).outcome = .ok () :=
    make_eq_ok_iff.mpr stored
  have kept : s.SameAssets ((Change.deleteTransaction r).make s).session :=
    sameAssets_make (by simp [families, Cell.registry]) s
  have legible : ((Change.deleteTransaction r).make s).session.Legible
      (.balance creator nativeAsset) :=
    legible_balance_make removed (balance creator nativeAsset)
  rw [← kept.asset?] at held
  rw [makeAll_cons_of_ok removed]
  generalize ((Change.deleteTransaction r).make s).session = t at kept legible held
  refine ⟨makeAll_withdrawing_eq_ok held legible, ?_⟩
  have deleted := make_deleteAsset held
  have first : ((Change.deleteAsset asset.id).make t).outcome = .ok () := by
    rw [deleted]
    rfl
  rw [withdrawing, List.cons_append, makeAll_cons_of_ok first, deleted]
  refine ((kept.clear _).clear _).trans (sameAssets_makeAll ?_ _)
  simp [refundFee, families, Cell.registry]

/-- **A processed issue can be orphaned** where its asset is found, and takes it with it. -/
theorem Transaction.orphan_issue {asset : Asset} (processed : x.stage = .processed)
    (made : x.record.issuedAsset? = some asset)
    (balance : ∀ account asset, s.Legible (.balance account asset))
    (held : s.asset? asset.id = .ok (some asset)) :
    ∃ changes, (makeAll changes s).outcome = .ok () ∧
      ((s.clear (.assetName asset.name)).clear (.asset asset.id)).SameAssets
        (makeAll changes s).session ∧
      (x.orphan s).outcome = .ok () ∧ (x.orphan s).session = (makeAll changes s).session := by
  obtain ⟨r, stage⟩ := x
  subst processed
  obtain ⟨envelope, i, id, signature, rfl, number, signed, rfl⟩ :=
    Record.issuedAsset?_eq_some_iff.mp made
  have planned : (Record.standard envelope (.issueAsset i)).undoing signature =
      .ok (.same (.standard envelope (.issueAsset { i with assetId := none }))
        (withdrawing (i.toAsset id signature) (Action.issueAsset i).creator envelope.fee
          envelope.reference)) := by
    simp only [Record.undoing, Action.undoing, number]
    rfl
  have stored : (Record.standard envelope (.issueAsset i)).isSigned = true :=
    Option.isSome_iff_exists.mpr ⟨signature, signed⟩
  obtain ⟨undone, same⟩ := makeAll_withdrawing (Action.issueAsset i).creator envelope.fee
    envelope.reference balance stored held
  have orphaned := orphan_processed (r := .standard envelope (.issueAsset i)) signed planned undone
  exact ⟨_, undone, same, congrArg Step.outcome orphaned, congrArg Step.session orphaned⟩

/-! ## What the registry stands for -/

/-- The registry lists the assets of processed issues, with so many issues so far, and whatever
processing and orphaning have to read can be read. -/
structure Session.StandsFor (s : Session) (standing : List Transaction) (issued : Nat) : Prop where
  balance : ∀ account asset, s.Legible (.balance account asset)
  reference : ∀ account, s.Legible (.reference account)
  numbered : s.Numbered issued
  issues : ∀ x ∈ standing, x.stage = .processed ∧ ∃ asset, x.record.issuedAsset? = some asset
  registers : s.Registers (issuedAssets standing)

namespace Session.StandsFor

theorem empty : OrderedMap.empty.session.StandsFor [] 0 where
  balance _ _ := legible_empty _
  reference _ := legible_empty _
  numbered := .empty
  issues _ member := by cases member
  registers := .empty

theorem congr (stands : s.StandsFor standing issued) (same : s.Agree t) :
    t.StandsFor standing issued where
  balance account asset := (stands.balance account asset).congr (same _).symm
  reference account := (stands.reference account).congr (same _).symm
  numbered := same.sameAssets.numbered stands.numbered
  issues := stands.issues
  registers := stands.registers.congr same.sameAssets

theorem sound (stands : s.StandsFor standing issued) (left : issued + 1 < 2 ^ 64) : s.Sound where
  balance := stands.balance
  reference := stands.reference
  numbering := by
    obtain ⟨id, next, -, -⟩ := stands.numbered.exists_nextAssetId left
    exact ⟨id, next⟩

/-- What changes lead to stands for transactions as soon as its rows of assets do. -/
theorem makeAll {standing' : List Transaction} {issued' : Nat}
    (stands : s.StandsFor standing issued) (made : (Change.makeAll changes s).outcome = .ok ())
    (numbered : (Change.makeAll changes s).session.Numbered issued')
    (issues : ∀ x ∈ standing', x.stage = .processed ∧
      ∃ asset, x.record.issuedAsset? = some asset)
    (registers : (Change.makeAll changes s).session.Registers (issuedAssets standing')) :
    (Change.makeAll changes s).session.StandsFor standing' issued' where
  balance account asset := legible_balance_makeAll (stands.balance account asset) made
  reference account := legible_reference_makeAll (stands.reference account) made
  numbered := numbered
  issues := issues
  registers := registers

/-- **An issue** puts its asset on the list, under the next number. -/
theorem issue {envelope : Envelope} {i : AssetIssue} {signature : Signature} {plan : Plan}
    (stands : s.StandsFor standing issued) (left : issued + 1 < 2 ^ 64)
    (good : (Record.standard envelope (.issueAsset i)).verdict params s = .ok .ok)
    (signed : envelope.signature = some signature)
    (planned : (Record.standard envelope (.issueAsset i)).processing params s signature = .ok plan)
    (made : (Change.makeAll plan.changes s).outcome = .ok ()) :
    (Change.makeAll plan.changes s).session.StandsFor
      (⟨plan.after, .processed⟩ :: standing) (issued + 1) := by
  have issues := AssetIssue.isGood_of_rules (Record.rules_of_verdict good)
  obtain ⟨_, actionPlanned, rfl⟩ := Record.processing_standard_eq_ok_iff.mp planned
  obtain ⟨id, next, rfl⟩ := Action.processing_issueAsset_eq_ok_iff.mp actionPlanned
  obtain ⟨unused, bound⟩ := stands.numbered.range_nextAssetId left next
  have unissued := not_holds_nextAssetId next unused
  have asset : (Transaction.processed (.standard envelope
      (.issueAsset { i with assetId := some id }))).record.issuedAsset? =
        some (i.toAsset id signature) :=
    Record.issuedAsset?_eq_some_iff.mpr ⟨envelope, _, id, signature, rfl, rfl, signed, rfl⟩
  have same := sameAssets_issuing (i.toAsset id signature) (Amount.ofCoins i.quantity)
    (Action.issueAsset i).creator envelope.fee signature
    (.standard envelope (.issueAsset { i with assetId := some id })) s
  have listed := (stands.registers.saveAsset (issues.storable id signature) unused unissued
    issues.unnamed).congr same
  rw [← issuedAssets_cons asset] at listed
  exact stands.makeAll made (same.numbered (stands.numbered.saveAsset bound))
    (List.forall_mem_cons.mpr ⟨⟨rfl, _, asset⟩, stands.issues⟩) listed

/-- **Processing what was judged good** lists the asset of an issue, and leaves the list alone
otherwise. -/
theorem process {valid : Transaction} (stands : s.StandsFor standing issued)
    (left : issued + x.record.issues < 2 ^ 64 - 1)
    (judged : x.validate params s = (.ok .ok, valid))
    (done : (valid.process params s).outcome = .ok ()) :
    (valid.process params s).session.StandsFor
      (if x.record.kind = .issueAsset then (valid.process params s).transaction :: standing
        else standing) (issued + x.record.issues) := by
  obtain ⟨good, rfl⟩ := Transaction.good_of_validate judged
  obtain ⟨signature, plan, -, signed, planned, made, carried⟩ := Transaction.exists_of_process done
  rw [carried]
  by_cases issues : x.record.kind = .issueAsset
  · obtain ⟨envelope, i, form⟩ := Record.exists_issue issues
    rw [if_pos issues]
    simp only [form] at good signed planned left ⊢
    exact stands.issue (by rw [Record.issues] at left; omega) good signed planned made
  · rw [if_neg issues, Record.issues_eq_zero issues]
    have same := Record.sameAssets_processing issues planned
    exact stands.makeAll made (same.numbered stands.numbered) stands.issues
      (stands.registers.congr same)

/-- **Orphaning a standing issue** succeeds, and takes its asset off the list. -/
theorem orphan (stands : s.StandsFor (front ++ x :: back) issued) :
    (x.orphan s).outcome = .ok () ∧ (x.orphan s).session.StandsFor (front ++ back) issued := by
  obtain ⟨processed, asset, made⟩ := stands.issues x (List.mem_append_right _ List.mem_cons_self)
  have registers := stands.registers
  rw [issuedAssets_append, issuedAssets_cons made] at registers
  have held : s.asset? asset.id = .ok (some asset) :=
    registers.asset?_eq_some_iff.mpr ⟨by simp, rfl⟩
  have fewer : (front ++ back).Sublist (front ++ x :: back) :=
    (List.sublist_cons_self x back).append_left front
  obtain ⟨changes, undone, same, orphaned⟩ :=
    Transaction.orphan_issue processed made stands.balance held
  have listed := registers.clear.congr same
  rw [← issuedAssets_append] at listed
  rw [orphaned.1, orphaned.2]
  exact ⟨rfl, stands.makeAll undone (same.numbered ((stands.numbered.clear _).clear _))
    (fun other member => stands.issues other (fewer.subset member)) listed⟩

end Session.StandsFor

/-! ## Runs -/

/-- A run from the ledger without rows reaches the ledger after so many issues. Standing are the
transactions of those issues that were not orphaned, the last one first. What is processed was
judged good in the same ledger, and any of the standing issues may be orphaned next. -/
inductive IssueRun : Session → List Transaction → Nat → Prop
  | empty : IssueRun OrderedMap.empty.session [] 0
  | processed {s : Session} {standing : List Transaction} {issued : Nat} {params : ChainParams}
      {x valid : Transaction} (run : IssueRun s standing issued)
      (judged : x.validate params s = (.ok .ok, valid))
      (done : (valid.process params s).outcome = .ok ()) :
      IssueRun (valid.process params s).session
        (if x.record.kind = .issueAsset then (valid.process params s).transaction :: standing
          else standing) (issued + x.record.issues)
  | orphaned {s : Session} {front back : List Transaction} {x : Transaction} {issued : Nat}
      (run : IssueRun s (front ++ x :: back) issued) (done : (x.orphan s).outcome = .ok ()) :
      IssueRun (x.orphan s).session (front ++ back) issued
  | commit {s : Session} {standing : List Transaction} {issued : Nat}
      (run : IssueRun s standing issued) : IssueRun s.commit.session standing issued

namespace IssueRun

/-- A record that is handed in and processed goes on with a run. -/
theorem submitted {y : Submission} (run : IssueRun s standing issued) (accepted : y.IsAccepted s)
    (done : (y.processed s).outcome = .ok ()) :
    IssueRun (y.processed s).session
      (if y.record.kind = .issueAsset then (y.processed s).transaction :: standing else standing)
      (issued + y.record.issues) :=
  .processed (x := .received y.record) run (Prod.ext accepted.1 rfl) done

/-- **Along a run** the registry stands for the issues that were not orphaned. -/
theorem standsFor (run : IssueRun s standing issued) (few : issued < 2 ^ 64 - 1) :
    s.StandsFor standing issued := by
  induction run with
  | empty => exact .empty
  | processed run judged done ih => exact (ih (by omega)).process few judged done
  | orphaned run done ih => exact (ih few).orphan.2
  | commit run ih => exact (ih few).congr (.commit _)

/-- **The registry holds the assets of the standing issues.** In a run with fewer issues than there
are numbers every standing issue has an asset of its own, and the ledger answers every question
about assets from the list of these. The next number is none of theirs. Any signed transaction that
is judged good can be processed next, and any standing issue be orphaned. -/
theorem registers_standing (run : IssueRun s standing issued) (few : issued < 2 ^ 64 - 1) :
    (∀ x ∈ standing, ∃ asset, x.record.issuedAsset? = some asset) ∧
      s.Registers (issuedAssets standing) ∧
      (∃ next, s.nextAssetId = .ok next ∧ ∀ asset ∈ issuedAssets standing, asset.id ≠ next) ∧
      (∀ params (x valid : Transaction), x.validate params s = (.ok .ok, valid) →
        x.record.isSigned = true → (valid.process params s).outcome = .ok ()) ∧
      ∀ x ∈ standing, (x.orphan s).outcome = .ok () := by
  have stands := run.standsFor few
  have left : issued + 1 < 2 ^ 64 := by omega
  refine ⟨fun x member => (stands.issues x member).2, stands.registers, ?_, ?_, ?_⟩
  · obtain ⟨next, known, unused, -⟩ := stands.numbered.exists_nextAssetId left
    have unissued := Session.not_holds_nextAssetId known unused
    exact ⟨next, known, fun asset => stands.registers.ne_of_not_holds unissued⟩
  · intro params x valid judged signed
    obtain ⟨good, rfl⟩ := Transaction.good_of_validate judged
    obtain ⟨signature, signed⟩ := Option.isSome_iff_exists.mp signed
    exact Transaction.process_of_good good signed (stands.sound left)
  · intro x member
    obtain ⟨front, back, rfl⟩ := List.append_of_mem member
    exact stands.orphan.1

/-! ## An issue that is taken back -/

/-- The asset that the opening issue makes. -/
def gold : Asset :=
  ⟨1, "QjSSfvVj4hqM5PwYwjZn7UL4mZKzUCtoeR", "gold", "a metal", 21, true, .fill 170⟩

theorem openedLedger_run : IssueRun openedLedger [] 0 := by
  obtain ⟨signature, signed, accepted⟩ := openedLedger.accepted
  have sound := Session.StandsFor.empty.sound (by decide)
  rw [openedLedger, accepted.after_eq]
  exact empty.submitted accepted (accepted.processed_of_sound sound)

theorem issued_gold :
    let issue : Step := (Submission.mk .allReleased openingIssue).processed openedLedger
    IssueRun issue.session [issue.transaction] 1 ∧ issuedAssets [issue.transaction] = [gold] := by
  have stands := openedLedger_run.standsFor (by decide)
  have accepted := openingIssue_isAccepted
  have done := accepted.processed_of_sound (stands.sound (by decide))
  refine ⟨openedLedger_run.submitted accepted done, ?_⟩
  obtain ⟨signature, _, signed, planned, -, carried⟩ := accepted.exists_of_processed done
  obtain ⟨_, actionPlanned, rfl⟩ := Record.processing_standard_eq_ok_iff.mp planned
  obtain ⟨id, next, rfl⟩ := Action.processing_issueAsset_eq_ok_iff.mp actionPlanned
  obtain ⟨unused, bound⟩ := stands.numbered.range_nextAssetId (by decide) next
  have first : id = 1 := by
    have positive : id.toNat ≠ nativeAsset.toNat := fun same => unused (UInt64.toNat_inj.mp same)
    exact UInt64.toNat_inj.mp (le_antisymm bound (Nat.one_le_iff_ne_zero.mpr positive))
  rw [carried, first]
  exact issuedAssets_cons rfl []

theorem registers_standing_gold :
    let issue : Step := (Submission.mk .allReleased openingIssue).processed openedLedger
    let withdrawal : Step := issue.transaction.orphan issue.session
    IssueRun issue.session [issue.transaction] 1 ∧ 1 < 2 ^ 64 - 1 ∧
      issue.session.Registers [gold] ∧ issue.session.asset? 1 = .ok (some gold) ∧
      IssueRun withdrawal.session [] 1 ∧ withdrawal.session.Registers [] ∧
      withdrawal.session.assetNameExists "gold" = false := by
  obtain ⟨run, assets⟩ := issued_gold
  have few : 1 < 2 ^ 64 - 1 := by decide
  obtain ⟨-, listed, -, -, orphans⟩ := run.registers_standing few
  rw [assets] at listed
  have whole : IssueRun _ ([] ++ [_]) 1 := run
  have withdrawn := whole.orphaned (orphans _ List.mem_cons_self)
  obtain ⟨-, unlisted, -⟩ := withdrawn.registers_standing few
  exact ⟨run, few, listed, listed.found 1, withdrawn, unlisted, unlisted.named "gold"⟩

end IssueRun

end ChainLedger

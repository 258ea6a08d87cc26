import ChainLedger.Proofs.Transaction.Cost
import Mathlib.Data.Set.Insert
import Mathlib.Logic.Function.Basic

/-!
# Interleaved calls

Several transactions are judged and processed over one session, in any order. A transaction
that was found good stays valid while the ledger moves on, and processing does not look
again. What that comes to is told by when it was found good: if no record of its creator was
processed since, its creator still has the reference that the record declares, and processing
takes it out of use. A transaction that is processed later than that declares a reference that
another record has used. So two records that use one reference are both processed exactly
where some transaction is processed that late. Where none is, what was found of amounts is
upheld too, and no balance becomes negative, as long as no balance wraps around and the
numbers of assets do not run out.
-/

namespace ChainLedger

open Change

/-- Two records of one creator that declare the same reference. -/
def Record.ConflictsWith (r other : Record) : Prop :=
  r.creator? = other.creator? ∧ r.reference? = other.reference?

/-- Transactions over one session, which of them were processed in it, and which of them are fresh:
they were found good, and no record of their creator was processed since. -/
structure Pool (ι : Type) where
  session : Session
  transactions : ι → Transaction
  processed : Set ι
  fresh : Set ι

namespace Pool

/-- A call on one of the transactions. -/
inductive Call (ι : Type)
  | validate (params : ChainParams) (i : ι)
  | process (params : ChainParams) (i : ι)

variable {ι : Type} {s : Session} {params : ChainParams} {i j : ι} {p : Pool ι}
  {records : ι → Record} {stages : ι → Stage}

/-! ## Calls -/

/-- Transactions before the first call. -/
def start (s : Session) (records : ι → Record) (stages : ι → Stage) : Pool ι :=
  ⟨s, fun i => ⟨records i, stages i⟩, ∅, ∅⟩

/-- Processing one of the transactions. -/
def processing (p : Pool ι) (params : ChainParams) (i : ι) : Step :=
  (p.transactions i).process params p.session

section Calls

variable [DecidableEq ι]

/-- Judges one of the transactions, which is fresh if it is found good. -/
def validate (p : Pool ι) (params : ChainParams) (i : ι) : Pool ι :=
  let judged := (p.transactions i).validate params p.session
  { p with
    transactions := Function.update p.transactions i judged.2
    fresh := {j | j ∈ p.fresh ∨ j = i ∧ judged.1 = .ok .ok} }

/-- Processes one of the transactions, after which no other one of its creator is fresh. -/
def process (p : Pool ι) (params : ChainParams) (i : ι) : Pool ι where
  session := (p.processing params i).session
  transactions := Function.update p.transactions i (p.processing params i).transaction
  processed := {j | j ∈ p.processed ∨ j = i ∧ (p.processing params i).outcome = .ok ()}
  fresh := {j ∈ p.fresh | (p.processing params i).outcome = .ok () →
    (p.transactions j).record.creator? ≠ (p.transactions i).record.creator?}

theorem validate_transactions (p : Pool ι) (params : ChainParams) (i : ι) :
    (p.validate params i).transactions i = ((p.transactions i).validate params p.session).2 :=
  Function.update_self ..

theorem validate_transactions_of_ne (other : j ≠ i) :
    (p.validate params i).transactions j = p.transactions j :=
  Function.update_of_ne other ..

theorem process_transactions (p : Pool ι) (params : ChainParams) (i : ι) :
    (p.process params i).transactions i = (p.processing params i).transaction :=
  Function.update_self ..

theorem process_transactions_of_ne (other : j ≠ i) :
    (p.process params i).transactions j = p.transactions j :=
  Function.update_of_ne other ..

def call (p : Pool ι) : Call ι → Pool ι
  | .validate params i => p.validate params i
  | .process params i => p.process params i

/-- The transactions after calls that were made in turn. -/
def run (p : Pool ι) (calls : List (Call ι)) : Pool ι := calls.foldl call p

/-- Every call is such at the moment it is made. -/
def Each (such : Pool ι → Call ι → Prop) : Pool ι → List (Call ι) → Prop
  | _, [] => True
  | p, call :: rest => such p call ∧ Each such (p.call call) rest

/-- A transaction is processed only if it is fresh. -/
def IsTimely (p : Pool ι) : Call ι → Prop
  | .validate .. => True
  | .process params i => (p.processing params i).outcome = .ok () → i ∈ p.fresh

/-- No balance wraps around where a valid transaction is processed. -/
def AddsExactly (p : Pool ι) : Call ι → Prop
  | .validate .. => True
  | .process params i => (p.transactions i).stage = .valid →
    (Submission.mk params (p.transactions i).record).AddsExactly p.session

/-- There is a number left for the asset where a valid issue is processed. -/
def HasNumber (p : Pool ι) : Call ι → Prop
  | .validate .. => True
  | .process _ i => (p.transactions i).stage = .valid →
    (p.transactions i).record.kind = .issueAsset → p.session.holds (.asset lastAsset) = false

end Calls

/-- Two of the records that conflict were both processed. -/
def HasConflict (records : ι → Record) (p : Pool ι) : Prop :=
  ∃ i ∈ p.processed, ∃ j ∈ p.processed, i ≠ j ∧ (records i).ConflictsWith (records j)

/-- The records can be told apart by their signatures, which are not in use as references, and all
of them have a key that signs them. -/
structure Admits (s : Session) (records : ι → Record) : Prop where
  keyed : ∀ i, ∃ key, (records i).creatorKey? = some key
  signed : ∀ i, ∃ signature, (records i).signature? = some signature
  distinct : Function.Injective fun i => (records i).signature?
  unused : ∀ i account, s.lastReference account ≠ .ok (records i).signature?

/-! ## The invariants -/

/-- What holds of references between timely calls. -/
structure IsSound (records : ι → Record) (p : Pool ι) : Prop where
  readable : ∀ account asset, p.session.Legible (.balance account asset)
  legible : ∀ account, p.session.Legible (.reference account)
  closed : ∀ i ∈ p.processed, (p.transactions i).stage = .processed
  /-- What was not processed has its record, and its signature is no reference. -/
  pending : ∀ i ∉ p.processed, (p.transactions i).record = records i ∧
    ∀ account, p.session.lastReference account ≠ .ok (records i).signature?
  /-- What was processed declares a reference that its creator has no more, and that is not the
  signature of anything that was not processed. -/
  spent : ∀ i ∈ p.processed, ∀ account, (records i).creator? = some account →
    (∃ held, p.session.lastReference account = .ok (some held) ∧
      (records i).reference? ≠ some held) ∧
    ∀ j ∉ p.processed, (records j).signature? ≠ (records i).reference?
  /-- What is fresh was not processed, and declares the reference that its creator has. -/
  current : ∀ i ∈ p.fresh, i ∉ p.processed ∧ ∀ account, (records i).creator? = some account →
    ∃ held, (records i).reference? = some held ∧
      p.session.lastReference account = .ok (some held)
  /-- What is valid but not fresh conflicts with something that was processed. -/
  stale : ∀ i, (p.transactions i).stage = .valid → i ∈ p.fresh ∨
    ∃ j ∈ p.processed, i ≠ j ∧ (records i).ConflictsWith (records j)
  apart : ¬p.HasConflict records

/-- What holds of amounts besides, as long as nothing wraps around. -/
structure IsCovered (records : ι → Record) (p : Pool ι) : Prop where
  credit : p.session.InCredit
  /-- What is fresh was found good, and what was found of the amounts of its creator is upheld. -/
  upheld : ∀ i ∈ p.fresh, ∃ params s, (records i).verdict params s = .ok .ok ∧
    ∀ account, (records i).creator? = some account → s.Upholds account p.session

/-- Transactions of which none is valid are sound before the first call. -/
theorem IsSound.start (readable : ∀ account asset, s.Legible (.balance account asset))
    (legible : ∀ account, s.Legible (.reference account)) (admits : Admits s records)
    (invalid : ∀ i, stages i ≠ .valid) : (start s records stages).IsSound records := by
  constructor
  case readable => exact readable
  case legible => exact legible
  case closed => exact fun i processed => absurd processed (Set.notMem_empty i)
  case pending => exact fun i _ => ⟨rfl, admits.unused i⟩
  case spent => exact fun i processed => absurd processed (Set.notMem_empty i)
  case current => exact fun i fresh => absurd fresh (Set.notMem_empty i)
  case stale => exact fun i valid => absurd valid (invalid i)
  case apart =>
    rintro ⟨i, processed, -⟩
    exact Set.notMem_empty i processed

theorem IsCovered.start (credit : s.InCredit) : (start s records stages).IsCovered records :=
  ⟨credit, fun i fresh => absurd fresh (Set.notMem_empty i)⟩

namespace IsSound

variable (sound : p.IsSound records)
include sound

/-- **Processing is refused, or carries out a plan** for the record. -/
theorem processing_cases (params : ChainParams) (i : ι) :
    (∃ error, p.processing params i = (p.transactions i).refuse p.session error) ∨
      ∃ signature plan, (p.transactions i).stage = .valid ∧
        (p.transactions i).record = records i ∧ (records i).signature? = some signature ∧
        (records i).processing params p.session signature = .ok plan ∧
        (makeAll plan.changes p.session).outcome = .ok () ∧
        p.processing params i =
          ⟨.ok (), ⟨plan.after, .processed⟩, (makeAll plan.changes p.session).session⟩ := by
  obtain refused | ⟨signature, plan, valid, signed, planned, carried⟩ :=
    Transaction.process_cases params p.session (p.transactions i)
  · exact .inl refused
  · have unprocessed : i ∉ p.processed := by
      intro processed
      have stage := sound.closed i processed
      rw [valid] at stage
      cases stage
    have record := (sound.pending i unprocessed).1
    rw [record] at signed planned
    have made := Record.makeAll_planned sound.readable sound.legible signed planned
    exact .inr ⟨signature, plan, valid, record, signed, planned, made,
      carried.trans (Transaction.carryOut_of_ok made)⟩

/-- Processing that succeeds carries out a plan. -/
theorem exists_plan (done : (p.processing params i).outcome = .ok ()) :
    ∃ signature plan, (p.transactions i).stage = .valid ∧
      (p.transactions i).record = records i ∧ (records i).signature? = some signature ∧
      (records i).processing params p.session signature = .ok plan ∧
      (makeAll plan.changes p.session).outcome = .ok () ∧
      p.processing params i =
        ⟨.ok (), ⟨plan.after, .processed⟩, (makeAll plan.changes p.session).session⟩ := by
  obtain ⟨error, refused⟩ | carried := sound.processing_cases params i
  · rw [refused] at done
    cases done
  · exact carried

end IsSound

/-- What comes of a transaction that is processed. -/
structure Applies (records : ι → Record) (i : ι) (p q : Pool ι) : Prop where
  processed : ∀ j, j ∈ q.processed ↔ j = i ∨ j ∈ p.processed
  closed : (q.transactions i).stage = .processed
  others : ∀ j ≠ i, q.transactions j = p.transactions j
  fresh : ∀ j, j ∈ q.fresh ↔ j ∈ p.fresh ∧ (records j).creator? ≠ (records i).creator?
  readable : ∀ account asset, q.session.Legible (.balance account asset)
  legible : ∀ account, q.session.Legible (.reference account)
  given : ∀ account, q.session.lastReference account = p.session.lastReference account ∨
    q.session.lastReference account = .ok (records i).signature?
  moved : ∀ account, (records i).creator? = some account →
    q.session.lastReference account = .ok (records i).signature?
  kept : ∀ j account held, (records j).creator? = some account →
    (records i).creator? ≠ some account → p.session.lastReference account = .ok (some held) →
    q.session.lastReference account = .ok (some held)

namespace Applies

variable {q : Pool ι} {account : Address} (applies : Applies records i p q)
include applies

/-- What is not processed then is another one, and was not processed before. -/
theorem unprocessed (still : j ∉ q.processed) : j ≠ i ∧ j ∉ p.processed :=
  not_or.mp (mt (applies.processed j).mpr still)

/-- What was processed is not judged or processed again. -/
theorem closed_of_mem (sound : p.IsSound records) (processed : j ∈ q.processed) :
    (q.transactions j).stage = .processed := by
  by_cases here : j = i
  · rw [here]
    exact applies.closed
  · rw [applies.others j here]
    exact sound.closed j (((applies.processed j).mp processed).resolve_left here)

/-- The signature that is given is of no other record. -/
theorem unused (sound : p.IsSound records) (admits : Admits s records) (still : j ∉ q.processed) :
    q.session.lastReference account ≠ .ok (records j).signature? := by
  obtain ⟨other, before⟩ := applies.unprocessed still
  rcases applies.given account with kept | given
  · rw [kept]
    exact (sound.pending j before).2 account
  · rw [given]
    exact fun same => other (admits.distinct (Except.ok.inj same).symm)

/-- The reference that is used now is no signature of what was not processed, so that the account
has another one then. -/
theorem spent_self (sound : p.IsSound records) (admits : Admits s records) (fresh : i ∈ p.fresh)
    (creates : (records i).creator? = some account) :
    (∃ held, q.session.lastReference account = .ok (some held) ∧
      (records i).reference? ≠ some held) ∧
    ∀ j ∉ q.processed, (records j).signature? ≠ (records i).reference? := by
  obtain ⟨held, declared, known⟩ := (sound.current i fresh).2 account creates
  obtain ⟨signature, signed⟩ := admits.signed i
  have unused : ∀ j ∉ p.processed, (records j).signature? ≠ (records i).reference? := by
    intro j before same
    exact (sound.pending j before).2 account (by rw [known, same, declared])
  refine ⟨⟨signature, (applies.moved _ creates).trans (congrArg _ signed), ?_⟩, ?_⟩
  · exact fun same => unused i (sound.current i fresh).1 (signed.trans same.symm)
  · exact fun j still => unused j (applies.unprocessed still).2

/-- A reference that was used before is not given again. -/
theorem spent_before (sound : p.IsSound records) (admits : Admits s records)
    (pending : i ∉ p.processed) (before : j ∈ p.processed)
    (creates : (records j).creator? = some account) :
    (∃ held, q.session.lastReference account = .ok (some held) ∧
      (records j).reference? ≠ some held) ∧
    ∀ k ∉ q.processed, (records k).signature? ≠ (records j).reference? := by
  obtain ⟨⟨last, known, other⟩, later⟩ := sound.spent j before account creates
  refine ⟨?_, fun k still => later k (applies.unprocessed still).2⟩
  rcases applies.given account with kept | given
  · exact ⟨last, kept.trans known, other⟩
  · obtain ⟨signature, signed⟩ := admits.signed i
    exact ⟨signature, given.trans (congrArg _ signed), fun same =>
      later i pending (signed.trans same.symm)⟩

/-- What is fresh then was not processed, and its creator keeps the reference that it declares. -/
theorem current (sound : p.IsSound records) (fresh : j ∈ q.fresh) :
    j ∉ q.processed ∧ ∀ account, (records j).creator? = some account →
      ∃ held, (records j).reference? = some held ∧
        q.session.lastReference account = .ok (some held) := by
  obtain ⟨before, differs⟩ := (applies.fresh j).mp fresh
  obtain ⟨pending, known⟩ := sound.current j before
  refine ⟨fun processed => ?_, fun account creates => ?_⟩
  · rcases (applies.processed j).mp processed with rfl | processed
    · exact differs rfl
    · exact pending processed
  · obtain ⟨held, declared, had⟩ := known account creates
    have other : (records i).creator? ≠ some account := fun same =>
      differs (creates.trans same.symm)
    exact ⟨held, declared, applies.kept j account held creates other had⟩

/-- What is valid then but no longer fresh declares the reference that is used now. -/
theorem stale (sound : p.IsSound records) (fresh : i ∈ p.fresh)
    (creates : (records i).creator? = some account)
    (valid : (q.transactions j).stage = .valid) :
    j ∈ q.fresh ∨ ∃ k ∈ q.processed, j ≠ k ∧ (records j).ConflictsWith (records k) := by
  have other : j ≠ i := by
    rintro rfl
    rw [applies.closed] at valid
    cases valid
  rw [applies.others j other] at valid
  rcases sound.stale j valid with before | ⟨k, processed, apart, conflicts⟩
  · by_cases same : (records j).creator? = (records i).creator?
    · obtain ⟨held, declared, known⟩ := (sound.current i fresh).2 account creates
      obtain ⟨held', declared', known'⟩ :=
        (sound.current j before).2 account (same.trans creates)
      cases Except.ok.inj (known.symm.trans known')
      exact .inr ⟨i, (applies.processed i).mpr (.inl rfl), other, same,
        declared'.trans declared.symm⟩
    · exact .inl ((applies.fresh j).mpr ⟨before, same⟩)
  · exact .inr ⟨k, (applies.processed k).mpr (.inr processed), apart, conflicts⟩

/-- What was processed before has used another reference than the one that is used now. -/
theorem apart (sound : p.IsSound records) (fresh : i ∈ p.fresh)
    (creates : (records i).creator? = some account) : ¬q.HasConflict records := by
  have differs : ∀ j ∈ p.processed, ¬(records j).ConflictsWith (records i) := by
    rintro j before ⟨same, declares⟩
    obtain ⟨held, declared, known⟩ := (sound.current i fresh).2 account creates
    obtain ⟨⟨last, known', other⟩, -⟩ := sound.spent j before _ (same.trans creates)
    cases Except.ok.inj (known.symm.trans known')
    exact other (declares.trans declared)
  rintro ⟨j, first, k, second, apart, conflicts⟩
  rcases (applies.processed j).mp first with rfl | before <;>
    rcases (applies.processed k).mp second with rfl | before'
  · exact apart rfl
  · exact differs k before' ⟨conflicts.1.symm, conflicts.2.symm⟩
  · exact differs j before conflicts
  · exact sound.apart ⟨j, before, k, before', apart, conflicts⟩

end Applies

/-- **What is sound stays sound** where a fresh transaction is applied. -/
theorem IsSound.of_applies {q : Pool ι} (sound : p.IsSound records) (admits : Admits s records)
    (fresh : i ∈ p.fresh) (applies : Applies records i p q) : q.IsSound records := by
  have pending := (sound.current i fresh).1
  obtain ⟨key, keyed⟩ := admits.keyed i
  have creates := Record.creator?_of_key keyed
  constructor
  case readable => exact applies.readable
  case legible => exact applies.legible
  case closed => exact fun j => applies.closed_of_mem sound
  case pending =>
    intro j still
    obtain ⟨other, before⟩ := applies.unprocessed still
    exact ⟨(congrArg Transaction.record (applies.others j other)).trans (sound.pending j before).1,
      fun account => applies.unused sound admits still⟩
  case spent =>
    intro j processed account creates'
    rcases (applies.processed j).mp processed with rfl | before
    · exact applies.spent_self sound admits fresh creates'
    · exact applies.spent_before sound admits pending before creates'
  case current => exact fun j => applies.current sound
  case stale => exact fun j => applies.stale sound fresh creates
  case apart => exact applies.apart sound fresh creates

variable [DecidableEq ι]

/-! ## What a call changes -/

/-- What was processed stays processed. -/
theorem processed_subset_call (p : Pool ι) (call : Call ι) :
    p.processed ⊆ (p.call call).processed := by
  cases call with
  | validate => exact subset_rfl
  | process => exact fun i processed => .inl processed

theorem HasConflict.run (conflict : p.HasConflict records) (calls : List (Call ι)) :
    (p.run calls).HasConflict records := by
  induction calls generalizing p with
  | nil => exact conflict
  | cons call rest ih =>
    obtain ⟨i, first, j, second, apart, conflicts⟩ := conflict
    have kept := processed_subset_call p call
    exact ih ⟨i, kept first, j, kept second, apart, conflicts⟩

/-- Judging that fails changes nothing. -/
theorem validate_eq_self {error : TransactionError}
    (failed : (p.transactions i).validate params p.session = (.error error, p.transactions i)) :
    p.validate params i = p := by
  unfold validate
  simp only [failed, Function.update_eq_self, reduceCtorEq, and_false, or_false, Set.ofPred_mem_eq]

/-- Processing that is refused changes nothing. -/
theorem process_eq_self {error : TransactionError}
    (refused : p.processing params i = (p.transactions i).refuse p.session error) :
    p.process params i = p := by
  unfold process
  simp only [refused, Transaction.refuse, Function.update_eq_self, reduceCtorEq, and_false,
    or_false, false_implies, and_true, Set.ofPred_mem_eq]

namespace IsSound

variable (sound : p.IsSound records)
include sound

/-! ## Judging -/

/-- What is fresh after judging was fresh before, or is found good now. -/
theorem fresh_validate (fresh : j ∈ (p.validate params i).fresh) :
    j ∈ p.fresh ∨ j ∉ p.processed ∧ (records j).verdict params p.session = .ok .ok := by
  rcases fresh with before | ⟨rfl, good⟩
  · exact .inl before
  · obtain ⟨error, failed⟩ | ⟨verdict, unprocessed, known, judged⟩ :=
      Transaction.validate_cases params p.session (p.transactions j)
    · rw [failed] at good
      cases good
    · have pending : j ∉ p.processed := fun processed => unprocessed (sound.closed j processed)
      rw [judged] at good
      cases good
      rw [(sound.pending j pending).1] at known
      exact .inr ⟨pending, known⟩

/-- **Judging keeps the transactions sound.** -/
theorem validate (params : ChainParams) (i : ι) : (p.validate params i).IsSound records := by
  obtain ⟨error, failed⟩ | ⟨verdict, unprocessed, -, judged⟩ :=
    Transaction.validate_cases params p.session (p.transactions i)
  · rwa [validate_eq_self failed]
  have itself : (p.validate params i).transactions i =
      ⟨(p.transactions i).record, if verdict = .ok then .valid else .unvalidated⟩ := by
    rw [validate_transactions, judged]
  have record : ∀ j, ((p.validate params i).transactions j).record = (p.transactions j).record := by
    intro j
    by_cases here : j = i
    · rw [here, itself]
    · rw [validate_transactions_of_ne here]
  have pending : i ∉ p.processed := fun processed => unprocessed (sound.closed i processed)
  constructor
  case readable => exact sound.readable
  case legible => exact sound.legible
  case closed =>
    intro j processed
    rw [validate_transactions_of_ne (ne_of_mem_of_not_mem processed pending)]
    exact sound.closed j processed
  case pending =>
    intro j unprocessed
    rw [record]
    exact sound.pending j unprocessed
  case spent => exact sound.spent
  case current =>
    intro j fresh
    rcases sound.fresh_validate fresh with before | ⟨pending, good⟩
    · exact sound.current j before
    · exact ⟨pending, fun _ creates => Record.exists_reference_of_verdict good creates⟩
  case stale =>
    intro j valid
    by_cases here : j = i
    · refine .inl (.inr ⟨here, ?_⟩)
      rw [here, itself] at valid
      rw [judged]
      by_cases good : verdict = .ok
      · rw [good]
      · simp [good] at valid
    · rw [validate_transactions_of_ne here] at valid
      exact (sound.stale j valid).imp_left .inl
  case apart => exact sound.apart

end IsSound

/-! ## Processing -/

namespace IsSound

/-- Processing that does not succeed changes nothing. -/
theorem process_of_failed (sound : p.IsSound records)
    (failed : (p.processing params i).outcome ≠ .ok ()) : p.process params i = p := by
  obtain ⟨error, refused⟩ | ⟨_, _, -, -, -, -, -, carried⟩ := sound.processing_cases params i
  · exact process_eq_self refused
  · exact absurd (congrArg Step.outcome carried) failed

/-- **A transaction is applied** as it is processed. -/
theorem applies (sound : p.IsSound records) (admits : Admits s records)
    (done : (p.processing params i).outcome = .ok ()) :
    Applies records i p (p.process params i) := by
  obtain ⟨signature, plan, -, record, signed, planned, made, carried⟩ := sound.exists_plan done
  have session : (p.process params i).session = (makeAll plan.changes p.session).session :=
    congrArg Step.session carried
  obtain ⟨envelope, action, standard⟩ :
      ∃ envelope action, records i = .standard envelope action := by
    obtain ⟨key, keyed⟩ := admits.keyed i
    cases form : records i with
    | genesis => simp [form, Record.creatorKey?] at keyed
    | standard envelope action => exact ⟨envelope, action, rfl⟩
  have references : ∀ account, (makeAll plan.changes p.session).session.lastReference account =
      (records i).onReference params signature account (p.session.lastReference account) := by
    rw [standard] at planned ⊢
    exact Record.lastReference_makeAll planned made
  constructor
  case processed => exact fun j => or_comm.trans (or_congr_left (and_iff_left done))
  case closed => rw [process_transactions, carried]
  case others => exact fun j other => process_transactions_of_ne other
  case fresh =>
    intro j
    refine and_congr_right fun before => ?_
    rw [record, (sound.pending j (sound.current j before).1).1]
    exact ⟨fun differs => differs done, fun differs _ => differs⟩
  case readable =>
    intro account asset
    rw [session]
    exact legible_balance_makeAll (sound.readable account asset) made
  case legible =>
    intro account
    rw [session]
    exact legible_reference_makeAll (sound.legible account) made
  case given =>
    intro account
    rw [session, references, signed]
    exact Record.onReference_eq_or ..
  case moved =>
    intro account creates
    rw [session, references, Record.onReference, if_pos (.inl creates), signed]
  case kept =>
    intro j account held creates other had
    obtain ⟨key, keyed⟩ := admits.keyed j
    cases Option.some.inj ((Record.creator?_of_key keyed).symm.trans creates)
    rw [session, references, had]
    refine Record.onReference_some other fun deployed => ?_
    have ordinary := Address.isAt_ofPublicKey key.bytes
    rw [Record.isAt_of_deployed deployed] at ordinary
    cases ordinary

/-- **A timely call keeps the transactions sound.** -/
theorem call {call : Call ι} (sound : p.IsSound records) (admits : Admits s records)
    (timely : p.IsTimely call) : (p.call call).IsSound records := by
  cases call with
  | validate params i => exact sound.validate params i
  | process params i =>
    by_cases done : (p.processing params i).outcome = .ok ()
    · exact sound.of_applies admits (timely done) (sound.applies admits done)
    · rwa [Pool.call, sound.process_of_failed done]

/-- **A call that is late** processes what conflicts with something that was processed before. -/
theorem hasConflict_of_late {call : Call ι} (sound : p.IsSound records)
    (late : ¬p.IsTimely call) : (p.call call).HasConflict records := by
  cases call with
  | validate => exact absurd trivial late
  | process params i =>
    rw [IsTimely, Classical.not_imp] at late
    obtain ⟨done, unfresh⟩ := late
    obtain ⟨_, _, valid, -⟩ := sound.exists_plan done
    obtain ⟨j, processed, apart, conflicts⟩ := (sound.stale i valid).resolve_left unfresh
    exact ⟨i, .inr ⟨rfl, done⟩, j, .inl processed, apart, conflicts⟩

end IsSound

/-! ## Amounts -/

namespace IsCovered

theorem validate (covered : p.IsCovered records) (sound : p.IsSound records) (params : ChainParams)
    (i : ι) : (p.validate params i).IsCovered records where
  credit := covered.credit
  upheld j fresh := by
    rcases sound.fresh_validate fresh with before | ⟨-, good⟩
    · exact covered.upheld j before
    · exact ⟨params, p.session, good, fun _ _ => .refl ..⟩

/-- **Processing in time leaves no balance negative**, and upholds what was found of others. -/
theorem process (covered : p.IsCovered records) (sound : p.IsSound records)
    (admits : Admits s records) (exact : p.AddsExactly (.process params i))
    (left : p.HasNumber (.process params i)) (fresh : i ∈ p.fresh)
    (done : (p.processing params i).outcome = .ok ()) :
    (p.process params i).IsCovered records := by
  obtain ⟨signature, plan, valid, record, signed, planned, made, carried⟩ := sound.exists_plan done
  obtain ⟨params', s, good, upheld⟩ := covered.upheld i fresh
  obtain ⟨key, keyed⟩ := admits.keyed i
  have creates := Record.creator?_of_key keyed
  have exact := exact valid
  have left := left valid
  rw [record] at exact left
  have allExact := exact signature plan signed planned
  have session : (p.process params i).session = (makeAll plan.changes p.session).session :=
    congrArg Step.session carried
  constructor
  case credit =>
    rw [session]
    exact (upheld _ creates).inCredit_processing good creates planned made allExact left
      covered.credit
  case upheld =>
    intro j fresh'
    obtain ⟨before, differs⟩ := ((sound.applies admits done).fresh j).mp fresh'
    obtain ⟨params'', s', good', upheld'⟩ := covered.upheld j before
    refine ⟨params'', s', good', fun account creates' => (upheld' account creates').trans ?_⟩
    rw [session]
    refine Record.upholds_processing good creates planned made allExact left fun same => ?_
    exact differs (creates'.trans (creates.trans (congrArg some same)).symm)

theorem call {call : Call ι} (covered : p.IsCovered records) (sound : p.IsSound records)
    (admits : Admits s records) (timely : p.IsTimely call) (exact : p.AddsExactly call)
    (left : p.HasNumber call) : (p.call call).IsCovered records := by
  cases call with
  | validate params i => exact covered.validate sound params i
  | process params i =>
    by_cases done : (p.processing params i).outcome = .ok ()
    · exact covered.process sound admits exact left (timely done) done
    · rwa [Pool.call, sound.process_of_failed done]

end IsCovered

/-! ## Whole interleavings -/

/-- **All calls are timely and the transactions stay sound, or two that conflict are processed.** -/
theorem IsSound.run {calls : List (Call ι)} (sound : p.IsSound records) (admits : Admits s records) :
    p.Each IsTimely calls ∧ (p.run calls).IsSound records ∨
      ¬p.Each IsTimely calls ∧ (p.run calls).HasConflict records := by
  induction calls generalizing p with
  | nil => exact .inl ⟨trivial, sound⟩
  | cons call rest ih =>
    by_cases timely : p.IsTimely call
    · rcases ih (sound.call admits timely) with ⟨later, last⟩ | ⟨late, last⟩
      · exact .inl ⟨⟨timely, later⟩, last⟩
      · exact .inr ⟨fun each => late each.2, last⟩
    · exact .inr ⟨fun each => timely each.1, (sound.hasConflict_of_late timely).run rest⟩

/-- **No balance becomes negative as long as all calls are timely.** -/
theorem IsCovered.run {calls : List (Call ι)} (covered : p.IsCovered records) (sound : p.IsSound records)
    (admits : Admits s records) (timely : p.Each IsTimely calls) (exact : p.Each AddsExactly calls)
    (left : p.Each HasNumber calls) : (p.run calls).IsCovered records := by
  induction calls generalizing p with
  | nil => exact covered
  | cons call rest ih =>
    exact ih (covered.call sound admits timely.1 exact.1 left.1) (sound.call admits timely.1)
      timely.2 exact.2 left.2

theorem run_append (p : Pool ι) (front back : List (Call ι)) :
    p.run (front ++ back) = (p.run front).run back :=
  List.foldl_append

theorem each_append {such : Pool ι → Call ι → Prop} {front back : List (Call ι)} :
    p.Each such (front ++ back) ↔ p.Each such front ∧ (p.run front).Each such back := by
  induction front generalizing p with
  | nil => exact (and_iff_right trivial).symm
  | cons call rest ih =>
    rw [List.cons_append, Each, ih, Each, and_assoc]
    rfl

/-- **Conflicting transactions are both applied exactly where one is processed late.** Over a ledger
with no negative balance whose references can be read, let transactions of records of keys, none of
them valid yet, be judged and processed in any order. Two of them that declare the same reference of
one creator are both processed exactly if some transaction is processed though a record of its
creator was processed since it was found good. If no two are, no balance wrapped around, and there
was a number left for every asset that was issued, then no balance is negative. -/
theorem hasConflict_iff_late {calls : List (Call ι)} (credit : s.InCredit)
    (legible : ∀ account, s.Legible (.reference account)) (admits : Admits s records)
    (invalid : ∀ i, stages i ≠ .valid) :
    (((start s records stages).run calls).HasConflict records ↔
        ¬(start s records stages).Each IsTimely calls) ∧
      ((start s records stages).Each AddsExactly calls →
        (start s records stages).Each HasNumber calls →
        ¬((start s records stages).run calls).HasConflict records →
        ((start s records stages).run calls).session.InCredit) := by
  have readable : ∀ account asset, s.Legible (.balance account asset) := fun account asset =>
    Session.legible_balance_iff.mpr ((credit account asset).imp fun _ => And.left)
  have sound : (start s records stages).IsSound records := .start readable legible admits invalid
  rcases sound.run admits with ⟨timely, last⟩ | ⟨late, conflict⟩
  · refine ⟨iff_of_false last.apart (not_not_intro timely), fun exact left _ => ?_⟩
    exact (IsCovered.run (.start credit) sound admits timely exact left).credit
  · exact ⟨iff_of_true conflict late, fun _ _ apart => absurd conflict apart⟩

/-! ## Rivals -/

namespace Rivals

open openedLedger (account firstReference)

/-- Two signatures. -/
def signature (later : Bool) : Signature :=
  ⟨(if later then 2 else 1) :: List.replicate 63 0, rfl⟩

/-- Two payments that declare the same reference, of an account that has the coins for one. -/
def record (later : Bool) : Record :=
  .standard ⟨1, firstReference, ⟨100⟩, some (signature later)⟩
    (.payment ⟨.fill 6, "QjSSfvVj4hqM5PwYwjZn7UL4mZKzUCtoeR", ⟨500⟩⟩)

/-- What processing one of them changes, on any ledger. -/
def changes (later : Bool) : List Change :=
  chargeFee account ⟨100⟩ (signature later) ++
    moveAll account (signature later)
      [⟨"QjSSfvVj4hqM5PwYwjZn7UL4mZKzUCtoeR", nativeAsset, ⟨500⟩⟩] ++
    [.saveTransaction (record later)]

theorem good (later : Bool) : (record later).verdict .allReleased openedLedger = .ok .ok :=
  Payment.verdict_eq_ok openedLedger.opened.1 Address.Sample.isValid_other
    (by decide : 0 < (⟨100⟩ : Amount).toInt) (by decide : 0 < (⟨500⟩ : Amount).toInt)
    openedLedger.opened.2 (by decide : (100 : Int) + 500 ≤ 1000)

theorem admits : Admits openedLedger record where
  keyed _ := ⟨.fill 6, rfl⟩
  signed later := ⟨signature later, rfl⟩
  distinct := by
    intro one other same
    have same : signature one = signature other := Option.some.inj same
    by_contra differ
    rw [Bool.eq_not.mpr differ] at same
    revert same
    cases other <;> decide
  unused later holder := openedLedger.lastReference_ne holder (by cases later <;> decide)

theorem size_changes (later : Bool) : ((changes later).map size).sum = 1100 := by
  cases later <;> rfl

/-- A ledger in which the account has a balance, and no balance is far from zero. -/
structure Holds (s : Session) (balance : Amount) (room : Int) : Prop where
  readable : ∀ account asset, s.Legible (.balance account asset)
  legible : ∀ account, s.Legible (.reference account)
  funded : s.balance account nativeAsset = .ok balance
  within : ∀ account asset, |s.units account asset| ≤ room

theorem holds_opened : Holds openedLedger ⟨1000⟩ largestIssue where
  readable := openedLedger.solvent.consultable.balance
  legible := openedLedger.solvent.consultable.reference
  funded := openedLedger.opened.2
  within account asset := by
    have backed := openedLedger.solvent.backed
    rw [abs_of_nonneg (backed.nonneg account asset)]
    refine (backed.units_le account asset).trans ?_
    rw [Session.supplies]
    split
    next => decide
    next => split <;> decide

/-- **A valid one of them is processed**, whatever the balance that it is taken from, and no balance
wraps around. -/
theorem Holds.exists_processed {s : Session} {balance : Amount} {room : Int}
    (holds : Holds s balance room) (enough : room + 1100 ≤ Amount.largest) (later : Bool) :
    ∃ t, (Transaction.mk (record later) .valid).process .allReleased s =
        ⟨.ok (), .processed (record later), t⟩ ∧
      (Submission.mk .allReleased (record later)).AddsExactly s ∧
      Holds t (balance + -⟨100⟩ + -⟨500⟩) (room + 1100) := by
  have planned : (record later).processing .allReleased s (signature later) =
      .ok (.same (record later) (changes later)) := rfl
  have made : (makeAll (changes later) s).outcome = .ok () :=
    Record.makeAll_planned holds.readable holds.legible rfl planned
  have keep : ∀ change ∈ changes later, ∀ account asset, change.Keeps account asset := by
    simp [changes, chargeFee, moveAll, Leg.move, Keeps]
  have exact := allExact_of_room made keep holds.within
  rw [size_changes] at exact
  obtain ⟨exact, within⟩ := exact enough
  refine ⟨(makeAll (changes later) s).session, ?_, ?_, ?_⟩
  · rw [Transaction.process_valid rfl planned]
    exact Transaction.carryOut_of_ok made
  · intro used plan signed planned'
    cases Option.some.inj signed
    cases Except.ok.inj (planned.symm.trans planned')
    exact exact
  · constructor
    case readable => exact fun account asset => legible_balance_makeAll (holds.readable ..) made
    case legible => exact fun account => legible_reference_makeAll (holds.legible account) made
    case funded =>
      rw [balance_makeAll made, holds.funded]
      -- It is reckoned on the account's text, not on its key.
      simp [changes, openedLedger.account_eq, chargeFee, moveAll, Leg.move, onBalanceAll, onBalance,
        Except.map]
    case within => exact within

/-- Both are judged before either is processed. -/
def judging : List (Call Bool) := [.validate .allReleased false, .validate .allReleased true]

def paying (later : Bool) : Call Bool := .process .allReleased later

/-- They were just received. -/
def opening : Pool Bool := start openedLedger record fun _ => .unvalidated

/-- Both are found good. -/
theorem run_judging : (opening.run judging).session = openedLedger ∧
    (opening.run judging).processed = ∅ ∧
    ∀ later, (opening.run judging).transactions later = ⟨record later, .valid⟩ := by
  have found : ∀ later, (Transaction.mk (record later) .unvalidated).validate .allReleased
      openedLedger = (.ok .ok, ⟨record later, .valid⟩) := fun later =>
    Transaction.validate_received_eq_iff.mpr ⟨good later, rfl⟩
  refine ⟨rfl, rfl, fun later => ?_⟩
  cases later <;> simp [opening, run, judging, call, validate, start, found]

/-- **Both are processed** where both are valid: the second one still is after the first one. -/
theorem run_paying {p : Pool Bool} (session : p.session = openedLedger)
    (unprocessed : p.processed = ∅)
    (valid : ∀ later, p.transactions later = ⟨record later, .valid⟩) :
    p.Each AddsExactly [paying false, paying true] ∧ p.Each HasNumber [paying false] ∧
      true ∉ (p.run [paying false]).processed ∧
      (∀ later, later ∈ (p.run [paying false, paying true]).processed) ∧
      (p.run [paying false, paying true]).session.balance account nativeAsset = .ok ⟨-200⟩ := by
  obtain ⟨paid, first, exact, holds⟩ := holds_opened.exists_processed (by decide) false
  obtain ⟨overdrawn, second, exact', holds'⟩ := holds.exists_processed (by decide) true
  have done : p.processing .allReleased false = ⟨.ok (), .processed (record false), paid⟩ := by
    rw [processing, session, valid]
    exact first
  have left : (p.process .allReleased false).session = paid := congrArg Step.session done
  have pending : (p.process .allReleased false).transactions true = ⟨record true, .valid⟩ :=
    (process_transactions_of_ne (by decide)).trans (valid true)
  have done' : (p.process .allReleased false).processing .allReleased true =
      ⟨.ok (), .processed (record true), overdrawn⟩ := by
    rw [processing, left, pending]
    exact second
  refine ⟨⟨fun _ => ?_, fun _ => ?_, trivial⟩, ⟨fun _ issues => ?_, trivial⟩, ?_,
    fun later => ?_, ?_⟩
  · rw [session, valid]
    exact exact
  · change (Submission.mk _ ((p.process .allReleased false).transactions true).record).AddsExactly
      (p.process .allReleased false).session
    rw [left, pending]
    exact exact'
  · rw [valid] at issues
    cases issues
  · rintro (processed | ⟨same, -⟩)
    · rw [unprocessed] at processed
      exact Set.notMem_empty _ processed
    · cases same
  · cases later
    · exact .inl (.inr ⟨rfl, congrArg Step.outcome done⟩)
    · exact .inr ⟨rfl, congrArg Step.outcome done'⟩
  · change ((p.process .allReleased false).processing .allReleased true).session.balance account
      nativeAsset = _
    rw [done']
    exact holds'.funded

/-- The calls up to the first payment. -/
def front : List (Call Bool) := judging ++ [paying false]

/-- The calls that overdraw the account. -/
def calls : List (Call Bool) := judging ++ [paying false, paying true]

end Rivals

/-! ## A lone issue -/

namespace Lone

/-- An issue that nothing is left to number. -/
def record (_ : Unit) : Record := Exhausted.issue.record

/-- It was just received. -/
def opening : Pool Unit := start Exhausted.ledger record fun _ => .unvalidated

def judging : List (Call Unit) := [.validate .allReleased ()]

def issuing : List (Call Unit) := [.process .allReleased ()]

theorem inCredit_ledger : Exhausted.ledger.InCredit := by
  intro holder asset
  rw [Exhausted.balance_ledger]
  split
  next => exact ⟨_, rfl, by decide⟩
  next => exact openedLedger.solvent.inCredit holder asset

theorem admits : Admits Exhausted.ledger record where
  keyed _ := ⟨.fill 6, rfl⟩
  signed _ := ⟨openedLedger.laterSignature, rfl⟩
  distinct := Function.injective_of_subsingleton _
  unused _ holder := by
    rw [Exhausted.lastReference_ledger]
    exact openedLedger.lastReference_ne holder (by decide)

/-- It is found good. -/
theorem run_judging : (opening.run judging).session = Exhausted.ledger ∧
    () ∈ (opening.run judging).fresh ∧
    (opening.run judging).transactions () = ⟨record (), .valid⟩ := by
  have judged : (Transaction.mk (record ()) .unvalidated).validate .allReleased Exhausted.ledger =
      (.ok .ok, ⟨record (), .valid⟩) :=
    Transaction.validate_received_eq_iff.mpr
      ⟨(Submission.isAccepted_iff.mp Exhausted.isAccepted_issue).1, rfl⟩
  exact ⟨rfl, .inr ⟨rfl, congrArg Prod.fst judged⟩,
    (validate_transactions ..).trans (congrArg Prod.snd judged)⟩

/-- **It is processed**, and its account is left with less than nothing. -/
theorem run_issuing {p : Pool Unit} (session : p.session = Exhausted.ledger)
    (valid : p.transactions () = ⟨record (), .valid⟩) :
    p.Each AddsExactly issuing ∧ () ∈ (p.run issuing).processed ∧
      (p.run issuing).session.balance openedLedger.account nativeAsset = .ok ⟨-100000000⟩ := by
  obtain ⟨t, processed, left⟩ := Exhausted.exists_processed
  have done : p.processing .allReleased () =
      ⟨.ok (), ⟨Exhausted.issuance.after, .processed⟩, t⟩ := by
    rw [processing, session, valid]
    exact Exhausted.isAccepted_issue.processed_eq.symm.trans processed
  refine ⟨⟨fun _ => ?_, trivial⟩, .inr ⟨rfl, congrArg Step.outcome done⟩, ?_⟩
  · rw [session, valid]
    exact Exhausted.addsExactly_issue
  · change (p.processing .allReleased ()).session.balance openedLedger.account nativeAsset = _
    rw [done]
    exact left

/-- It is judged and then processed. -/
def calls : List (Call Unit) := judging ++ issuing

end Lone

/-- Two payments are judged and then both processed, though they declare the same reference. Until
the second one is processed no balance is negative. -/
theorem hasConflict_iff_late_rivals :
    openedLedger.InCredit ∧ (∀ account, openedLedger.Legible (.reference account)) ∧
      Admits openedLedger Rivals.record ∧ ¬Rivals.opening.Each IsTimely Rivals.calls ∧
      Rivals.opening.Each AddsExactly Rivals.front ∧
      Rivals.opening.Each HasNumber Rivals.front ∧
      ¬(Rivals.opening.run Rivals.front).HasConflict Rivals.record ∧
      (Rivals.opening.run Rivals.front).session.InCredit := by
  have credit := openedLedger.solvent.inCredit
  have legible := openedLedger.solvent.consultable.reference
  obtain ⟨session, unprocessed, valid⟩ := Rivals.run_judging
  obtain ⟨exact, left, pending, both, -⟩ := Rivals.run_paying session unprocessed valid
  rw [← run_append] at pending
  simp only [← run_append] at both
  have exact : Rivals.opening.Each AddsExactly Rivals.front :=
    each_append.mpr ⟨⟨trivial, trivial, trivial⟩, exact.1, trivial⟩
  have left : Rivals.opening.Each HasNumber Rivals.front :=
    each_append.mpr ⟨⟨trivial, trivial, trivial⟩, left⟩
  have conflict : (Rivals.opening.run Rivals.calls).HasConflict Rivals.record :=
    ⟨false, both false, true, both true, by decide, rfl, rfl⟩
  have apart : ¬(Rivals.opening.run Rivals.front).HasConflict Rivals.record := by
    rintro ⟨one, done, other, done', apart, -⟩
    cases one <;> cases other
    · exact apart rfl
    · exact pending done'
    · exact pending done
    · exact apart rfl
  have late := (hasConflict_iff_late credit legible Rivals.admits (by simp)).1.mp conflict
  exact ⟨credit, legible, Rivals.admits, late, exact, left, apart,
    (hasConflict_iff_late credit legible Rivals.admits (by simp)).2 exact left apart⟩

/-- **Balances can become negative in two ways**, without one that wraps around. Two payments of one
account that declare the same reference, and of which it can afford only one, are judged, and then
both processed. And an issue is processed in time when no number is left, which puts its quantity in
place of the coins of the account that pays for it. -/
theorem calls_overdraw :
    (openedLedger.InCredit ∧ Admits openedLedger Rivals.record ∧
      Rivals.opening.Each AddsExactly Rivals.calls ∧
      (Rivals.record false).ConflictsWith (Rivals.record true) ∧
      (∀ later, later ∈ (Rivals.opening.run Rivals.calls).processed) ∧
      ∃ balance : Amount, (Rivals.opening.run Rivals.calls).session.balance openedLedger.account
        nativeAsset = .ok balance ∧ balance.toInt < 0) ∧
    Exhausted.ledger.InCredit ∧ Admits Exhausted.ledger Lone.record ∧
      Lone.opening.Each AddsExactly Lone.calls ∧ Lone.opening.Each IsTimely Lone.calls ∧
      () ∈ (Lone.opening.run Lone.calls).processed ∧
      ¬(Lone.opening.run Lone.calls).HasConflict Lone.record ∧
      ∃ balance : Amount, (Lone.opening.run Lone.calls).session.balance openedLedger.account
        nativeAsset = .ok balance ∧ balance.toInt < 0 := by
  constructor
  · obtain ⟨session, unprocessed, valid⟩ := Rivals.run_judging
    obtain ⟨exact, -, -, both, overdrawn⟩ := Rivals.run_paying session unprocessed valid
    rw [← run_append] at overdrawn
    simp only [← run_append] at both
    exact ⟨openedLedger.solvent.inCredit, Rivals.admits,
      each_append.mpr ⟨⟨trivial, trivial, trivial⟩, exact⟩, ⟨rfl, rfl⟩, both, _, overdrawn,
      by decide⟩
  · obtain ⟨session, fresh, valid⟩ := Lone.run_judging
    obtain ⟨exact, done, overdrawn⟩ := Lone.run_issuing session valid
    rw [← run_append] at done overdrawn
    refine ⟨Lone.inCredit_ledger, Lone.admits, each_append.mpr ⟨⟨trivial, trivial⟩, exact⟩,
      each_append.mpr ⟨⟨trivial, trivial⟩, fun _ => fresh, trivial⟩, done, ?_, _, overdrawn,
      by decide⟩
    rintro ⟨_, -, _, -, apart, -⟩
    exact apart rfl

end Pool

end ChainLedger

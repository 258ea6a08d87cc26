import ChainLedger.Proofs.Ledger.Agreement
import ChainLedger.Proofs.Run.Solvency
import ChainLedger.Proofs.Transaction.Additions
import ChainLedger.Proofs.Transaction.Making

/-!
# Ledgers that are reached

A ledger is reached from the one without rows by processing records that are found good,
and by committing. Processing takes no row away, so in a reached ledger every balance and
every reference can be read, votes are in polls that are there, an AT has a reference from
its deployment on, and no AT has a state, since nothing that is processed saves one.
-/

namespace ChainLedger

open Change

variable {params : ChainParams} {s t : Session} {r : Record} {x : Submission}
  {changes : List Change}

/-- The ledger is reached by processing accepted records and committing. -/
inductive Session.Reached : Session → Prop
  | empty : Reached OrderedMap.empty.session
  | processed {s : Session} {x : Submission} (reached : Reached s) (accepted : x.IsAccepted s)
      (done : (x.processed s).outcome = .ok ()) : Reached (x.processed s).session
  | commit {s : Session} (reached : Reached s) : Reached s.commit.session

/-- What all reached ledgers have in common. -/
structure Session.Coherent (s : Session) : Prop where
  balance : ∀ account asset, s.Legible (.balance account asset)
  reference : ∀ account, s.Legible (.reference account)
  /-- No AT has a state. -/
  stateless : ∀ key, Cell.keyOf "at-state/" [] <+: key → s.get? key = none
  /-- An AT has a reference. -/
  deployed : ∀ address, s.holds (.deployedAt address) = true →
    ∃ reference, s.lastReference address = .ok (some reference)
  /-- Votes are in polls. -/
  voted : ∀ name voter, s.holds (.vote name voter) = true → s.holds (.poll name) = true

/-! ## Changes that take nothing away -/

/-- A row that is there after changes was there before or is one that a change may write. -/
theorem Change.holds_or_writes {c : Cell} (held : (makeAll changes s).session.holds c = true) :
    s.holds c = true ∨ ∃ change ∈ changes, change.Writes c.key := by
  by_cases written : ∃ change ∈ changes, change.Writes c.key
  · exact .inr written
  · have apart : ∀ change ∈ changes, ¬change.Writes c.key :=
      fun change member writes => written ⟨change, member, writes⟩
    rw [Session.holds, Session.contains, get?_makeAll apart] at held
    exact .inl held

theorem Session.isSome_get?_write {key : Bytes} (held : (s.get? key).isSome) (c : Cell)
    (value : c.Value) : ((s.write c value).get? key).isSome := by
  rw [get?_write]
  split
  next => rfl
  next => exact held

/-- No row is taken away by what processing makes. -/
theorem Record.Makes.isSome_get? {change : Change} {key : Bytes} (makes : r.Makes params change)
    (held : (s.get? key).isSome) : ((change.make s).session.get? key).isSome := by
  cases makes with
  | adjust =>
    simp only [make, Session.adjustBalance]
    cases s.balance _ _ with
    | error => exact held
    | ok => exact Session.isSome_get?_write held _ _
  | introduce =>
    simp only [make]
    cases s.lastReference _ with
    | error => exact held
    | ok last =>
      cases last with
      | none => exact Session.isSome_get?_write held _ _
      | some => exact held
  | saveTransaction =>
    simp only [make, Session.saveTransaction]
    cases Session.storedUnder _ with
    | error => exact held
    | ok => exact Session.isSome_get?_write held _ _
  | saveAsset =>
    exact Session.isSome_get?_write (Session.isSome_get?_write held _ _) (.asset _) _
  | allocate | bring => exact Session.isSome_get?_write held (.balance _ _) _
  | setReference => exact Session.isSome_get?_write held (.reference _) _
  | savePoll => exact Session.isSome_get?_write held (.poll _) _
  | saveVote => exact Session.isSome_get?_write held (.vote _ _) _
  | saveAt => exact Session.isSome_get?_write held (.deployedAt _) _

/-- **No row is taken away by processing.** -/
theorem Record.isSome_get?_makeAll {key : Bytes}
    (makes : ∀ change ∈ changes, r.Makes params change) (held : (s.get? key).isSome) :
    ((makeAll changes s).session.get? key).isSome := by
  induction changes generalizing s with
  | nil => exact held
  | cons change rest ih =>
    rw [List.forall_mem_cons] at makes
    have first := makes.1.isSome_get? held
    cases made : (change.make s).outcome with
    | ok => exact makeAll_cons_of_ok made rest ▸ ih makes.2 first
    | error error => exact makeAll_cons_of_error made rest ▸ first

/-- A reference is replaced but not taken away by what processing makes. -/
theorem Record.Makes.lastReference {change : Change} {account : Address}
    {last : Except DataError (Option Signature)} (makes : r.Makes params change)
    (known : ∃ reference, last = .ok (some reference)) :
    ∃ reference, change.onReference account last = .ok (some reference) := by
  obtain ⟨reference, rfl⟩ := known
  cases makes with
  | setReference | introduce =>
    simp only [Change.onReference]
    split <;> exact ⟨_, rfl⟩
  | _ => exact ⟨reference, rfl⟩

theorem Record.lastReference_makeAll_some {account : Address}
    {last : Except DataError (Option Signature)}
    (makes : ∀ change ∈ changes, r.Makes params change)
    (known : ∃ reference, last = .ok (some reference)) :
    ∃ reference, onReferenceAll account changes last = .ok (some reference) := by
  induction changes generalizing last with
  | nil => exact known
  | cons change rest ih =>
    rw [List.forall_mem_cons] at makes
    exact ih makes.2 (makes.1.lastReference known)

/-- States are not among what processing makes. -/
theorem Record.Makes.stateless {change : Change} (makes : r.Makes params change) :
    "at-state/" ∉ change.families := by
  cases makes <;> simp [families]

/-- Only a deployment saves an AT, the one that it deploys. -/
theorem Record.Makes.deployed {change : Change} {address : Address}
    (makes : r.Makes params change) (writes : change.Writes (Cell.deployedAt address).key) :
    r.deployed? params = some address := by
  have family := family_mem_of_writes writes
  cases makes with
  | saveAt placed =>
    cases Cell.key_injective writes
    exact placed
  | _ => simp [Cell.family, families] at family

/-- Only a ballot saves a vote, in the poll that it names. -/
theorem Record.Makes.voted {change : Change} {name : String} {voter : PublicKey}
    (makes : r.Makes params change) (writes : change.Writes (Cell.vote name voter).key) :
    ∃ envelope b, r = .standard envelope (.voteOnPoll b) ∧ b.poll = name := by
  have family := family_mem_of_writes writes
  cases makes with
  | saveVote =>
    cases Cell.key_injective writes
    exact ⟨_, _, rfl, rfl⟩
  | _ => simp [Cell.family, families] at family

/-- The record is stored under its own signature. -/
theorem Record.Makes.stored {change : Change} {signature : Signature}
    (makes : r.Makes params change) (writes : change.Writes (Cell.transaction signature).key) :
    r.signature? = some signature := by
  have family := family_mem_of_writes writes
  cases makes with
  | saveTransaction same =>
    obtain ⟨under, signed, key⟩ := writes
    cases Cell.key_injective key
    exact same.symm.trans signed
  | _ => simp [Cell.family, families] at family

/-! ## What is kept -/

namespace Session.Coherent

theorem empty : OrderedMap.empty.session.Coherent where
  balance _ _ := legible_empty _
  reference _ := legible_empty _
  stateless _ _ := rfl
  deployed _ held := by cases held
  voted _ _ held := by cases held

theorem congr (coherent : s.Coherent) (same : s.Agree t) : t.Coherent where
  balance account asset := (coherent.balance account asset).congr (same _).symm
  reference account := (coherent.reference account).congr (same _).symm
  stateless key leads := (same key).symm.trans (coherent.stateless key leads)
  deployed address held := by
    rw [← same.lastReference]
    exact coherent.deployed address (same.holds _ ▸ held)
  voted name voter held := by
    rw [← same.holds]
    exact coherent.voted name voter (same.holds _ ▸ held)

/-- **Processing keeps the ledger coherent.** -/
theorem processed (coherent : s.Coherent) (accepted : x.IsAccepted s)
    (done : (x.processed s).outcome = .ok ()) : (x.processed s).session.Coherent := by
  obtain ⟨good, -⟩ := Submission.isAccepted_iff.mp accepted
  obtain ⟨signature, plan, signed, planned, made, left⟩ := accepted.exists_of_processed done
  have makes := Record.makes_processing planned
  have left' : (x.processed s).session = (makeAll plan.changes s).session :=
    congrArg Step.session left
  constructor
  case balance =>
    intro account asset
    have possible : (Change.adjust account asset Amount.zero).Makeable
        (makeAll plan.changes s).session :=
      makeable_makeAll trivial (coherent.balance account asset) made
    exact left' ▸ possible
  case reference =>
    intro account
    have possible : (Change.introduce account .zero).Makeable
        (makeAll plan.changes s).session :=
      makeable_makeAll trivial (coherent.reference account) made
    exact left' ▸ possible
  case stateless =>
    intro key leads
    rw [left', get?_makeAll, coherent.stateless key leads]
    intro change member
    exact not_writes_of_front (by simp [Cell.families]) leads (makes change member).stateless
  case deployed =>
    intro address held
    rcases holds_or_writes (left' ▸ held) with before | ⟨change, member, writes⟩
    · rw [left', lastReference_makeAll made]
      exact Record.lastReference_makeAll_some makes (coherent.deployed address before)
    · have placed := (makes change member).deployed writes
      cases standard : x.record with
      | genesis g => simp [standard, Record.deployed?] at placed
      | standard envelope action =>
        refine ⟨signature, ?_⟩
        rw [Submission.lastReference_processed standard accepted signed done, Record.onReference,
          if_pos (.inr placed)]
  case voted =>
    intro name voter held
    rcases holds_or_writes (left' ▸ held) with before | ⟨change, member, writes⟩
    · exact left' ▸ Record.isSome_get?_makeAll makes (coherent.voted name voter before)
    · obtain ⟨envelope, b, standard, rfl⟩ := (makes change member).voted writes
      have polled : s.holds (.poll b.poll) = true := by
        rw [standard] at good
        exact Ballot.polled_of_rules (Record.rules_of_verdict good)
      exact left' ▸ Record.isSome_get?_makeAll makes polled

end Session.Coherent

/-- In a coherent ledger what is planned is carried out. -/
theorem Session.Coherent.makeAll_planned {signature : Signature} {plan : Plan}
    (coherent : s.Coherent) (signed : r.signature? = some signature)
    (planned : r.processing params s signature = .ok plan) :
    (makeAll plan.changes s).outcome = .ok () :=
  Record.makeAll_planned coherent.balance coherent.reference signed planned

theorem Session.Coherent.processed_eq_ok {signature : Signature} {plan : Plan}
    (coherent : s.Coherent) (accepted : x.IsAccepted s)
    (signed : x.record.signature? = some signature)
    (planned : x.record.processing x.params s signature = .ok plan) :
    (x.processed s).outcome = .ok () := by
  rw [accepted.processed_eq_of_plan signed planned (coherent.makeAll_planned signed planned)]

/-- What is left is what the changes that are planned leave. -/
theorem Session.Coherent.after_eq {signature : Signature} {plan : Plan} (coherent : s.Coherent)
    (accepted : x.IsAccepted s) (signed : x.record.signature? = some signature)
    (planned : x.record.processing x.params s signature = .ok plan) :
    x.after s = (makeAll plan.changes s).session := by
  rw [accepted.after_eq,
    accepted.processed_eq_of_plan signed planned (coherent.makeAll_planned signed planned)]

/-- A record that is not stored is still not stored after another one is processed. -/
theorem Submission.unstored_processed {signature other : Signature} (accepted : x.IsAccepted s)
    (signed : x.record.signature? = some signature) (done : (x.processed s).outcome = .ok ())
    (different : other ≠ signature) (unstored : s.holds (.transaction other) = false) :
    (x.processed s).session.holds (.transaction other) = false := by
  obtain ⟨used, plan, signed', planned, -, left⟩ := accepted.exists_of_processed done
  obtain rfl := Option.some.inj (signed'.symm.trans signed)
  rw [left]
  refine Bool.eq_false_iff.mpr fun held => ?_
  rcases holds_or_writes held with before | ⟨change, member, writes⟩
  · rw [unstored] at before
    cases before
  · have own := (Record.makes_processing planned change member).stored writes
    exact different (Option.some.inj (own.symm.trans signed))

theorem Session.Reached.coherent (reached : s.Reached) : s.Coherent := by
  induction reached with
  | empty => exact .empty
  | processed reached accepted done ih => exact ih.processed accepted done
  | commit reached ih => exact ih.congr (.commit _)

/-- What is planned for an accepted record leads to a ledger that is reached too. -/
theorem Session.Reached.after {signature : Signature} {plan : Plan} (reached : s.Reached)
    (accepted : x.IsAccepted s) (signed : x.record.signature? = some signature)
    (planned : x.record.processing x.params s signature = .ok plan) : (x.after s).Reached := by
  rw [accepted.after_eq]
  exact .processed reached accepted (reached.coherent.processed_eq_ok accepted signed planned)

/-! ## A ledger to start from -/

namespace openedLedger

/-- The account that has the coins. -/
def account : Address := Address.ofPublicKey (.fill 6 : PublicKey).bytes

/-- The reference of the account. -/
def firstReference : Signature := openingAllocation.signature?.getD (.fill 0)

/-- A signature that is no hash twice, as the one of an allocation is. -/
def laterSignature : Signature := ⟨1 :: List.replicate 63 0, rfl⟩

theorem account_eq : account = "QVbN9WGbczLY4rPWUxzEmipQjgr2m9dQmt" :=
  Address.Sample.ofPublicKey_key

theorem accepted : ∃ signature, openingAllocation.signature? = some signature ∧
    (Submission.mk .allReleased openingAllocation).IsAccepted OrderedMap.empty.session :=
  Genesis.exists_accepted .allReleased OrderedMap.empty.session Address.Sample.isValid_account
    (by decide)

theorem reached : openedLedger.Reached := by
  obtain ⟨signature, signed, accepted⟩ := accepted
  exact Session.Reached.empty.after accepted signed rfl

/-- Only the allocation is stored, under one hash twice. -/
theorem unstored : openedLedger.holds (.transaction laterSignature) = false := by
  have halves : laterSignature.bytes.take 32 ≠ laterSignature.bytes.drop 32 := by decide
  obtain ⟨known, signed, accepted⟩ := accepted
  have done := Session.Coherent.empty.processed_eq_ok accepted signed rfl
  rw [openedLedger, accepted.after_eq]
  refine Submission.unstored_processed accepted signed done ?_ rfl
  rintro rfl
  exact halves (Genesis.halves_of_signature signed)

/-- Only the account with the coins has a reference. -/
theorem unreferred {other : Address} (different : other ≠ account) :
    openedLedger.lastReference other = .ok none := by
  rw [account_eq] at different
  obtain ⟨signature, signed, accepted⟩ := accepted
  obtain ⟨_, rfl, made, left⟩ := accepted.made_genesis signed
  rw [openedLedger, openingAllocation, left, lastReference_makeAll made]
  simp [onReferenceAll, onReference, different]
  rfl

/-- The one reference is a hash twice, and no signature with two halves. -/
theorem lastReference_ne {signature : Signature} (holder : Address)
    (halves : signature.bytes.take 32 ≠ signature.bytes.drop 32) :
    openedLedger.lastReference holder ≠ .ok (some signature) := by
  intro same
  by_cases here : holder = account
  · obtain ⟨known, signed, -⟩ := accepted
    have first : firstReference = known := congrArg (fun known => known.getD (.fill 0)) signed
    have used := openedLedger.opened.1.symm.trans (here ▸ same)
    have given : firstReference = signature := Option.some.inj (Except.ok.inj used)
    exact halves (Genesis.halves_of_signature (signed.trans (congrArg some (first ▸ given))))
  · rw [unreferred here] at same
    cases same

end openedLedger

end ChainLedger

import ChainLedger.Proofs.Run.Reached
import ChainLedger.Proofs.Transaction.Retraction

/-!
# Publications that are taken back

Orphaning the creation of a poll removes the rows of all keys that begin like those of the
votes in it. The name of a poll is closed by a zero byte in these keys, and names may have
zero bytes in them, so that votes in other polls can be among them. A publication is taken
back without a trace exactly if no vote that is there stands under such a key, in particular
if no name has a zero byte.
-/

namespace ChainLedger

open Change

/-! ## The keys of the votes in a poll -/

namespace Cell

variable {name other : String} {voter : PublicKey}

/-- **Whose votes stand under the keys of a poll.** These are its own, those in polls whose name
goes on after its name and a zero byte, and those in polls whose name and a zero byte begin its
name, if what is left of it and a zero byte begin the voter's key. -/
theorem votesIn_isPrefix_iff :
    votesIn name <+: (vote other voter).key ↔
      other = name ∨ closed name <+: Text.bytesOf other ∨
        ∃ rest, Text.bytesOf name = closed other ++ rest ∧ rest ++ [0] <+: voter.bytes := by
  rw [votesIn, key, keyOf, keyOf, List.prefix_append_right_inj]
  constructor
  · intro leads
    rcases List.prefix_or_prefix_of_prefix leads (List.prefix_append (closed other) voter.bytes)
      with shorter | longer
    · rcases List.prefix_concat_iff.mp shorter with same | inside
      · exact .inl (closed_injective same).symm
      · exact .inr (.inl inside)
    · rcases List.prefix_concat_iff.mp longer with same | ⟨rest, split⟩
      · exact .inl (closed_injective same)
      · refine .inr (.inr ⟨rest, split.symm, ?_⟩)
        rwa [closed, ← split, List.append_assoc, List.prefix_append_right_inj] at leads
  · rintro (rfl | inside | ⟨rest, split, begins⟩)
    · exact List.prefix_append ..
    · exact inside.trans ((List.prefix_append _ [0]).trans (List.prefix_append ..))
    · rw [closed, split, List.append_assoc, List.prefix_append_right_inj]
      exact begins

/-- Names without zero bytes keep the votes of polls apart. -/
theorem eq_of_votesIn_isPrefix (clean : 0 ∉ Text.bytesOf name) (clean' : 0 ∉ Text.bytesOf other)
    (leads : votesIn name <+: (vote other voter).key) : other = name := by
  rcases votesIn_isPrefix_iff.mp leads with same | inside | ⟨rest, split, -⟩
  · exact same
  · exact absurd (inside.subset (by simp [closed])) clean'
  · exact absurd (by simp [split, closed]) clean

end Cell

section Publications

variable {params : ChainParams} {s : Session} {envelope : Envelope} {c : PollCreation}
  {signature : Signature}

/-! ## Publishing and taking back -/

/-- A publication: the poll, who pays what for it, and the record that is stored of it. -/
structure Publication where
  poll : Poll
  creator : Address
  fee : Amount
  signature : Signature
  reference : Signature
  record : Record

namespace Publication

/-- What a publication changes. -/
def changes (x : Publication) : List Change :=
  .savePoll x.poll :: chargeFee x.creator x.fee x.signature

/-- What takes a publication back. -/
def undoing (x : Publication) : List Change :=
  .deletePoll x.poll.name :: refundFee x.creator x.fee x.reference

variable {x : Publication}

/-- A publication that is taken back leaves every balance as it was. -/
theorem onBalanceAll_undoing (account : Address) (asset : AssetId)
    (balance : Except DataError Amount) :
    onBalanceAll account asset (x.changes ++ x.undoing) balance = balance := by
  have settled : onBalanceAll account asset (chargeFee x.creator x.fee x.signature ++
      refundFee x.creator x.fee x.reference) balance = balance :=
    onBalanceAll_fee balance
  rw [onBalanceAll_append] at settled ⊢
  exact settled

/-- It leaves every reference as it was too. -/
theorem onReferenceAll_undoing {account : Address} {last : Except DataError (Option Signature)}
    (known : account = x.creator → last = .ok (some x.reference)) :
    onReferenceAll account (x.changes ++ x.undoing) last = last := by
  rw [onReferenceAll_append, changes, undoing, onReferenceAll_cons, onReferenceAll_cons,
    onReferenceAll_chargeFee, onReferenceAll_refundFee]
  split
  next same => exact (known same).symm
  next => rfl

/-- No stored record is touched on the way there or back. -/
theorem notMem_families : ∀ change ∈ x.changes ++ x.undoing, "tx/" ∉ change.families := by
  simp [changes, undoing, chargeFee, refundFee, families]

/-! ## Rows -/

section Rows

variable (coherent : s.Coherent) (signed : x.record.isSigned = true)
include coherent signed

/-- In a coherent ledger a publication is carried out, and its record stored and removed. -/
theorem makeAll_changes : (makeAll (x.changes ++ storeAndRemove x.record) s).outcome = .ok () := by
  apply makeAll_eq_ok
  · simp [changes, chargeFee, storeAndRemove, IsSteady]
  · simp [changes, chargeFee, storeAndRemove, Makeable, signed, coherent.balance]

/-- It is then taken back. -/
theorem makeAll_undoing :
    (makeAll (x.changes ++ storeAndRemove x.record ++ x.undoing) s).outcome = .ok () := by
  have made := makeAll_changes coherent signed
  refine makeAll_append_eq_ok_iff.mpr ⟨made, makeAll_of_repeatable ?_ made⟩
  refine List.forall_mem_cons.mpr ⟨⟨trivial, .inl fun _ => trivial⟩, fun change member => ?_⟩
  exact (repeatable_refund change member).mono fun _ => List.mem_cons_of_mem _

/-- Cells of other families than those of balances, references and records hold what they held,
but for the poll and what stands under the keys of votes in it. -/
theorem read_undoing {d : Cell} (other : d.family ∉ ["balance/", "reference/", "tx/"]) :
    (makeAll (x.changes ++ storeAndRemove x.record ++ x.undoing) s).session.read d =
      if d = .poll x.poll.name ∨ Cell.votesIn x.poll.name <+: d.key then .ok none
      else s.read d := by
  have made := makeAll_changes coherent signed
  have onAccounts : ∀ change ∈ chargeFee x.creator x.fee x.signature ++
      refundFee x.creator x.fee x.reference, change.OnAccounts := brackets_fee.onAccounts
  simp only [List.mem_cons, List.not_mem_nil, or_false, not_or] at other
  have others : d.family ∉ ["balance/", "reference/"] := by simp [other]
  rw [makeAll_append_of_ok made, undoing, makeAll_cons_of_ok rfl,
    read_makeAll_of_onAccounts (fun change member => onAccounts change
      (List.mem_append_right _ member)) others]
  split
  next removed =>
    rw [Session.read, make, Written.done, get?_deletePoll, if_pos]
    exact removed.imp_left (congrArg Cell.key)
  next kept =>
    have unwritten : ¬(Change.deletePoll x.poll.name).Writes d.key := fun writes =>
      kept (writes.imp_left Cell.key_injective)
    have unsaved : ¬(Change.savePoll x.poll).Writes d.key := fun writes =>
      kept (.inl (Cell.key_injective writes))
    rw [Session.read_congr (get?_make unwritten _),
      makeAll_append_of_ok (makeAll_append_eq_ok_iff.mp made).1, read_storeAndRemove other.2.2,
      changes, makeAll_cons_of_ok rfl, read_makeAll_of_onAccounts (fun change member =>
        onAccounts change (List.mem_append_left _ member)) others,
      Session.read_congr (get?_make unsaved s)]

theorem vote?_undoing (name : String) (voter : PublicKey) :
    (makeAll (x.changes ++ storeAndRemove x.record ++ x.undoing) s).session.vote? name voter =
      if Cell.votesIn x.poll.name <+: (Cell.vote name voter).key then .ok none
      else s.vote? name voter := by
  have row := read_undoing (d := .vote name voter) coherent signed (by simp [Cell.family])
  simpa [Session.vote?] using row

/-- All polls are as they were if the one that was published was not there. -/
theorem poll?_undoing (unpublished : s.poll? x.poll.name = .ok none) (name : String) :
    (makeAll (x.changes ++ storeAndRemove x.record ++ x.undoing) s).session.poll? name =
      s.poll? name := by
  have row := read_undoing (d := .poll name) coherent signed (by simp [Cell.family])
  rw [Session.poll?, row]
  split
  next removed =>
    rcases removed with same | leads
    · cases same
      exact unpublished.symm
    · have family := Cell.family_eq_of_isPrefix (by simp [Cell.families]) leads
      simp [Cell.family] at family
  next => rfl

end Rows

/-! ## What is restored -/

section Restored

variable (coherent : s.Coherent) (signed : x.record.signature? = some signature)
  (known : s.lastReference x.creator = .ok (some x.reference))
  (unpublished : s.poll? x.poll.name = .ok none)
include coherent signed known unpublished

/-- Where no vote stands under the keys of the poll, the publication is undone. -/
theorem undoes (apart : ∀ name voter, s.holds (.vote name voter) = true →
      ¬Cell.votesIn x.poll.name <+: (Cell.vote name voter).key) :
    Undoes s x.record x.changes x.undoing where
  apart := notMem_families
  succeeds _ := by
    have made := makeAll_undoing coherent (Option.isSome_iff_exists.mpr ⟨signature, signed⟩)
    exact (makeAll_append_eq_ok_iff.mp made).2
  balances account asset := onBalanceAll_undoing account asset _
  references account := onReferenceAll_undoing fun same => same ▸ known
  others d other made := by
    rw [read_undoing coherent (Option.isSome_iff_exists.mpr ⟨signature, signed⟩) other]
    split
    next removed =>
      rcases removed with rfl | leads
      · exact unpublished.symm
      · -- What begins like a vote is one.
        have family : d.family = "vote/" :=
          Cell.family_eq_of_isPrefix (by simp [Cell.families]) leads
        cases d <;> simp [Cell.family] at family
        case vote name voter =>
          exact (Session.read_of_not_holds
            (Bool.eq_false_iff.mpr fun held => apart name voter held leads)).symm
    next => rfl

/-- **The ledger is restored exactly if no vote stands under the keys of the poll.** -/
theorem alike_undoing_iff (unstored : s.holds (.transaction signature) = false) :
    s.Alike (makeAll (x.changes ++ storeAndRemove x.record ++ x.undoing) s).session ↔
      ∀ name voter, s.holds (.vote name voter) = true →
        ¬Cell.votesIn x.poll.name <+: (Cell.vote name voter).key := by
  have stored : x.record.isSigned = true := Option.isSome_iff_exists.mpr ⟨signature, signed⟩
  constructor
  · intro alike name voter held leads
    have lost := read_undoing (d := .vote name voter) coherent stored (by simp [Cell.family])
    rw [if_pos (Or.inr leads), ← alike.read _ (by simp)] at lost
    exact Bool.false_ne_true (Session.not_holds_of_read lost ▸ held)
  · intro apart
    exact (undoes coherent signed known unpublished apart).alike signed unstored
      (makeAll_changes coherent stored)

end Restored

end Publication

/-! ## Publications in reached ledgers -/

/-- There are no votes in a poll that is not there. -/
theorem Session.Coherent.unvoted {name : String} (coherent : s.Coherent)
    (unpublished : s.poll? name = .ok none) (voter : PublicKey) :
    s.holds (.vote name voter) = false := by
  refine Bool.eq_false_iff.mpr fun held => ?_
  have polled := coherent.voted name voter held
  rw [Session.not_holds_of_read unpublished] at polled
  cases polled

/-- The publication that the creation of a poll makes. -/
def PollCreation.publication (c : PollCreation) (envelope : Envelope) (signature : Signature) :
    Publication where
  poll := c.toPoll envelope.timestamp
  creator := (Action.createPoll c).creator
  fee := envelope.fee
  signature := signature
  reference := envelope.reference
  record := .standard envelope (.createPoll c)

/-- In a coherent ledger a creation is processed and then orphaned, which makes the changes of
its publication and those that take it back. -/
theorem PollCreation.undone (params : ChainParams) (coherent : s.Coherent)
    (signed : (Record.standard envelope (.createPoll c)).signature? = some signature) :
    let x := c.publication envelope signature
    let done := (Transaction.mk (.standard envelope (.createPoll c)) .valid).process params s
    let undone := done.transaction.orphan done.session
    done.outcome = .ok () ∧ undone.outcome = .ok () ∧
      undone.session = (makeAll (x.changes ++ storeAndRemove x.record ++ x.undoing) s).session := by
  have planned : (Action.createPoll c).processing params s signature envelope = .ok _ := rfl
  have made := Publication.makeAll_undoing (x := c.publication envelope signature) coherent
    (Option.isSome_iff_exists.mpr ⟨signature, signed⟩)
  obtain ⟨done, undone⟩ := Transaction.orphan_process_valid signed planned rfl made
  exact ⟨done, congrArg Step.outcome undone, congrArg Step.session undone⟩

/-- **A publication is taken back without a trace exactly if no vote stands under the keys of its
poll.** In a reached ledger a good signed creation of a poll whose signature is no stored record's
is processed and then orphaned. All balances, references and polls are as before, and so are all
votes but those under keys that begin like those of votes in the poll, which are gone. Where no
name has a zero byte there are none of them. -/
theorem publication_undone {t : Transaction} (reached : s.Reached)
    (signed : (Record.standard envelope (.createPoll c)).signature? = some signature)
    (unstored : s.holds (.transaction signature) = false)
    (judged : (Transaction.received (.standard envelope (.createPoll c))).validate params s =
      (.ok .ok, t)) :
    let done := t.process params s
    let undone := done.transaction.orphan done.session
    done.outcome = .ok () ∧ undone.outcome = .ok () ∧
      (∀ account asset, undone.session.balance account asset = s.balance account asset) ∧
      (∀ account, undone.session.lastReference account = s.lastReference account) ∧
      (∀ name, undone.session.poll? name = s.poll? name) ∧
      (∀ name voter, undone.session.vote? name voter =
        if Cell.votesIn c.name <+: (Cell.vote name voter).key then .ok none
        else s.vote? name voter) ∧
      (0 ∉ Text.bytesOf c.name → ∀ name voter, 0 ∉ Text.bytesOf name →
        undone.session.vote? name voter = s.vote? name voter) ∧
      (s.Alike undone.session ↔ ∀ name voter, s.holds (.vote name voter) = true →
        ¬Cell.votesIn c.name <+: (Cell.vote name voter).key) := by
  rcases Transaction.validate_received_eq_iff.mp judged with ⟨good, rfl⟩
  have coherent := reached.coherent
  have known := Record.lastReference_of_verdict good
  have unpublished := PollCreation.poll?_of_rules (Record.rules_of_verdict good)
  obtain ⟨done, undone, left⟩ := PollCreation.undone params coherent signed
  refine ⟨done, undone, ?_⟩
  rw [left]
  have stored : (c.publication envelope signature).record.isSigned = true :=
    Option.isSome_iff_exists.mpr ⟨signature, signed⟩
  have votes := Publication.vote?_undoing (x := c.publication envelope signature) coherent stored
  refine ⟨fun account asset => ?_, fun account => ?_, ?_, votes, fun clean name voter clean' => ?_,
    ?_⟩
  · rw [balance_makeAll_undoing (Publication.makeAll_undoing coherent stored),
      Publication.onBalanceAll_undoing]
  · rw [lastReference_makeAll_undoing (Publication.makeAll_undoing coherent stored),
      Publication.onReferenceAll_undoing fun same => same ▸ known]
  · exact Publication.poll?_undoing coherent stored unpublished
  · rw [votes]
    split
    next leads =>
      have own : name = c.name := Cell.eq_of_votesIn_isPrefix clean clean' leads
      rw [own]
      exact (Session.read_of_not_holds (coherent.unvoted unpublished voter)).symm
    next => rfl
  · exact Publication.alike_undoing_iff coherent signed known unpublished unstored

end Publications

/-! ## Polls with like names -/

open openedLedger (account firstReference laterSignature)

namespace Publication.Sample

/-- The account creates a poll with one option. -/
def creation (name : String) : PollCreation :=
  ⟨.fill 6, "QVbN9WGbczLY4rPWUxzEmipQjgr2m9dQmt", name, "a poll", ["yes"]⟩

/-- Its key votes in a poll. -/
def ballot (name : String) : Ballot := ⟨.fill 6, name, 0, none⟩

/-- What the records of both have in common. -/
def envelope (reference signature : Signature) : Envelope := ⟨1, reference, ⟨100⟩, some signature⟩

def record (name : String) (reference signature : Signature) : Record :=
  .standard (envelope reference signature) (.createPoll (creation name))

def vote (name : String) (reference signature : Signature) : Record :=
  .standard (envelope reference signature) (.voteOnPoll (ballot name))

/-- How the account stands: it has a reference and coins, in a ledger that is reached and in
which a later signature is no stored record's. -/
structure Standing (s : Session) (reference : Signature) (held : Amount) : Prop where
  reached : s.Reached
  known : s.lastReference account = .ok (some reference)
  funded : s.balance account nativeAsset = .ok held
  unstored : s.holds (.transaction laterSignature) = false

theorem standing_openedLedger : Standing openedLedger firstReference ⟨1000⟩ where
  reached := openedLedger.reached
  known := openedLedger.opened.1
  funded := openedLedger.opened.2
  unstored := openedLedger.unstored

section Steps

variable {s : Session} {reference signature : Signature} {held : Amount} {r : Record}
  {change : Change} {name : String}

/-- A record of the account makes one change and pays the fee. -/
structure Pays (s : Session) (r : Record) (signature : Signature) (change : Change) : Prop where
  accepted : (Submission.mk .allReleased r).IsAccepted s
  signed : r.signature? = some signature
  planned : r.processing .allReleased s signature =
    .ok (.same r (change :: chargeFee account ⟨100⟩ signature ++ [.saveTransaction r]))
  untouched : ∀ balance, change.onBalance account nativeAsset balance = balance

theorem Pays.judged (pays : Pays s r signature change) :
    (Transaction.received r).validate .allReleased s = (.ok .ok, ⟨r, .valid⟩) :=
  Transaction.validate_received_eq_iff.mpr ⟨(Submission.isAccepted_iff.mp pays.accepted).1, rfl⟩

/-- Past the change only balances, references and records are written. -/
theorem Pays.get?_after (pays : Pays s r signature change) (reached : s.Reached) {c : Cell}
    (other : c.family ∉ ["balance/", "reference/", "tx/"]) :
    ((Submission.mk .allReleased r).after s).get? c.key = (change.make s).session.get? c.key := by
  have made := reached.coherent.makeAll_planned pays.signed pays.planned
  rw [reached.coherent.after_eq pays.accepted pays.signed pays.planned, Plan.same, List.cons_append,
    makeAll_cons_of_ok (makeAll_cons_eq_ok_iff.mp made).1]
  refine get?_makeAll (fun change member => not_writes_of_family fun among => other ?_) _
  simp only [chargeFee, List.cons_append, List.nil_append, List.mem_cons, List.not_mem_nil,
    or_false] at member
  rcases member with rfl | rfl | rfl <;> simp [families] at among <;> simp [among]

theorem Standing.after (standing : Standing s reference held) (pays : Pays s r signature change)
    (different : laterSignature ≠ signature) :
    Standing ((Submission.mk .allReleased r).after s) signature (held + -⟨100⟩) := by
  have coherent := standing.reached.coherent
  have made := coherent.makeAll_planned pays.signed pays.planned
  have left := coherent.after_eq pays.accepted pays.signed pays.planned
  constructor
  case reached => exact standing.reached.after pays.accepted pays.signed pays.planned
  case known =>
    rw [left, lastReference_makeAll made]
    simp [Plan.same, chargeFee, onReferenceAll, onReference]
  case funded =>
    rw [left, balance_makeAll made, standing.funded, Plan.same, List.cons_append,
      onBalanceAll_cons, pays.untouched]
    simp [chargeFee, onBalanceAll, onBalance, Except.map]
  case unstored =>
    have done := coherent.processed_eq_ok pays.accepted pays.signed pays.planned
    rw [pays.accepted.after_eq]
    exact Submission.unstored_processed pays.accepted pays.signed done different standing.unstored

theorem record_pays (standing : Standing s reference held) (enough : 100 ≤ held.toInt)
    (fits : FitsLimit name Limits.pollName) (lowerCase : Text.isLowerCase name = true)
    (unpublished : s.holds (.poll name) = false) :
    Pays s (record name reference signature) signature (.savePoll ((creation name).toPoll 1)) where
  accepted := Submission.isAccepted_iff.mpr ⟨PollCreation.verdict_eq_ok standing.known rfl
    Address.Sample.isValid_account fits
    (by decide : FitsLimit "a poll" Limits.pollDescription) lowerCase unpublished rfl
    (by decide : ∀ rule ∈ PollCreation.optionRules [] ["yes"], rule.holds = .ok true)
    (by decide : 0 < (⟨100⟩ : Amount).toInt) standing.funded enough, signature, rfl⟩
  signed := rfl
  planned := rfl
  untouched _ := rfl

theorem vote_pays (standing : Standing s reference held) (enough : 100 ≤ held.toInt)
    (fits : FitsLimit name Limits.pollName) (lowerCase : Text.isLowerCase name = true)
    (published : s.poll? name = .ok (some ((creation name).toPoll 1)))
    (unvoted : s.holds (.vote name (.fill 6)) = false) :
    Pays s (vote name reference signature) signature (.saveVote (ballot name).toVote) where
  accepted := Submission.isAccepted_iff.mpr ⟨Ballot.verdict_eq_ok standing.known rfl fits lowerCase
    published rfl unvoted (by decide : 0 < (⟨100⟩ : Amount).toInt) standing.funded enough,
    signature, rfl⟩
  signed := rfl
  planned := Record.processing_standard_eq_ok_iff.mpr ⟨_,
    Action.processing_voteOnPoll_eq_ok_iff.mpr ⟨none, Session.read_of_not_holds unvoted, rfl⟩, rfl⟩
  untouched _ := rfl

/-- The poll is then there, -/
theorem Pays.published
    (pays : Pays s (record name reference signature) signature
      (.savePoll ((creation name).toPoll 1))) (reached : s.Reached)
    (storable : ((creation name).toPoll 1).Storable) :
    ((Submission.mk .allReleased (record name reference signature)).after s).poll? name =
      .ok (some ((creation name).toPoll 1)) := by
  refine (Session.read_congr (pays.get?_after reached (by simp [Cell.family]))).trans ?_
  exact Session.read_write_self (c := .poll name) Poll.form_readsBack s storable

/-- and there are no more votes than before. -/
theorem Pays.unvoted
    (pays : Pays s (record name reference signature) signature
      (.savePoll ((creation name).toPoll 1))) (reached : s.Reached) {voter : PublicKey}
    (unvoted : s.holds (.vote name voter) = false) :
    ((Submission.mk .allReleased (record name reference signature)).after s).holds
      (.vote name voter) = false := by
  rw [Session.holds, Session.contains, pays.get?_after reached (by simp [Cell.family])]
  change ((s.write (.poll name) _).get? _).isSome = false
  rw [Session.get?_write, if_neg (by simp)]
  exact unvoted

end Steps

/-- The opened ledger with a poll whose name has a zero byte in it. -/
def polledLedger : Session :=
  (Submission.mk .allReleased (record "a\x00b" firstReference (.fill 170))).after openedLedger

/-- The account has voted in this poll. -/
def votedLedger : Session :=
  (Submission.mk .allReleased (vote "a\x00b" (.fill 170) (.fill 171))).after polledLedger

theorem openedLedger_pays :
    Pays openedLedger (record "a\x00b" firstReference (.fill 170)) (.fill 170)
      (.savePoll ((creation "a\x00b").toPoll 1)) :=
  record_pays standing_openedLedger (by decide) (by decide) (by decide)
    (openedLedger.holds_other (by simp [Cell.family]))

theorem standing_polledLedger : Standing polledLedger (.fill 170) (⟨1000⟩ + -⟨100⟩) :=
  standing_openedLedger.after openedLedger_pays (by decide)

/-- The rows of other families than those of balances, references and records. -/
theorem get?_polledLedger {c : Cell} (other : c.family ∉ ["balance/", "reference/", "tx/"]) :
    polledLedger.get? c.key =
      (openedLedger.savePoll ((creation "a\x00b").toPoll 1)).get? c.key :=
  openedLedger_pays.get?_after openedLedger.reached other

theorem polledLedger_pays : Pays polledLedger (vote "a\x00b" (.fill 170) (.fill 171)) (.fill 171)
    (.saveVote (ballot "a\x00b").toVote) := by
  have reached := openedLedger.reached
  exact vote_pays standing_polledLedger (by decide) (by decide) (by decide)
    (openedLedger_pays.published reached ⟨by decide, by decide, by decide, by decide, by decide⟩)
    (openedLedger_pays.unvoted reached (openedLedger.holds_other (by simp [Cell.family])))

theorem standing_votedLedger : Standing votedLedger (.fill 171) (⟨1000⟩ + -⟨100⟩ + -⟨100⟩) :=
  standing_polledLedger.after polledLedger_pays (by decide)

theorem get?_votedLedger {c : Cell} (other : c.family ∉ ["balance/", "reference/", "tx/"]) :
    votedLedger.get? c.key = (polledLedger.saveVote (ballot "a\x00b").toVote).get? c.key :=
  polledLedger_pays.get?_after standing_polledLedger.reached other

/-- The vote can be read. -/
theorem voted :
    votedLedger.vote? "a\x00b" (.fill 6) = .ok (some (ballot "a\x00b").toVote) := by
  have storable : (ballot "a\x00b").toVote.Storable :=
    (by decide : Form.Fits (Text.size "a\x00b"))
  refine (Session.read_congr (get?_votedLedger (by simp [Cell.family]))).trans ?_
  exact Session.read_write_self (c := .vote "a\x00b" (.fill 6)) Vote.form_readsBack polledLedger
    storable

/-- There is no poll of the name up to the zero byte. -/
theorem unpublished : votedLedger.holds (.poll "a") = false := by
  have before : openedLedger.holds (.poll "a") = false :=
    openedLedger.holds_other (by simp [Cell.family])
  have different : (Cell.poll "a").key ≠ (Cell.poll "a\x00b").key := by simp
  rw [Session.holds, Session.contains, get?_votedLedger (by simp [Cell.family]), Session.saveVote,
    Session.get?_write, if_neg (by simp), get?_polledLedger (by simp [Cell.family]),
    Session.savePoll, Session.get?_write]
  exact (congrArg Option.isSome (if_neg different)).trans before

/-- The poll of this name is published last. -/
theorem votedLedger_pays : Pays votedLedger (record "a" (.fill 171) laterSignature) laterSignature
    (.savePoll ((creation "a").toPoll 1)) :=
  record_pays standing_votedLedger (by decide) (by decide) (by decide) unpublished

end Publication.Sample

open Publication.Sample

/-- Where no votes are there a publication leaves no trace. -/
theorem publication_undone_opened :
    let r := record "a" firstReference laterSignature
    openedLedger.Reached ∧ r.signature? = some laterSignature ∧
      openedLedger.holds (.transaction laterSignature) = false ∧
      (Transaction.received r).validate .allReleased openedLedger = (.ok .ok, ⟨r, .valid⟩) ∧
      let done := (Transaction.mk r .valid).process .allReleased openedLedger
      let undone := done.transaction.orphan done.session
      done.outcome = .ok () ∧ undone.outcome = .ok () ∧ openedLedger.Alike undone.session := by
  have pays : Pays openedLedger (record "a" firstReference laterSignature) laterSignature
      (.savePoll ((creation "a").toPoll 1)) :=
    record_pays standing_openedLedger (by decide) (by decide) (by decide)
      (openedLedger.holds_other (by simp [Cell.family]))
  obtain ⟨done, undone, -, -, -, -, -, restored⟩ :=
    publication_undone openedLedger.reached rfl openedLedger.unstored pays.judged
  refine ⟨openedLedger.reached, rfl, openedLedger.unstored, pays.judged, done, undone,
    restored.mpr fun name voter held => ?_⟩
  have empty : openedLedger.holds (.vote name voter) = false :=
    openedLedger.holds_other (by simp [Cell.family])
  rw [empty] at held
  cases held

/-- **A publication that is taken back can take a vote in another poll with it**: the name of that
poll goes on after its own name and a zero byte. -/
theorem publication_takes_vote :
    let r := record "a" (.fill 171) laterSignature
    votedLedger.Reached ∧ r.signature? = some laterSignature ∧
      votedLedger.holds (.transaction laterSignature) = false ∧
      (Transaction.received r).validate .allReleased votedLedger = (.ok .ok, ⟨r, .valid⟩) ∧
      let done := (Transaction.mk r .valid).process .allReleased votedLedger
      let undone := done.transaction.orphan done.session
      done.outcome = .ok () ∧ undone.outcome = .ok () ∧
        votedLedger.vote? "a\x00b" (.fill 6) = .ok (some (ballot "a\x00b").toVote) ∧
        undone.session.vote? "a\x00b" (.fill 6) = .ok none := by
  have standing := standing_votedLedger
  have coherent := standing.reached.coherent
  have signed : (record "a" (.fill 171) laterSignature).signature? = some laterSignature := rfl
  obtain ⟨done, undone, left⟩ := PollCreation.undone .allReleased coherent signed
  refine ⟨standing.reached, signed, standing.unstored, votedLedger_pays.judged, done, undone, voted,
    ?_⟩
  refine (congrArg (fun u => u.vote? "a\x00b" (.fill 6)) left).trans ?_
  rw [Publication.vote?_undoing coherent rfl]
  exact if_pos (by decide : Cell.votesIn "a" <+: (Cell.vote "a\x00b" (.fill 6)).key)

end ChainLedger

import ChainLedger.Proofs.Ledger.Polls
import ChainLedger.Proofs.Run.Publication
import ChainLedger.Proofs.Transaction.Reportable
import ChainLedger.Proofs.Transaction.Tidy

/-!
# Votes along a run

What was processed last is orphaned first, so that the transactions that stand are a stack. The
polls that are there are those of the creations on the stack. A vote is cast in a poll that is
there, for an option that it has, and where the ballot is taken back its voter's earlier vote
returns to a poll that was there before the ballot and still is, since nothing below the ballot
was taken back meanwhile. So at any time every stored vote is for an option of its poll.
-/

namespace ChainLedger

open Change

variable {params : ChainParams} {s t : Session} {r : Record} {x : Transaction} {polls : List Poll}
  {standing : List Transaction} {signature : Signature} {plan : Plan}

/-! ## Polls and votes of a record -/

theorem Ballot.isIn_iff {b : Ballot} {poll : Poll} : b.isIn poll = true ↔ poll.Offers b.option := by
  rw [isIn, Bool.and_eq_true, decide_eq_true_eq, decide_eq_true_eq, Int32.le_iff_toInt_le]
  rfl

/-- The poll that the creation of a poll publishes. -/
def Record.publishedPoll? : Record → Option Poll
  | .standard envelope (.createPoll c) => some (c.toPoll envelope.timestamp)
  | .genesis _ | .standard .. => none

theorem Record.publishedPoll?_withoutDerived (r : Record) :
    r.withoutDerived.publishedPoll? = r.publishedPoll? := by
  cases r with
  | genesis => rfl
  | standard envelope action => cases action <;> rfl

theorem Record.publishedPoll?_after (planned : r.processing params s signature = .ok plan) :
    plan.after.publishedPoll? = r.publishedPoll? := by
  rw [← publishedPoll?_withoutDerived, (isOf_processing planned).after,
    publishedPoll?_withoutDerived]

/-- A good ballot is for an option of one of the polls. -/
theorem Session.Conducts.isIn_of_rules {envelope : Envelope} {b : Ballot} {voter : Address}
    (conducts : s.Conducts polls)
    (rules : ∀ rule ∈ b.rules params s envelope voter, rule.holds = .ok true) :
    b.toVote.IsIn polls := by
  obtain ⟨poll, known, inside⟩ := Ballot.exists_poll_of_rules rules
  obtain ⟨member, named⟩ := conducts.poll?_eq_some_iff.mp known
  exact ⟨poll, member, named, Ballot.isIn_iff.mp inside⟩

/-- Only creations of polls and ballots touch the rows of polls and votes. -/
theorem Record.sameIn_electoral_processing (planned : r.processing params s signature = .ok plan)
    (other : r.kind ∉ [Kind.createPoll, .voteOnPoll]) :
    s.SameIn Cell.electoral (makeAll plan.changes s).session := by
  refine sameIn_makeAll Cell.electoral_subset (fun change member => ?_) s
  have makes := makes_processing planned change member
  cases makes with
  | savePoll | saveVote => exact absurd (by simp [Record.kind, Action.kind]) other
  | _ => simp [Cell.electoral, families]

theorem Record.sameIn_electoral_undoing (planned : r.undoing signature = .ok plan)
    (other : r.kind ∉ [Kind.createPoll, .voteOnPoll]) (s : Session) :
    s.SameIn Cell.electoral (makeAll plan.changes s).session := by
  refine sameIn_makeAll Cell.electoral_subset (fun change member => ?_) s
  have unmakes := unmakes_undoing planned change member
  cases unmakes with
  | deletePoll | deleteVote => exact absurd (by simp [Record.kind, Action.kind]) other
  | saveVote replaced =>
    cases r with
    | genesis => cases replaced
    | standard envelope action =>
      cases action with
      | voteOnPoll => exact absurd (by simp [Record.kind, Action.kind]) other
      | _ => cases replaced
  | _ => simp [Cell.electoral, families]

/-- The fee of a creation or a ballot and the storing of its record are of no account to polls. -/
theorem sameIn_electoral_chargeFee (creator : Address) (fee : Amount) (signature : Signature)
    (r : Record) (s : Session) : s.SameIn Cell.electoral
      (makeAll (chargeFee creator fee signature ++ [.saveTransaction r]) s).session :=
  sameIn_makeAll Cell.electoral_subset (by simp [chargeFee, Cell.electoral, families]) s

theorem sameIn_electoral_refundFee (creator : Address) (fee : Amount) (reference : Signature)
    (s : Session) :
    s.SameIn Cell.electoral (makeAll (refundFee creator fee reference) s).session :=
  sameIn_makeAll Cell.electoral_subset (by simp [refundFee, Cell.electoral, families]) s

/-- **Processing a good record** puts the poll of a creation on the list, and leaves all votes for
options of polls on it. -/
theorem Record.conducts_processing (conducts : s.Conducts polls)
    (good : r.verdict params s = .ok .ok)
    (planned : r.processing params s signature = .ok plan) :
    (makeAll plan.changes s).session.Conducts (r.publishedPoll?.toList ++ polls) := by
  cases r with
  | genesis => exact conducts.congr (sameIn_electoral_processing planned (by simp [kind]))
  | standard envelope action =>
    have rules := rules_of_verdict good
    obtain ⟨_, actionPlanned, rfl⟩ := processing_standard_eq_ok_iff.mp planned
    cases action with
    | createPoll c =>
      cases actionPlanned
      rw [Plan.same, List.cons_append, makeAll_cons_of_ok rfl]
      have published := conducts.savePoll
        ((PollCreation.isGood_of_rules rules).storable envelope.timestamp)
        (PollCreation.poll?_of_rules rules)
      exact published.congr (sameIn_electoral_chargeFee _ _ _ _ _)
    | voteOnPoll b =>
      obtain ⟨_, -, rfl⟩ := Action.processing_voteOnPoll_eq_ok_iff.mp actionPlanned
      rw [Plan.same, List.cons_append, makeAll_cons_of_ok rfl]
      have cast := conducts.saveVote (Ballot.isGood_of_rules rules).storable
        (conducts.isIn_of_rules rules)
      exact cast.congr (sameIn_electoral_chargeFee _ _ _ _ _)
    | _ =>
      exact conducts.congr (sameIn_electoral_processing planned (by simp [kind, Action.kind]))

/-- The record can be undone where these polls are left: the vote that its ballot took the place of
is for an option of one of them. -/
structure Record.Revocable (polls : List Poll) (r : Record) : Prop where
  planned : ∃ signature plan, r.signature? = some signature ∧ r.undoing signature = .ok plan
  replaced : ∀ vote ∈ r.replacedVote?, vote.Storable ∧ vote.IsIn polls

/-- **What was processed can be undone** where the polls are left that were there before. -/
theorem Record.revocable_after (conducts : s.Conducts polls) (good : r.verdict params s = .ok .ok)
    (signed : r.signature? = some signature)
    (planned : r.processing params s signature = .ok plan) : plan.after.Revocable polls where
  planned := by
    obtain ⟨back, undone⟩ := exists_undoing planned
    exact ⟨signature, back, (signature?_after planned).trans signed, undone⟩
  replaced := by
    intro vote replaced
    cases r with
    | genesis =>
      cases planned
      cases replaced
    | standard envelope action =>
      obtain ⟨_, actionPlanned, rfl⟩ := processing_standard_eq_ok_iff.mp planned
      cases action with
      | voteOnPoll b =>
        obtain ⟨last, known, rfl⟩ := Action.processing_voteOnPoll_eq_ok_iff.mp actionPlanned
        cases last with
        | none => cases replaced
        | some last =>
          cases replaced
          -- The vote before it was read under its own poll and voter.
          obtain ⟨named, -, poll, member, same, offers⟩ := conducts.vote?_eq_some known
          exact ⟨(Ballot.isGood_of_rules (rules_of_verdict good)).storable, poll, member,
            same.trans named, offers⟩
      | issueAsset i =>
        obtain ⟨_, -, rfl⟩ := Action.processing_issueAsset_eq_ok_iff.mp actionPlanned
        cases replaced
      | deployAt d =>
        obtain ⟨_, _, -, -, rfl⟩ := Action.processing_deployAt_eq_ok_iff.mp actionPlanned
        cases replaced
      | _ =>
        cases actionPlanned
        cases replaced

/-- **Undoing a record** takes the poll of a creation off the list, and leaves all votes for options
of polls on it. -/
theorem Record.conducts_undoing (conducts : s.Conducts (r.publishedPoll?.toList ++ polls))
    (replaced : ∀ vote ∈ r.replacedVote?, vote.Storable ∧ vote.IsIn polls)
    (planned : r.undoing signature = .ok plan) :
    (makeAll plan.changes s).session.Conducts polls := by
  cases r with
  | genesis => exact conducts.congr (sameIn_electoral_undoing planned (by simp [kind]) s)
  | standard envelope action =>
    cases action with
    | createPoll c =>
      cases planned
      rw [Plan.same, makeAll_cons_of_ok rfl]
      exact conducts.deletePoll.congr (sameIn_electoral_refundFee _ _ _ _)
    | voteOnPoll b =>
      cases planned
      cases earlier : b.previous with
      | none =>
        rw [Plan.same, makeAll_cons_of_ok rfl]
        exact (conducts.deleteVote b.poll b.voter).congr (sameIn_electoral_refundFee _ _ _ _)
      | some option =>
        obtain ⟨storable, isIn⟩ := replaced ⟨b.poll, b.voter, option⟩ (by
          simp [replacedVote?, earlier])
        rw [Plan.same, makeAll_cons_of_ok rfl]
        exact (conducts.saveVote storable isIn).congr (sameIn_electoral_refundFee _ _ _ _)
    | _ =>
      exact conducts.congr (sameIn_electoral_undoing planned (by simp [kind, Action.kind]) s)

/-! ## Stored records -/

/-- What processing leaves of a record is found under its signature, and all others as before. -/
theorem Record.transaction?_processing (signed : r.signature? = some signature)
    (storable : plan.after.Storable) (planned : r.processing params s signature = .ok plan)
    (made : (makeAll plan.changes s).outcome = .ok ()) (other : Signature) :
    (makeAll plan.changes s).session.transaction? other =
      if other = signature then .ok (some plan.after) else s.transaction? other := by
  split
  next same =>
    obtain ⟨changes, split⟩ := exists_saving planned
    rw [split] at made ⊢
    rw [same]
    exact transaction?_saved ((signature?_after planned).trans signed) storable made
  next different =>
    refine read_makeAll (fun change member writes => different ?_) s
    have own := (makes_processing planned change member).stored writes
    exact Option.some.inj (own.symm.trans signed)

/-- A record that is removed and undone is not found any more, and all others are as before. -/
theorem Record.transaction?_undoing (signed : r.signature? = some signature)
    (planned : r.undoing signature = .ok plan) (s : Session) (other : Signature) :
    (makeAll (.deleteTransaction r :: plan.changes) s).session.transaction? other =
      if other = signature then .ok none else s.transaction? other := by
  have removed := make_deleteTransaction signed s
  have first : ((Change.deleteTransaction r).make s).outcome = .ok () := by
    rw [removed]
    rfl
  have kept : ∀ change ∈ plan.changes, ¬change.Writes (Cell.transaction other).key :=
    fun change member => not_writes_of_family (unmakes_undoing planned change member).unstored
  rw [makeAll_cons_of_ok first, Session.transaction?, read_makeAll kept, removed]
  split
  next same =>
    rw [same]
    exact Session.read_clear_self s (.transaction signature)
  next different => exact Session.read_clear_of_ne (by simpa using different) s

/-! ## Stacks of transactions -/

/-- A ledger and the transactions that were processed and not orphaned, the last one first. -/
structure Stack where
  session : Session
  standing : List Transaction

namespace Stack

/-- The ledger without rows. -/
def empty : Stack := ⟨OrderedMap.empty.session, []⟩

/-- What was judged good in the ledger is processed, if no record that stands has its signature, or
the last transaction that stands is orphaned, as the same object or made again of the record that is
stored under its signature. -/
inductive Step : Stack → Stack → Prop
  | process {s : Session} {standing : List Transaction} {params : ChainParams}
      {x valid : Transaction} (judged : x.validate params s = (.ok .ok, valid))
      (fit : x.record.AddressesFit)
      (fresh : ∀ other ∈ standing, other.record.signature? ≠ x.record.signature?)
      (done : (valid.process params s).outcome = .ok ()) :
      Step ⟨s, standing⟩
        ⟨(valid.process params s).session, (valid.process params s).transaction :: standing⟩
  | orphan {s : Session} {below : List Transaction} {x : Transaction}
      (done : (x.orphan s).outcome = .ok ()) : Step ⟨s, x :: below⟩ ⟨(x.orphan s).session, below⟩
  | reload {s : Session} {below : List Transaction} {x : Transaction} {signature : Signature}
      {r : Record} (signed : x.record.signature? = some signature)
      (stored : s.transaction? signature = .ok (some r))
      (done : ((Transaction.processed r).orphan s).outcome = .ok ()) :
      Step ⟨s, x :: below⟩ ⟨((Transaction.processed r).orphan s).session, below⟩
  | commit {s : Session} {standing : List Transaction} :
      Step ⟨s, standing⟩ ⟨s.commit.session, standing⟩

/-- The polls that transactions published. -/
def publishedPolls (standing : List Transaction) : List Poll :=
  standing.filterMap fun x => x.record.publishedPoll?

theorem publishedPolls_cons (x : Transaction) (standing : List Transaction) :
    publishedPolls (x :: standing) =
      x.record.publishedPoll?.toList ++ publishedPolls standing := by
  rw [publishedPolls, List.filterMap_cons]
  cases x.record.publishedPoll? <;> rfl

/-- Every transaction is processed and can be undone once those above it are. -/
def Revocable : List Transaction → Prop
  | [] => True
  | x :: below =>
    x.stage = .processed ∧ x.record.Revocable (publishedPolls below) ∧ Revocable below

/-- Every row of the ledger can be read, its polls are those that the transactions published and
its votes are in them, and the transactions are stored under distinct signatures and can be undone
one after the other. -/
structure IsSound (stack : Stack) : Prop where
  tidy : stack.session.Tidy
  conducts : stack.session.Conducts (publishedPolls stack.standing)
  revocable : Revocable stack.standing
  stored : ∀ x ∈ stack.standing, ∃ signature, x.record.signature? = some signature ∧
    stack.session.transaction? signature = .ok (some x.record)
  signatures : (stack.standing.map fun x => x.record.signature?).Nodup

namespace IsSound

theorem empty : Stack.empty.IsSound where
  tidy := .empty
  conducts := .empty
  revocable := trivial
  stored _ member := by cases member
  signatures := List.nodup_nil

theorem congr (sound : IsSound ⟨s, standing⟩) (same : s.Agree t) : IsSound ⟨t, standing⟩ where
  tidy := sound.tidy.congr same
  conducts := sound.conducts.congr same.sameIn
  revocable := sound.revocable
  stored x member := by
    obtain ⟨signature, signed, stored⟩ := sound.stored x member
    exact ⟨signature, signed, (Session.read_congr (same _).symm).trans stored⟩
  signatures := sound.signatures

/-- **Processing** what was judged good goes on with the stack. -/
theorem process {x valid : Transaction} (sound : IsSound ⟨s, standing⟩)
    (judged : x.validate params s = (.ok .ok, valid)) (fit : x.record.AddressesFit)
    (fresh : ∀ other ∈ standing, other.record.signature? ≠ x.record.signature?)
    (done : (valid.process params s).outcome = .ok ()) :
    IsSound ⟨(valid.process params s).session,
      (valid.process params s).transaction :: standing⟩ := by
  obtain ⟨good, rfl⟩ := Transaction.good_of_validate judged
  obtain ⟨signature, plan, -, signed, planned, made, carried⟩ := Transaction.exists_of_process done
  have kept := Record.transaction?_processing signed (Record.storable_after good fit planned)
    planned made
  have same := Record.signature?_after planned
  rw [carried]
  constructor
  case tidy => exact (sound.tidy.makeAll (Record.orderly_processing good signed planned)).2
  case conducts =>
    have polls := Record.conducts_processing sound.conducts good planned
    rw [publishedPolls_cons]
    exact Record.publishedPoll?_after planned ▸ polls
  case revocable =>
    exact ⟨rfl, Record.revocable_after sound.conducts good signed planned, sound.revocable⟩
  case stored =>
    refine List.forall_mem_cons.mpr ⟨⟨signature, same.trans signed, ?_⟩, fun other member => ?_⟩
    · rw [kept, if_pos rfl]
    · obtain ⟨signature', signed', stored⟩ := sound.stored other member
      have different : signature' ≠ signature := by
        rintro rfl
        exact fresh other member (signed'.trans signed.symm)
      exact ⟨signature', signed', by rw [kept, if_neg different, stored]⟩
  case signatures =>
    refine List.nodup_cons.mpr ⟨fun member => ?_, sound.signatures⟩
    obtain ⟨other, there, alike⟩ := List.mem_map.mp member
    exact fresh other there (alike.trans same)

/-- **The last transaction that stands can be orphaned.** -/
theorem orphan {below : List Transaction} (sound : IsSound ⟨s, x :: below⟩) :
    (x.orphan s).outcome = .ok () ∧ IsSound ⟨(x.orphan s).session, below⟩ := by
  obtain ⟨r, stage⟩ := x
  obtain ⟨rfl, ⟨⟨signature, plan, signed, planned⟩, replaced⟩, revocable⟩ := sound.revocable
  have orderly : ∀ change ∈ Change.deleteTransaction r :: plan.changes, change.Orderly := by
    refine List.forall_mem_cons.mpr ⟨?_, ?_⟩
    · rw [Change.Orderly, Record.isSigned, signed]
      rfl
    · exact Record.orderly_undoing planned fun vote earlier => (replaced vote earlier).1
  obtain ⟨made, tidy⟩ := sound.tidy.makeAll orderly
  have kept := Record.transaction?_undoing signed planned s
  have conducts := sound.conducts
  rw [publishedPolls_cons] at conducts
  have removed : s.SameIn Cell.electoral ((Change.deleteTransaction r).make s).session :=
    sameIn_make Cell.electoral_subset (by simp [Cell.electoral, families]) s
  obtain ⟨alone, signatures⟩ := List.nodup_cons.mp sound.signatures
  have orphaned := Transaction.orphan_processed signed planned made
  refine ⟨congrArg ChainLedger.Step.outcome orphaned, ?_⟩
  rw [show (Transaction.mk r .processed).orphan s = _ from orphaned]
  constructor
  case tidy => exact tidy
  case conducts =>
    have polls := Record.conducts_undoing (conducts.congr removed) replaced planned
    rwa [← makeAll_cons_of_ok (makeAll_cons_eq_ok_iff.mp made).1] at polls
  case revocable => exact revocable
  case stored =>
    intro other member
    obtain ⟨signature', signed', stored⟩ := sound.stored other (List.mem_cons_of_mem _ member)
    have different : signature' ≠ signature := by
      rintro rfl
      exact alone (List.mem_map.mpr ⟨other, member, signed'.trans signed.symm⟩)
    exact ⟨signature', signed', by rw [kept, if_neg different, stored]⟩
  case signatures => exact signatures

/-- **What is reloaded** under the signature of the last transaction that stands is this
transaction. -/
theorem reloaded {below : List Transaction} (sound : IsSound ⟨s, x :: below⟩)
    (signed : x.record.signature? = some signature)
    (stored : s.transaction? signature = .ok (some r)) : Transaction.processed r = x := by
  obtain ⟨signature', signed', stored'⟩ := sound.stored x List.mem_cons_self
  obtain rfl := Option.some.inj (signed.symm.trans signed')
  rw [stored] at stored'
  cases stored'
  obtain ⟨processed, -⟩ := sound.revocable
  rw [Transaction.processed, ← processed]

theorem step {stack later : Stack} (sound : stack.IsSound) (step : stack.Step later) :
    later.IsSound := by
  cases step with
  | process judged fit fresh done => exact sound.process judged fit fresh done
  | orphan => exact sound.orphan.2
  | reload signed stored done => exact sound.reloaded signed stored ▸ sound.orphan.2
  | commit => exact sound.congr (.commit _)

theorem of_run {stack : Stack} (run : Relation.ReflTransGen Step .empty stack) : stack.IsSound := by
  induction run with
  | refl => exact .empty
  | tail run step ih => exact ih.step step

end IsSound

/-! ## What a run keeps -/

/-- A step puts a transaction on the stack or takes one off it. -/
theorem Step.sublist {stack later : Stack} (step : stack.Step later) :
    stack.standing.Sublist later.standing ∨ later.standing.Sublist stack.standing := by
  cases step with
  | process => exact .inl (List.sublist_cons_self _ _)
  | orphan | reload => exact .inr (List.sublist_cons_self _ _)
  | commit => exact .inl (.refl _)

/-- **A poll that is there before a step and after it is the same.** -/
theorem IsSound.poll?_step {stack later : Stack} {name : String} {poll : Poll}
    (sound : stack.IsSound) (step : stack.Step later)
    (known : stack.session.poll? name = .ok (some poll))
    (held : later.session.holds (.poll name) = true) :
    later.session.poll? name = .ok (some poll) := by
  have conducts := (sound.step step).conducts
  obtain ⟨member, named⟩ := sound.conducts.poll?_eq_some_iff.mp known
  rcases step.sublist with more | fewer
  · exact conducts.poll?_eq_some_iff.mpr ⟨(more.filterMap _).subset member, named⟩
  · obtain ⟨other, there, named'⟩ := conducts.exists_poll held
    have found := sound.conducts.poll?_eq_some_iff.mpr ⟨(fewer.filterMap _).subset there, named'⟩
    rw [known] at found
    cases found
    exact conducts.poll?_eq_some_iff.mpr ⟨there, named'⟩

theorem IsSound.poll?_run {stack later : Stack} {name : String} {poll : Poll}
    (sound : stack.IsSound) (known : stack.session.poll? name = .ok (some poll))
    (run : Relation.ReflTransGen
      (fun a b => a.Step b ∧ b.session.holds (.poll name) = true) stack later) :
    later.IsSound ∧ later.session.poll? name = .ok (some poll) := by
  induction run with
  | refl => exact ⟨sound, known⟩
  | tail run step ih => exact ⟨ih.1.step step.1, ih.1.poll?_step step.1 ih.2 step.2⟩

/-- **Votes refer to an option of a poll that is there.** In a run from the ledger without rows in
which what was processed last is orphaned first, all stored votes can be read. They are what is
found under a poll and a voter, one at most for each, and each is for an option that its poll has.
The polls are those of the creations that stand, and a poll stays the same for as long as it is
there. In every such run each signed transaction that is judged good can be processed, and the last
one that stands be orphaned, which is the one that is stored under its signature. -/
theorem votes_in_polls {stack : Stack} (run : Relation.ReflTransGen Step .empty stack) :
    (∃ votes, stack.session.votes = .ok votes ∧
      (votes.map fun vote => (vote.poll, vote.voter)).Nodup ∧
      (∀ name voter vote, stack.session.vote? name voter = .ok (some vote) ↔
        vote ∈ votes ∧ vote.poll = name ∧ vote.voter = voter) ∧
      ∀ vote ∈ votes, ∃ poll, stack.session.poll? vote.poll = .ok (some poll) ∧
        poll.Offers vote.option) ∧
      (∀ name, stack.session.poll? name =
        .ok ((publishedPolls stack.standing).find? fun poll => poll.name = name)) ∧
      (∀ name poll later, stack.session.poll? name = .ok (some poll) →
        Relation.ReflTransGen (fun a b => a.Step b ∧ b.session.holds (.poll name) = true)
          stack later → later.session.poll? name = .ok (some poll)) ∧
      (∀ params (x valid : Transaction), x.validate params stack.session = (.ok .ok, valid) →
        x.record.isSigned = true → (valid.process params stack.session).outcome = .ok ()) ∧
      ∀ x below, stack.standing = x :: below → (x.orphan stack.session).outcome = .ok () ∧
        ∃ signature, x.record.signature? = some signature ∧
          stack.session.transaction? signature = .ok (some x.record) ∧
          x = .processed x.record := by
  have sound := IsSound.of_run run
  have conducts := sound.conducts
  refine ⟨?_, conducts.found, ?_, ?_, ?_⟩
  · obtain ⟨votes, listed, distinct, known⟩ := conducts.exists_votes
    refine ⟨votes, listed, distinct, fun name voter vote => ⟨fun found => ?_, ?_⟩, ?_⟩
    · obtain ⟨rfl, rfl, -⟩ := conducts.vote?_eq_some found
      exact ⟨(known vote).mpr found, rfl, rfl⟩
    · rintro ⟨member, rfl, rfl⟩
      exact (known vote).mp member
    · intro vote member
      obtain ⟨-, -, poll, there, named, offers⟩ := conducts.vote?_eq_some ((known vote).mp member)
      exact ⟨poll, conducts.poll?_eq_some_iff.mpr ⟨there, named⟩, offers⟩
  · exact fun name poll later found kept => (sound.poll?_run found kept).2
  · intro params x valid judged signed
    obtain ⟨good, rfl⟩ := Transaction.good_of_validate judged
    obtain ⟨signature, signed⟩ := Option.isSome_iff_exists.mp signed
    exact Transaction.process_of_good good signed sound.tidy.sound
  · intro x below standing
    obtain ⟨s, _⟩ := stack
    obtain rfl : _ = x :: below := standing
    obtain ⟨signature, signed, stored⟩ := sound.stored x List.mem_cons_self
    exact ⟨sound.orphan.1, signature, signed, stored, (sound.reloaded signed stored).symm⟩

/-! ## A vote that is cast and taken back -/

/-- A record that is handed in and processed goes on the stack. -/
theorem Step.submitted {y : Submission} (accepted : y.IsAccepted s)
    (signed : y.record.signature? = some signature)
    (planned : y.record.processing y.params s signature = .ok plan)
    (made : (makeAll plan.changes s).outcome = .ok ()) (fit : y.record.AddressesFit)
    (fresh : ∀ other ∈ standing, other.record.signature? ≠ y.record.signature?) :
    Step ⟨s, standing⟩ ⟨y.after s, ⟨plan.after, .processed⟩ :: standing⟩ := by
  have left := accepted.processed_eq_of_plan signed planned made
  have done : (y.processed s).outcome = .ok () := congrArg ChainLedger.Step.outcome left
  have step : Step ⟨s, standing⟩
      ⟨(y.processed s).session, (y.processed s).transaction :: standing⟩ :=
    .process (x := .received y.record) (Prod.ext accepted.1 rfl) fit fresh done
  rwa [← accepted.after_eq, left] at step

namespace Sample

open Publication.Sample
open openedLedger (account firstReference)

/-- Under this signature the account creates a poll, -/
def pollSignature : Signature := ⟨2 :: List.replicate 63 0, rfl⟩

/-- and under this one it votes in it. -/
def voteSignature : Signature := ⟨3 :: List.replicate 63 0, rfl⟩

/-- The account was given coins. -/
def opened : Stack := ⟨openedLedger, [.processed openingAllocation]⟩

def polled : Stack :=
  ⟨(Submission.mk .allReleased (record "a" firstReference pollSignature)).after openedLedger,
    .processed (record "a" firstReference pollSignature) :: opened.standing⟩

def voted : Stack :=
  ⟨(Submission.mk .allReleased (vote "a" pollSignature voteSignature)).after polled.session,
    .processed (vote "a" pollSignature voteSignature) :: polled.standing⟩

theorem opened_run : Relation.ReflTransGen Step .empty opened := by
  obtain ⟨signature, signed, accepted⟩ := openedLedger.accepted
  have planned : openingAllocation.processing .allReleased OrderedMap.empty.session signature =
    .ok _ := rfl
  have made := Session.Coherent.empty.makeAll_planned signed planned
  exact .single (.submitted accepted signed planned made trivial fun _ member => by cases member)

theorem opened_pays : Pays openedLedger (record "a" firstReference pollSignature) pollSignature
    (.savePoll ((creation "a").toPoll 1)) :=
  record_pays standing_openedLedger (by decide) (by decide) (by decide)
    (openedLedger.holds_other (by simp [Cell.family]))

theorem polled_pays : Pays polled.session (vote "a" pollSignature voteSignature) voteSignature
    (.saveVote (ballot "a").toVote) := by
  have reached := openedLedger.reached
  exact vote_pays (standing_openedLedger.after opened_pays (by decide)) (by decide) (by decide)
    (by decide)
    (opened_pays.published reached ⟨by decide, by decide, by decide, by decide, by decide⟩)
    (opened_pays.unvoted reached (openedLedger.holds_other (by simp [Cell.family])))

/-- The signature of an allocation is one hash twice, and theirs are not. -/
theorem fresh_opened {other : Signature} (halves : other.bytes.take 32 ≠ other.bytes.drop 32) :
    ∀ x ∈ opened.standing, x.record.signature? ≠ some other := by
  intro x member same
  obtain rfl := List.mem_singleton.mp member
  exact halves (Genesis.halves_of_signature same)

theorem polled_run : Relation.ReflTransGen Step .empty polled := by
  have made := openedLedger.reached.coherent.makeAll_planned opened_pays.signed opened_pays.planned
  exact opened_run.tail (.submitted opened_pays.accepted opened_pays.signed opened_pays.planned made
    trivial (fresh_opened (by decide)))

theorem voted_run : Relation.ReflTransGen Step .empty voted := by
  have reached := (standing_openedLedger.after opened_pays (by decide)).reached
  have made := reached.coherent.makeAll_planned polled_pays.signed polled_pays.planned
  refine polled_run.tail (.submitted polled_pays.accepted polled_pays.signed polled_pays.planned
    made trivial (List.forall_mem_cons.mpr ⟨?_, fresh_opened (by decide)⟩))
  change some pollSignature ≠ some voteSignature
  decide

/-- The vote that the account has cast. -/
def yes : Vote := (ballot "a").toVote

theorem vote?_voted : voted.session.vote? "a" (.fill 6) = .ok (some yes) := by
  have reached := (standing_openedLedger.after opened_pays (by decide)).reached
  have storable : yes.Storable := (by decide : Form.Fits (Text.size "a"))
  refine (Session.read_congr (polled_pays.get?_after reached (by simp [Cell.family]))).trans ?_
  exact Session.read_write_self (c := .vote "a" (.fill 6)) Vote.form_readsBack polled.session
    storable

end Sample

open Sample

/-- The vote is listed and is for an option of its poll. It is taken back, and the poll is still
there. -/
theorem votes_in_polls_voted :
    let x := Transaction.processed (Publication.Sample.vote "a" pollSignature voteSignature)
    let left : Stack := ⟨(x.orphan voted.session).session, polled.standing⟩
    Relation.ReflTransGen Step .empty voted ∧
      (∃ votes, voted.session.votes = .ok votes ∧ yes ∈ votes) ∧
      (∃ poll, voted.session.poll? "a" = .ok (some poll) ∧ poll.Offers yes.option) ∧
      voted.Step left ∧
      left.session.poll? "a" = .ok (some ((Publication.Sample.creation "a").toPoll 1)) := by
  intro x left
  obtain ⟨⟨votes, listed, -, known, offered⟩, -, -, -, orphans⟩ := votes_in_polls voted_run
  have member : yes ∈ votes := ((known _ _ _).mp vote?_voted).1
  have step : voted.Step left := .orphan (orphans x polled.standing rfl).1
  obtain ⟨-, found, -⟩ := votes_in_polls (voted_run.tail step)
  exact ⟨voted_run, ⟨votes, listed, member⟩, offered yes member, step, found "a"⟩

end Stack

end ChainLedger

import ChainLedger.Ledger.Change
import ChainLedger.Proofs.Ledger.Ats

/-!
# The history of ATs

Operations on ATs follow each other in a session or in several that are committed. What
they leave in the ledger is told by a book in which each of them makes its entry: the state
of an AT at a height is the last that was saved and has not been deleted since.
-/

namespace ChainLedger

/-- An operation on ATs, or the end of a session, which is committed. -/
inductive AtCall
  | save (deployed : DeployedAt)
  | saveState (state : AtState)
  | delete (address : Address)
  | deleteState (address : Address) (height : UInt32)
  | deleteStatesAt (height : UInt32)
  | commit

namespace AtCall

/-- Addresses have no zero byte, and what is saved fits its row. -/
def Plain : AtCall → Prop
  | .save deployed => 0 ∉ Text.bytesOf deployed.address ∧ deployed.Storable
  | .saveState state => 0 ∉ Text.bytesOf state.address ∧ state.Storable
  | .delete address | .deleteState address _ => 0 ∉ Text.bytesOf address
  | .deleteStatesAt _ | .commit => True

instance : DecidablePred Plain
  | .save _ | .saveState _ => inferInstanceAs (Decidable (_ ∧ _))
  | .delete _ | .deleteState _ _ => inferInstanceAs (Decidable (0 ∉ Text.bytesOf _))
  | .deleteStatesAt _ | .commit => inferInstanceAs (Decidable True)

/-- What the operation does to the ledger. -/
def serve (s : Session) : AtCall → Written
  | .save deployed => .done (s.saveAt deployed)
  | .saveState state => .done (s.saveAtState state)
  | .delete address => s.deleteAt address
  | .deleteState address height => .done (s.deleteAtState address height)
  | .deleteStatesAt height => .ofExcept s (s.deleteStatesAtHeight height)
  | .commit => .done s.commit.session

/-- What the operation does to the book. -/
def enter (book : AtBook) : AtCall → AtBook
  | .save deployed => book.deploy deployed
  | .saveState state => book.record state
  | .delete address => book.withdraw address
  | .deleteState address height =>
    book.forget fun other height' => other = address ∧ height' = height
  | .deleteStatesAt height => book.forget fun _ height' => height' = height
  | .commit => book

/-- Operations one after the other, up to the first one that fails. -/
def serveAll : List AtCall → Session → Written
  | [], s => .done s
  | call :: rest, s =>
    let first := call.serve s
    match first.outcome with
    | .ok () => serveAll rest first.session
    | .error _ => first

/-- The ledger that operations leave of an empty one. -/
def ledgerAfter (calls : List AtCall) : Session := (serveAll calls OrderedMap.empty.session).session

/-- The book of the operations. -/
def bookAfter (calls : List AtCall) : AtBook := calls.foldl enter .empty

end AtCall

namespace Session.Tracks

open AtCall

variable {s : Session} {book : AtBook}

/-- **One operation** does what it is to do, and the ledger goes on keeping the book. -/
theorem serve (tracks : s.Tracks book) {call : AtCall} (plain : call.Plain) :
    (call.serve s).outcome = .ok () ∧ (call.serve s).session.Tracks (call.enter book) := by
  cases call with
  | save deployed => exact ⟨rfl, tracks.saveAt plain.2⟩
  | saveState state => exact ⟨rfl, tracks.saveAtState plain.2 plain.1⟩
  | delete address => exact tracks.deleteAt plain
  | deleteState address height => exact ⟨rfl, tracks.deleteAtState address height⟩
  | deleteStatesAt height =>
    obtain ⟨t, deleted, kept⟩ := tracks.deleteStatesAtHeight height
    rw [AtCall.serve, deleted]
    exact ⟨rfl, kept⟩
  | commit => exact ⟨rfl, tracks.commit⟩

/-- No operation of a run fails. By induction on the run, from one operation. -/
theorem serveAll (tracks : s.Tracks book) {calls : List AtCall}
    (plain : ∀ call ∈ calls, call.Plain) :
    (serveAll calls s).outcome = .ok () ∧
      (serveAll calls s).session.Tracks (calls.foldl enter book) := by
  induction calls generalizing s book with
  | nil => exact ⟨rfl, tracks⟩
  | cons call rest ih =>
    rw [List.forall_mem_cons] at plain
    obtain ⟨done, kept⟩ := tracks.serve plain.1
    rw [AtCall.serveAll, done]
    exact ih kept plain.2

end Session.Tracks

namespace AtCall

/-- **The history of states and the index of heights stay in step.** No operation fails, and
afterwards ATs and states are read as they were last saved and not deleted since; the states at a
height are listed, that of each AT once, by their time and then by address; deleting an AT removes
it and its states at every height and nothing of another; and deleting the states at a height
removes these and no others. -/
theorem history_in_step (calls : List AtCall) (plain : ∀ call ∈ calls, call.Plain) :
    (serveAll calls OrderedMap.empty.session).outcome = .ok () ∧
      (∀ address, (ledgerAfter calls).at? address = .ok ((bookAfter calls).deployed address)) ∧
      (∀ address height,
        (ledgerAfter calls).atState? address height =
          .ok ((bookAfter calls).states address height)) ∧
      (∀ height, ∃ states, (ledgerAfter calls).statesAtHeight height = .ok states ∧
        (∀ address state, (bookAfter calls).states address height = some state ↔
          state ∈ states ∧ state.address = address) ∧
        states.Pairwise AtState.Before) ∧
      (∀ address, 0 ∉ Text.bytesOf address →
        ((ledgerAfter calls).deleteAt address).outcome = .ok () ∧
          ∀ other,
            ((ledgerAfter calls).deleteAt address).session.at? other =
              (if other = address then .ok none else (ledgerAfter calls).at? other) ∧
            ∀ height, ((ledgerAfter calls).deleteAt address).session.atState? other height =
              if other = address then .ok none else (ledgerAfter calls).atState? other height) ∧
      ∀ height, ∃ t, (ledgerAfter calls).deleteStatesAtHeight height = .ok t ∧
        ∀ address, t.at? address = (ledgerAfter calls).at? address ∧
          ∀ height', t.atState? address height' =
            if height' = height then .ok none
            else (ledgerAfter calls).atState? address height' := by
  obtain ⟨done, tracks⟩ := Session.Tracks.empty.serveAll plain
  change (ledgerAfter calls).Tracks (bookAfter calls) at tracks
  refine ⟨done, tracks.deployed, tracks.stated, tracks.exists_states, ?_, fun height => ?_⟩
  · intro address clean
    obtain ⟨deleted, kept⟩ := tracks.deleteAt clean
    refine ⟨deleted, fun other => ⟨?_, fun height => ?_⟩⟩
    · rw [kept.deployed, tracks.deployed]
      exact apply_ite ..
    · rw [kept.stated, tracks.stated]
      exact apply_ite ..
  · obtain ⟨t, deleted, kept⟩ := tracks.deleteStatesAtHeight height
    refine ⟨t, deleted, fun address => ⟨?_, fun height' => ?_⟩⟩
    · exact (kept.deployed address).trans (tracks.deployed address).symm
    · rw [kept.stated, tracks.stated]
      exact apply_ite ..

/-- A state of an AT with the given fees. -/
def sampleState (address : Address) (height : UInt32) (fees : Int64) : AtState :=
  ⟨address, height, 7, [1, 2], [], ⟨fees⟩⟩

/-- Two ATs run, one of them at two heights; the state of the other is saved again in a second
session, in which the first AT is deleted. -/
def sampleCalls : List AtCall :=
  [.save (.fresh "AT1" "creator" 7 1 [0]), .saveState (sampleState "AT1" 5 1),
    .saveState (sampleState "AT2" 5 2), .saveState (sampleState "AT1" 6 3), .commit,
    .saveState (sampleState "AT2" 5 4), .delete "AT1"]

theorem history_in_step_sampleCalls :
    (∀ call ∈ sampleCalls, call.Plain) ∧
      (serveAll sampleCalls OrderedMap.empty.session).outcome = .ok () ∧
      (ledgerAfter sampleCalls).at? "AT1" = .ok none ∧
      (ledgerAfter sampleCalls).atState? "AT2" 5 = .ok (some (sampleState "AT2" 5 4)) ∧
      (∃ states, (ledgerAfter sampleCalls).statesAtHeight 5 = .ok states ∧
        ∀ state, state ∈ states ↔ state = sampleState "AT2" 5 4) ∧
      ((ledgerAfter sampleCalls).deleteAt "AT2").outcome = .ok () := by
  have plain : ∀ call ∈ sampleCalls, call.Plain := by decide
  have page : ∀ address, (bookAfter sampleCalls).states address 5 =
      if address = "AT2" then some (sampleState "AT2" 5 4) else none := by
    intro address
    simp only [bookAfter, sampleCalls, List.foldl_cons, List.foldl_nil, enter, AtBook.withdraw,
      AtBook.undeploy, AtBook.forget, AtBook.record, AtBook.deploy, AtBook.empty, sampleState]
    grind
  obtain ⟨done, deployed, stated, listed, deleted, -⟩ := history_in_step sampleCalls plain
  refine ⟨plain, done, deployed "AT1", (stated "AT2" 5).trans (by rw [page]; rfl), ?_,
    (deleted "AT2" (by decide)).1⟩
  obtain ⟨states, found, known, -⟩ := listed 5
  refine ⟨states, found, fun state => ?_⟩
  have here := known state.address state
  rw [page] at here
  constructor
  · intro member
    have there := here.mpr ⟨member, rfl⟩
    split at there
    · exact (Option.some.inj there).symm
    · cases there
  · rintro rfl
    exact (here.mp (if_pos rfl)).1

end AtCall

end ChainLedger

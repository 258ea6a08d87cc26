import ChainLedger.Proofs.Ledger.Listing

/-!
# The states of ATs and their index

A state of an AT has two rows, one under its address and height and one, without a value,
under its height and address. The first is where the state is read, the second is how the
states at a height are found. What both say is one book: which states there are. Every
operation on ATs leaves both rows in step with the book, so that no entry ever points at a
missing state, and a listing of a height is the page of the book for it.

Addresses have no zero byte. One that has could make the states of another AT look like its
own, since a zero byte is what closes an address in a key.
-/

namespace ChainLedger

/-! ## The keys of the states of an AT -/

namespace Cell

/-- An address without a zero byte that is closed in front of other bytes is told from them. -/
theorem eq_of_closed_isPrefix {a b : String} (clean : 0 ∉ Text.bytesOf a)
    (clean' : 0 ∉ Text.bytesOf b) {rest : Bytes} (leads : closed a <+: closed b ++ rest) :
    a = b := by
  rcases List.prefix_or_prefix_of_prefix leads (List.prefix_append (closed b) rest)
    with shorter | longer
  · rcases List.prefix_concat_iff.mp shorter with same | inside
    · exact closed_injective same
    · exact absurd (inside.subset (by simp [closed])) clean'
  · rcases List.prefix_concat_iff.mp longer with same | inside
    · exact (closed_injective same).symm
    · exact absurd (inside.subset (by simp [closed])) clean

theorem statesOf_isPrefix_key (address : Address) (height : UInt32) :
    statesOf address <+: (atState address height).key := by
  refine ⟨heightKey height, ?_⟩
  rw [statesOf, key, keyOf, keyOf, List.append_assoc]

/-- A cell whose key begins like those of the states of an AT holds a state of an AT, of this one
if their addresses have no zero byte. -/
theorem exists_atState_of_isPrefix {a : Address} {c : Cell} (leads : statesOf a <+: c.key) :
    ∃ b height, c = .atState b height ∧
      (0 ∉ Text.bytesOf a → 0 ∉ Text.bytesOf b → a = b) := by
  have name : c.family = "at-state/" := family_eq_of_isPrefix (by simp [families]) leads
  cases c <;> simp [family] at name
  case atState b height =>
    rw [statesOf, key, keyOf, keyOf, List.prefix_append_right_inj] at leads
    exact ⟨b, height, rfl, fun clean clean' => eq_of_closed_isPrefix clean clean' leads⟩

end Cell

/-! ## The order of states -/

/-- States of one height are told by their time, and those of one time by their address. -/
def AtState.Before (a b : AtState) : Prop :=
  a.creation < b.creation ∨ a.creation = b.creation ∧ a.address < b.address

namespace Session

theorem isInOrder_iff {a b : AtState} :
    isInOrder a b = true ↔
      a.creation < b.creation ∨ a.creation = b.creation ∧ a.address ≤ b.address := by
  simp [isInOrder]

theorem isInOrder_trans (a b c : AtState) (first : isInOrder a b = true)
    (second : isInOrder b c = true) : isInOrder a c = true := by
  rw [isInOrder_iff] at first second ⊢
  rcases first with less | ⟨same, address⟩
  · rcases second with less' | ⟨same', -⟩
    · exact .inl (Int64.lt_trans less less')
    · exact .inl (same' ▸ less)
  · rcases second with less' | ⟨same', address'⟩
    · exact .inl (same ▸ less')
    · exact .inr ⟨same.trans same', String.le_trans address address'⟩

theorem isInOrder_total (a b : AtState) : (isInOrder a b || isInOrder b a) = true := by
  rw [Bool.or_eq_true, isInOrder_iff, isInOrder_iff]
  by_cases same : a.creation = b.creation
  · rcases String.le_total a.address b.address with below | above
    · exact .inl (.inr ⟨same, below⟩)
    · exact .inr (.inr ⟨same.symm, above⟩)
  · rcases Int64.lt_or_lt_of_ne same with less | greater
    · exact .inl (.inl less)
    · exact .inr (.inl greater)

/-- States in order come before each other if they are of different ATs. -/
theorem before_of_isInOrder {a b : AtState} (ordered : isInOrder a b = true)
    (different : a.address ≠ b.address) : a.Before b := by
  rcases isInOrder_iff.mp ordered with less | ⟨same, below⟩
  · exact .inl less
  · refine .inr ⟨same, ?_⟩
    by_contra notBelow
    exact different (String.le_antisymm below (String.not_lt.mp notBelow))

/-- States of different ATs are put in an order in which each comes before the next. -/
theorem pairwise_before_mergeSort {states : List AtState}
    (distinct : (states.map AtState.address).Nodup) :
    (states.mergeSort isInOrder).Pairwise AtState.Before := by
  have order := (List.mergeSort_perm states isInOrder).map AtState.address
  have apart := List.pairwise_map.mp (order.nodup_iff.mpr distinct)
  have sorted := List.pairwise_mergeSort isInOrder_trans isInOrder_total states
  exact (sorted.and apart).imp fun both => before_of_isInOrder both.1 both.2

end Session

/-! ## Books of ATs -/

/-- The ATs that are deployed, and the state that each came to at each height. -/
structure AtBook where
  deployed : Address → Option DeployedAt
  states : Address → UInt32 → Option AtState

namespace AtBook

def empty : AtBook := ⟨fun _ => none, fun _ _ => none⟩

def deploy (book : AtBook) (deployed : DeployedAt) : AtBook where
  deployed address := if address = deployed.address then some deployed else book.deployed address
  states := book.states

/-- The last state that is entered for an AT and a height counts. -/
def record (book : AtBook) (state : AtState) : AtBook where
  deployed := book.deployed
  states address height :=
    if address = state.address ∧ height = state.height then some state
    else book.states address height

/-- Strikes out states. -/
def forget (book : AtBook) (gone : Address → UInt32 → Prop) [DecidableRel gone] : AtBook where
  deployed := book.deployed
  states address height := if gone address height then none else book.states address height

def undeploy (book : AtBook) (address : Address) : AtBook where
  deployed other := if other = address then none else book.deployed other
  states := book.states

/-- Strikes out an AT and its states. -/
def withdraw (book : AtBook) (address : Address) : AtBook :=
  (book.forget fun other _ => other = address).undeploy address

variable {book : AtBook} {gone gone' : Address → UInt32 → Prop} [DecidableRel gone]
  [DecidableRel gone']

/-- It only matters which of the states that there are are struck out. -/
theorem forget_congr
    (same : ∀ address height state, book.states address height = some state →
      (gone address height ↔ gone' address height)) :
    book.forget gone = book.forget gone' := by
  unfold forget
  congr 1
  funext address height
  cases there : book.states address height with
  | none => rw [ite_self, ite_self]
  | some state => simp only [same address height state there]

theorem forget_nothing (never : ∀ address height, ¬gone address height) :
    book.forget gone = book := by
  unfold forget
  congr 1
  funext address height
  exact if_neg (never address height)

theorem forget_forget :
    (book.forget gone).forget gone' =
      book.forget fun address height => gone address height ∨ gone' address height := by
  unfold forget
  congr 1
  funext address height
  by_cases first : gone address height <;> simp [first]

end AtBook

/-! ## Ledgers that keep a book -/

/-- The ledger says what the book says: its rows are cells, ATs and states are read as they are in
the book, and the index has an entry for each state. States are those of their own AT and height,
and no address has a zero byte. -/
structure Session.Tracks (s : Session) (book : AtBook) : Prop where
  filled : s.Filled
  deployed : ∀ address, s.at? address = .ok (book.deployed address)
  stated : ∀ address height, s.atState? address height = .ok (book.states address height)
  indexed : ∀ address height,
    s.holds (.atHeight height address) = (book.states address height).isSome
  own : ∀ {address height state}, book.states address height = some state →
    state.address = address ∧ state.height = height ∧ 0 ∉ Text.bytesOf address

namespace Session

variable {s : Session} {book : AtBook}

namespace Tracks

theorem empty : OrderedMap.empty.session.Tracks .empty where
  filled := .empty
  deployed _ := rfl
  stated _ _ := rfl
  indexed _ _ := rfl
  own known := by cases known

theorem commit (tracks : s.Tracks book) : s.commit.session.Tracks book where
  filled := tracks.filled.commit
  deployed address := (read_congr (get?_commit s _)).trans (tracks.deployed address)
  stated address height := (read_congr (get?_commit s _)).trans (tracks.stated address height)
  indexed address height :=
    (congrArg Option.isSome (get?_commit s _)).trans (tracks.indexed address height)
  own := tracks.own

/-! ## Saving -/

theorem saveAt (tracks : s.Tracks book) {deployed : DeployedAt} (storable : deployed.Storable) :
    (s.saveAt deployed).Tracks (book.deploy deployed) where
  filled := tracks.filled.write _ _
  deployed address := by
    unfold AtBook.deploy
    dsimp only
    split
    next here =>
      subst here
      exact read_write_self (c := .deployedAt _) DeployedAt.form_readsBack s storable
    next other =>
      have apart : Cell.deployedAt address ≠ .deployedAt deployed.address := by simpa using other
      unfold Session.at? Session.saveAt
      rw [read_write_of_ne apart]
      exact tracks.deployed address
  stated address height := by
    unfold Session.atState? Session.saveAt
    rw [read_write_of_ne (by simp)]
    exact tracks.stated address height
  indexed address height := by
    unfold Session.saveAt
    rw [holds_write, if_neg (by simp)]
    exact tracks.indexed address height
  own := tracks.own

/-- **A state is saved in both rows**, in place of the one that was there. -/
theorem saveAtState (tracks : s.Tracks book) {state : AtState} (storable : state.Storable)
    (clean : 0 ∉ Text.bytesOf state.address) :
    (s.saveAtState state).Tracks (book.record state) where
  filled := (tracks.filled.write _ _).write _ _
  deployed address := by
    unfold Session.at? Session.saveAtState
    rw [read_write_of_ne (by simp), read_write_of_ne (by simp)]
    exact tracks.deployed address
  stated address height := by
    unfold AtBook.record
    dsimp only
    split
    next here =>
      obtain ⟨rfl, rfl⟩ := here
      exact read_write_self (c := .atState _ _) AtState.form_readsBack _ storable
    next other =>
      have apart : Cell.atState address height ≠ .atState state.address state.height := by
        simpa using other
      unfold Session.atState? Session.saveAtState
      rw [read_write_of_ne apart, read_write_of_ne (by simp)]
      exact tracks.stated address height
  indexed address height := by
    unfold Session.saveAtState AtBook.record
    dsimp only
    rw [holds_write, if_neg (by simp), holds_write]
    by_cases here : address = state.address ∧ height = state.height
    · obtain ⟨rfl, rfl⟩ := here
      rw [if_pos rfl, if_pos ⟨rfl, rfl⟩]
      rfl
    · have apart : Cell.atHeight height address ≠ .atHeight state.height state.address := by
        intro same
        obtain ⟨heights, addresses⟩ := Cell.atHeight.inj same
        exact here ⟨addresses, heights⟩
      rw [if_neg apart, if_neg here]
      exact tracks.indexed address height
  own {address height found} known := by
    unfold AtBook.record at known
    dsimp only at known
    split at known
    next here =>
      obtain ⟨rfl, rfl⟩ := here
      cases known
      exact ⟨rfl, rfl, clean⟩
    next => exact tracks.own known

/-! ## Removing states -/

/-- **A state is removed from both rows.** -/
theorem deleteAtState (tracks : s.Tracks book) (address : Address) (height : UInt32) :
    (s.deleteAtState address height).Tracks
      (book.forget fun other height' => other = address ∧ height' = height) where
  filled := (tracks.filled.remove _).remove _
  deployed other := by
    unfold Session.at? Session.deleteAtState
    rw [read_clear_of_ne (by simp), read_clear_of_ne (by simp)]
    exact tracks.deployed other
  stated other height' := by
    unfold AtBook.forget
    dsimp only
    split
    next here =>
      obtain ⟨rfl, rfl⟩ := here
      exact read_clear_self _ _
    next apart =>
      have different : Cell.atState other height' ≠ .atState address height := by simpa using apart
      unfold Session.atState? Session.deleteAtState
      rw [read_clear_of_ne different, read_clear_of_ne (by simp)]
      exact tracks.stated other height'
  indexed other height' := by
    unfold Session.deleteAtState AtBook.forget
    dsimp only
    rw [holds_clear, if_neg (by simp), holds_clear]
    by_cases here : other = address ∧ height' = height
    · obtain ⟨rfl, rfl⟩ := here
      rw [if_pos rfl, if_pos ⟨rfl, rfl⟩]
      rfl
    · have apart : Cell.atHeight height' other ≠ .atHeight height address := by
        intro same
        obtain ⟨heights, addresses⟩ := Cell.atHeight.inj same
        exact here ⟨addresses, heights⟩
      rw [if_neg apart, if_neg here]
      exact tracks.indexed other height'
  own {other height' state} known := by
    unfold AtBook.forget at known
    dsimp only at known
    split at known
    next => cases known
    next => exact tracks.own known

/-- Removing states one after the other strikes out all of them. -/
theorem deleteStates (tracks : s.Tracks book) (places : List (Address × UInt32)) :
    (places.foldl (fun s place => s.deleteAtState place.1 place.2) s).Tracks
      (book.forget fun address height => (address, height) ∈ places) := by
  induction places generalizing s book with
  | nil =>
    rw [AtBook.forget_nothing fun _ _ => List.not_mem_nil]
    exact tracks
  | cons place rest ih =>
    have later := ih (tracks.deleteAtState place.1 place.2)
    rw [AtBook.forget_forget] at later
    have same : (book.forget fun address height => (address, height) ∈ place :: rest) =
        book.forget fun address height =>
          (address = place.1 ∧ height = place.2) ∨ (address, height) ∈ rest :=
      AtBook.forget_congr fun address height _ _ => by rw [List.mem_cons, Prod.ext_iff]
    rw [same]
    exact later

/-- The row of an AT is removed without its states. -/
theorem clearAt (tracks : s.Tracks book) (address : Address) :
    (s.clear (.deployedAt address)).Tracks (book.undeploy address) where
  filled := tracks.filled.remove _
  deployed other := by
    unfold AtBook.undeploy
    dsimp only
    split
    next here =>
      subst here
      exact read_clear_self _ _
    next apart =>
      have different : Cell.deployedAt other ≠ .deployedAt address := by simpa using apart
      unfold Session.at?
      rw [read_clear_of_ne different]
      exact tracks.deployed other
  stated other height := by
    unfold Session.atState?
    rw [read_clear_of_ne (by simp)]
    exact tracks.stated other height
  indexed other height := by
    rw [holds_clear, if_neg (by simp)]
    exact tracks.indexed other height
  own := tracks.own

/-! ## Listing a height -/

/-- An index entry points at the state in the book. -/
theorem indexedState (tracks : s.Tracks book) {address : Address} {height : UInt32}
    {state : AtState} (known : book.states address height = some state) :
    s.indexedState height (Cell.atHeight height address).key = .ok state := by
  have rest : (Cell.atHeight height address).key.drop (Cell.atHeightEntries height).length =
      Text.bytesOf address := by
    obtain ⟨rest, split⟩ := Cell.atHeightEntries_isPrefix_key height address
    have tail : rest = Text.bytesOf address := by
      rw [Cell.atHeightEntries, Cell.key, Cell.keyOf, Cell.keyOf, List.append_assoc] at split
      exact List.append_cancel_left (List.append_cancel_left split)
    rw [← split, List.drop_left, tail]
  unfold Session.indexedState
  rw [rest, Text.ofBytes?_bytesOf]
  exact Except.bind_eq_ok_iff.mpr ⟨_, tracks.stated address height, by rw [known]; rfl⟩

/-- **The states at a height are its page of the book**, in order. -/
theorem exists_states (tracks : s.Tracks book) (height : UInt32) :
    ∃ states, s.statesAtHeight height = .ok states ∧
      (∀ address state, book.states address height = some state ↔
        state ∈ states ∧ state.address = address) ∧
      states.Pairwise AtState.Before := by
  have distinct : Function.Injective (Cell.atHeight height) :=
    fun _ _ same => (Cell.atHeight.inj same).2
  obtain ⟨addresses, once, entered, keys⟩ := exists_listed distinct
    (Cell.atHeightEntries_isPrefix_key height)
    (tracks.filled.cast fun _ => Cell.atHeightEntries_isPrefix_key_iff)
  have each : ∀ address ∈ addresses, ∃ state,
      s.indexedState height (Cell.atHeight height address).key = .ok state ∧
        book.states state.address height = some state ∧ state.address = address := by
    intro address member
    have there := (entered address).mp member
    rw [tracks.indexed] at there
    obtain ⟨state, known⟩ := Option.isSome_iff_exists.mp there
    obtain ⟨rfl, -⟩ := tracks.own known
    exact ⟨state, tracks.indexedState known, known, rfl⟩
  obtain ⟨found, listed, all, labels⟩ := Except.exists_mapM_keyed each
  rw [List.map_id'] at labels
  have known : ∀ address state, book.states address height = some state ↔
      state ∈ found ∧ state.address = address := by
    intro address state
    constructor
    · intro known
      have there : address ∈ addresses := by
        rw [entered, tracks.indexed, known]
        rfl
      exact ⟨(Except.mem_mapM_iff listed).mpr ⟨address, there, tracks.indexedState known⟩,
        (tracks.own known).1⟩
    · rintro ⟨member, rfl⟩
      exact all state member
  refine ⟨found.mergeSort isInOrder, ?_, fun address state => ?_, ?_⟩
  · rw [statesAtHeight, mapM_scan keys, listed]
    rfl
  · rw [(List.mergeSort_perm found isInOrder).mem_iff]
    exact known address state
  · apply pairwise_before_mergeSort
    rw [labels]
    exact once

/-! ## Removing all states of an AT or of a height -/

/-- **All states at a height are removed.** -/
theorem deleteStatesAtHeight (tracks : s.Tracks book) (height : UInt32) :
    ∃ t, s.deleteStatesAtHeight height = .ok t ∧
      t.Tracks (book.forget fun _ height' => height' = height) := by
  obtain ⟨states, listed, known, -⟩ := tracks.exists_states height
  have removed := tracks.deleteStates (states.map fun state => (state.address, height))
  rw [List.foldl_map] at removed
  refine ⟨_, by rw [Session.deleteStatesAtHeight, listed]; rfl, ?_⟩
  have same : (book.forget fun _ height' => height' = height) =
      book.forget fun address height' =>
        (address, height') ∈ states.map fun state => (state.address, height) := by
    refine AtBook.forget_congr fun address height' state there => ?_
    rw [List.mem_map]
    constructor
    · rintro rfl
      obtain ⟨member, rfl⟩ := (known address state).mp there
      exact ⟨state, member, rfl⟩
    · rintro ⟨_, -, place⟩
      exact (Prod.mk.inj place).2.symm
  rw [same]
  exact removed

end Tracks

/-- Removing rows of states of an AT that can be read is removing these states. By induction on
the rows. -/
theorem exists_deleteStateRows {address : Address} {rows : List (Bytes × Bytes)}
    (each : ∀ row ∈ rows, ∃ state, AtState.form.ofRow row.1 row.2 = .ok state ∧
      (Cell.atState address state.height).key = row.1) :
    ∃ heights : List UInt32,
      (heights.map fun height => (Cell.atState address height).key) = rows.map Prod.fst ∧
        ∀ s : Session, s.deleteStateRows address rows =
          ⟨.ok (), heights.foldl (fun s height => s.deleteAtState address height) s⟩ := by
  induction rows with
  | nil => exact ⟨[], rfl, fun _ => rfl⟩
  | cons first rest ih =>
    obtain ⟨key, row⟩ := first
    rw [List.forall_mem_cons] at each
    obtain ⟨⟨state, value, place⟩, later⟩ := each
    obtain ⟨heights, keys, removed⟩ := ih later
    refine ⟨state.height :: heights, ?_, fun s => ?_⟩
    · rw [List.map_cons, List.map_cons, keys, place]
    · rw [deleteStateRows, value]
      dsimp only at place ⊢
      rw [removed, ← place]
      rfl

namespace Tracks

/-- **An AT is removed with its states**, and no state of another is touched. -/
theorem deleteAt (tracks : s.Tracks book) {address : Address}
    (clean : 0 ∉ Text.bytesOf address) :
    (s.deleteAt address).outcome = .ok () ∧
      (s.deleteAt address).session.Tracks (book.withdraw address) := by
  have each : ∀ row ∈ s.scan (Cell.statesOf address), ∃ state,
      AtState.form.ofRow row.1 row.2 = .ok state ∧
        (Cell.atState address state.height).key = row.1 := by
    rintro ⟨_, row⟩ member
    obtain ⟨leads, held⟩ := mem_scan.mp member
    obtain ⟨c, rfl⟩ := tracks.filled.exists_cell held
    obtain ⟨other, height, rfl, same⟩ := Cell.exists_atState_of_isPrefix leads
    obtain ⟨state, value, known⟩ := exists_value_of_get? held (tracks.stated other height)
    obtain ⟨-, heights, clean'⟩ := tracks.own known
    refine ⟨state, value, ?_⟩
    rw [heights, same clean clean']
  obtain ⟨heights, keys, removed⟩ := exists_deleteStateRows each
  have struck := tracks.deleteStates (heights.map fun height => (address, height))
  rw [List.foldl_map] at struck
  have same : (book.forget fun other _ => other = address) =
      book.forget fun other height =>
        (other, height) ∈ heights.map fun height => (address, height) := by
    refine AtBook.forget_congr fun other height state there => ?_
    rw [List.mem_map]
    constructor
    · intro here
      have known : s.atState? address height = .ok (some state) := by
        rw [tracks.stated, ← here, there]
      obtain ⟨row, held, -⟩ := read_eq_some_iff.mp known
      have listed := mem_scan.mpr ⟨Cell.statesOf_isPrefix_key address height, held⟩
      have member := List.mem_map_of_mem (f := Prod.fst) listed
      rw [← keys] at member
      obtain ⟨height', cleared, place⟩ := List.mem_map.mp member
      have sameHeight : height' = height := (Cell.atState.inj (Cell.key_injective place)).2
      exact ⟨height', cleared, by rw [here, sameHeight]⟩
    · rintro ⟨_, -, place⟩
      exact (Prod.mk.inj place).1.symm
  unfold Session.deleteAt AtBook.withdraw
  rw [removed, same]
  exact ⟨rfl, struck.clearAt address⟩

end Tracks

end Session

end ChainLedger

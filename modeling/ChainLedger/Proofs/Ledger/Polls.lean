import ChainLedger.Proofs.Ledger.Registry

/-!
# Polls and the votes in them

The rows of polls make a list of polls with distinct names, from which every question about
polls is answered. Every row under the keys of votes is a vote that can be read, stands under
its own poll and voter, and is for an option of a poll on the list. A poll that is deleted takes
the votes in it with it, so that those that are left are in polls that are left.
-/

namespace ChainLedger

open Change

variable {s t : Session} {poll : Poll} {vote : Vote} {polls : List Poll}

/-- The families of the rows of polls and votes. -/
def Cell.electoral : List String := ["poll/", "vote/"]

theorem Cell.electoral_subset : Cell.electoral ⊆ Cell.families := by
  decide

/-- What the keys of all votes begin with. -/
def Cell.votes : Bytes := Cell.keyOf "vote/" []

theorem Cell.votes_isPrefix_key (name : String) (voter : PublicKey) :
    Cell.votes <+: (Cell.vote name voter).key := by
  refine ⟨closed name ++ voter.bytes, ?_⟩
  simp [key, votes, keyOf]

/-- All votes that are stored, in the order of their keys. -/
def Session.votes (s : Session) : Except DataError (List Vote) :=
  (s.scan Cell.votes).mapM fun row => Vote.form.ofRow row.1 row.2

/-- The poll has an option of this number. -/
def Poll.Offers (poll : Poll) (option : Int32) : Prop :=
  0 ≤ option.toInt ∧ option.toInt < poll.options.length

/-- The vote is for an option of one of the polls. -/
def Vote.IsIn (polls : List Poll) (vote : Vote) : Prop :=
  ∃ poll ∈ polls, poll.name = vote.poll ∧ poll.Offers vote.option

/-- The cell in which the vote is stored. -/
def Vote.cell (vote : Vote) : Cell := .vote vote.poll vote.voter

/-- The ledger answers every question about polls from the list, and holds no votes but such as
are for an option of a poll on it. -/
structure Session.Conducts (s : Session) (polls : List Poll) : Prop where
  found : ∀ name, s.poll? name = .ok (polls.find? fun poll => poll.name = name)
  names : (polls.map Poll.name).Nodup
  cast : ∀ key, Cell.votes <+: key → (s.get? key).isSome → ∃ vote : Vote,
    vote.cell.key = key ∧ s.vote? vote.poll vote.voter = .ok (some vote) ∧ vote.IsIn polls

namespace Session.Conducts

theorem empty : OrderedMap.empty.session.Conducts [] where
  found _ := rfl
  names := List.nodup_nil
  cast _ _ held := by cases held

theorem congr (conducts : s.Conducts polls) (same : s.SameIn Cell.electoral t) :
    t.Conducts polls where
  found name := by
    have row := same.get?_key (c := .poll name) (by simp [Cell.family, Cell.electoral])
    exact (read_congr row).trans (conducts.found name)
  names := conducts.names
  cast key leads held := by
    rw [same "vote/" (by simp [Cell.electoral]) key leads] at held
    obtain ⟨vote, own, known, isIn⟩ := conducts.cast key leads held
    have row := same.get?_key (c := vote.cell) (by simp [Vote.cell, Cell.family, Cell.electoral])
    exact ⟨vote, own, (read_congr row).trans known, isIn⟩

/-! ## What is read -/

/-- **What is found under a name** is the poll on the list that has it. -/
theorem poll?_eq_some_iff (conducts : s.Conducts polls) {name : String} :
    s.poll? name = .ok (some poll) ↔ poll ∈ polls ∧ poll.name = name := by
  rw [conducts.found, Except.ok.injEq, find?_eq_some_iff_of_nodup conducts.names]

/-- A poll that is there is on the list. -/
theorem exists_poll (conducts : s.Conducts polls) {name : String}
    (held : s.holds (.poll name) = true) : ∃ poll ∈ polls, poll.name = name := by
  cases found : polls.find? fun poll => poll.name = name with
  | some poll => exact ⟨poll, conducts.poll?_eq_some_iff.mp (by rw [conducts.found, found])⟩
  | none =>
    have missing := not_holds_of_read ((conducts.found name).trans (congrArg Except.ok found))
    rw [missing] at held
    cases held

/-- A poll that is not found has a name that none on the list has. -/
theorem ne_of_unpublished (conducts : s.Conducts polls) {name : String}
    (unpublished : s.poll? name = .ok none) : ∀ poll ∈ polls, poll.name ≠ name := by
  intro poll member same
  have found := conducts.poll?_eq_some_iff.mpr ⟨member, same⟩
  rw [unpublished] at found
  cases found

/-- **A vote that is read** is one by its voter in its poll, for an option that the poll has. -/
theorem vote?_eq_some (conducts : s.Conducts polls) {name : String} {voter : PublicKey}
    (known : s.vote? name voter = .ok (some vote)) :
    vote.poll = name ∧ vote.voter = voter ∧ vote.IsIn polls := by
  have held : s.holds (.vote name voter) = true := by
    cases held : s.holds (.vote name voter) with
    | true => rfl
    | false =>
      rw [vote?, read_of_not_holds held] at known
      cases known
  obtain ⟨own, same, known', isIn⟩ := conducts.cast _ (Cell.votes_isPrefix_key name voter) held
  cases Cell.key_injective same
  rw [known'] at known
  cases known
  exact ⟨rfl, rfl, isIn⟩

/-- **The votes that are stored** can all be read, and no voter has two of them in one poll. -/
theorem exists_votes (conducts : s.Conducts polls) :
    ∃ votes, s.votes = .ok votes ∧ (votes.map fun vote => (vote.poll, vote.voter)).Nodup ∧
      ∀ vote, vote ∈ votes ↔ s.vote? vote.poll vote.voter = .ok (some vote) := by
  have each : ∀ row ∈ s.scan Cell.votes, ∃ vote, Vote.form.ofRow row.1 row.2 = .ok vote ∧
      s.vote? vote.poll vote.voter = .ok (some vote) ∧ vote.cell.key = row.1 := by
    rintro ⟨key, row⟩ member
    rcases mem_scan.mp member with ⟨leads, held⟩
    obtain ⟨vote, rfl, known, -⟩ := conducts.cast key leads (by rw [held]; rfl)
    obtain ⟨row', held', value⟩ := read_eq_some_iff.mp known
    obtain rfl := Option.some.inj (held.symm.trans held')
    exact ⟨vote, value, known, rfl⟩
  obtain ⟨votes, listed, all, keys⟩ := Except.exists_mapM_keyed each
  refine ⟨votes, listed, ?_, fun vote => ⟨all vote, fun known => ?_⟩⟩
  · -- The keys of a scan are distinct, and a key comes of its poll and voter.
    have distinct : (votes.map fun vote => vote.cell.key).Nodup := by
      rw [keys]
      refine List.pairwise_map.mpr ((s.scan_ascending Cell.votes).imp fun less same => ?_)
      rw [same] at less
      exact List.lt_irrefl _ less
    refine .of_map (fun label : String × PublicKey => (Cell.vote label.1 label.2).key) ?_
    rw [List.map_map]
    exact distinct
  · obtain ⟨row, held, value⟩ := read_eq_some_iff.mp known
    have member := mem_scan.mpr ⟨Cell.votes_isPrefix_key vote.poll vote.voter, held⟩
    exact (Except.mem_mapM_iff listed).mpr ⟨_, member, value⟩

/-! ## Changes -/

/-- Saving a poll touches no row of a vote. -/
theorem get?_savePoll_vote (s : Session) (poll : Poll) {key : Bytes} (leads : Cell.votes <+: key) :
    (s.savePoll poll).get? key = s.get? key := by
  have other : "vote/" ∉ (Change.savePoll poll).families := by simp [families]
  exact get?_make (not_writes_of_front (by simp [Cell.families]) leads other) s

/-- **A new poll is put on the list.** -/
theorem savePoll (conducts : s.Conducts polls) (storable : poll.Storable)
    (unpublished : s.poll? poll.name = .ok none) : (s.savePoll poll).Conducts (poll :: polls) where
  found name := by
    by_cases here : poll.name = name
    · subst here
      rw [List.find?_cons_of_pos (by simp)]
      exact read_write_self (c := .poll poll.name) Poll.form_readsBack s storable
    · have apart : Cell.poll name ≠ .poll poll.name := by simpa using Ne.symm here
      rw [List.find?_cons_of_neg (by simpa using here), ← conducts.found]
      exact read_write_of_ne apart s poll
  names := by
    refine List.nodup_cons.mpr ⟨fun member => ?_, conducts.names⟩
    obtain ⟨other, there, same⟩ := List.mem_map.mp member
    exact conducts.ne_of_unpublished unpublished other there same
  cast key leads held := by
    rw [get?_savePoll_vote s poll leads] at held
    obtain ⟨vote, rfl, known, other, there, isIn⟩ := conducts.cast key leads held
    refine ⟨vote, rfl, ?_, other, List.mem_cons_of_mem _ there, isIn⟩
    exact (read_congr (get?_savePoll_vote s poll leads)).trans known

/-- **The poll that was published last is deleted** with the votes in it. -/
theorem deletePoll (conducts : s.Conducts (poll :: polls)) :
    (s.deletePoll poll.name).Conducts polls where
  found name := by
    have row := get?_deletePoll s poll.name (Cell.poll name).key
    have unled : ¬Cell.votesIn poll.name <+: (Cell.poll name).key := fun leads => by
      simpa [Cell.family] using Cell.family_eq_of_isPrefix (by simp [Cell.families]) leads
    by_cases here : poll.name = name
    · subst here
      have nothing : polls.find? (fun other => other.name = poll.name) = none := by
        refine List.find?_eq_none.mpr fun other member => ?_
        have names : other.name ≠ poll.name := fun same =>
          (List.nodup_cons.mp conducts.names).1 (List.mem_map.mpr ⟨other, member, same⟩)
        simpa using names
      rw [if_pos (.inl rfl)] at row
      rw [nothing, poll?, read, row]
    · have apart : Cell.poll name ≠ .poll poll.name := by simpa using Ne.symm here
      rw [if_neg (by simp [apart, unled])] at row
      have kept := conducts.found name
      rw [List.find?_cons_of_neg (by simpa using here)] at kept
      exact (read_congr row).trans kept
  names := (List.nodup_cons.mp conducts.names).2
  cast key leads held := by
    rw [get?_deletePoll] at held
    split at held
    next => cases held
    next kept =>
      obtain ⟨vote, rfl, known, other, there, named, offers⟩ := conducts.cast key leads held
      have row := get?_deletePoll s poll.name vote.cell.key
      rw [if_neg kept] at row
      refine ⟨vote, rfl, (read_congr row).trans known, other, ?_, named, offers⟩
      -- Its own poll would have taken the vote with it.
      refine (List.mem_cons.mp there).resolve_left fun own => kept (.inr ?_)
      rw [own] at named
      rw [named]
      exact ⟨vote.voter.bytes, by simp [Vote.cell, Cell.key, Cell.votesIn, Cell.keyOf]⟩

/-- **A vote for an option of a poll on the list can be saved**, whatever vote it takes the place
of. -/
theorem saveVote (conducts : s.Conducts polls) (storable : vote.Storable)
    (isIn : vote.IsIn polls) : (s.saveVote vote).Conducts polls where
  found name := by
    have apart : Cell.poll name ≠ .vote vote.poll vote.voter := by simp
    exact (read_write_of_ne apart s vote).trans (conducts.found name)
  names := conducts.names
  cast key leads held := by
    by_cases here : key = vote.cell.key
    · exact ⟨vote, here.symm, read_write_self (c := vote.cell) Vote.form_readsBack s storable, isIn⟩
    · have row : (s.saveVote vote).get? key = s.get? key :=
        (get?_write s vote.cell vote key).trans (if_neg here)
      rw [row] at held
      obtain ⟨other, rfl, known, isIn'⟩ := conducts.cast key leads held
      exact ⟨other, rfl, (read_congr row).trans known, isIn'⟩

/-- **A vote can be taken away.** -/
theorem deleteVote (conducts : s.Conducts polls) (name : String) (voter : PublicKey) :
    (s.deleteVote name voter).Conducts polls where
  found other := by
    have apart : Cell.poll other ≠ .vote name voter := by simp
    exact (read_clear_of_ne apart s).trans (conducts.found other)
  names := conducts.names
  cast key leads held := by
    have row := get?_clear s (.vote name voter) key
    split at row
    next => rw [Session.deleteVote, row] at held; cases held
    next =>
      rw [Session.deleteVote, row] at held
      obtain ⟨other, rfl, known, isIn⟩ := conducts.cast key leads held
      exact ⟨other, rfl, (read_congr row).trans known, isIn⟩

end Session.Conducts

end ChainLedger

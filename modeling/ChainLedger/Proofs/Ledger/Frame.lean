import ChainLedger.Ledger.Change
import ChainLedger.Proofs.Ledger.Cell
import ChainLedger.Proofs.Store.Scan

/-!
# What changes leave alone

Every change may write the rows under certain keys and leaves all others as they are,
whether it is made in full or meets a row that it cannot read. So does a list of
changes with the keys that none of them may write.
-/

namespace ChainLedger

/-! ## Several removals -/

namespace Session

theorem get?_removeAll (s : Session) (keys : List Bytes) (key : Bytes) :
    (s.removeAll keys).get? key = if key ∈ keys then none else s.get? key := by
  induction keys generalizing s with
  | nil => exact (if_neg List.not_mem_nil).symm
  | cons first rest ih =>
    have later := ih (s.remove first)
    rw [get?_remove] at later
    refine later.trans ?_
    by_cases here : key = first <;> simp [here]

/-- Removing the rows of states touches those rows and entries of the index of heights. -/
theorem get?_deleteStateRows {address : Address} {rows : List (Bytes × Bytes)} {key : Bytes}
    (apart : ∀ row ∈ rows, key ≠ row.1)
    (unindexed : ∀ height, key ≠ (Cell.atHeight height address).key) (s : Session) :
    (s.deleteStateRows address rows).session.get? key = s.get? key := by
  induction rows generalizing s with
  | nil => rfl
  | cons first rest ih =>
    obtain ⟨front, row⟩ := first
    have here := apart _ List.mem_cons_self
    have apart' := fun row member => apart row (List.mem_cons_of_mem _ member)
    rw [deleteStateRows]
    cases AtState.form.ofRow front row with
    | error error => rfl
    | ok state =>
      have later := ih apart' ((s.clear (.atHeight state.height address)).remove front)
      rw [get?_remove, if_neg here, get?_clear, if_neg (unindexed _)] at later
      exact later

/-- Where an AT has no states there is nothing to remove of them. -/
theorem scan_statesOf_eq_nil {s : Session} (address : Address)
    (stateless : ∀ key, Cell.keyOf "at-state/" [] <+: key → s.get? key = none) :
    s.scan (Cell.statesOf address) = [] := by
  refine List.eq_nil_iff_forall_not_mem.mpr fun row member => ?_
  rcases mem_scan.mp member with ⟨leads, held⟩
  have front : Cell.keyOf "at-state/" [] <+: row.1 := by
    refine List.IsPrefix.trans ⟨Cell.closed address, ?_⟩ leads
    rw [Cell.keyOf, List.append_nil]
    rfl
  rw [stateless row.1 front] at held
  cases held

end Session

/-! ## One change -/

theorem Session.storedUnder_eq_ok_iff {r : Record} {signature : Signature} :
    Session.storedUnder r = .ok signature ↔ r.signature? = some signature := by
  unfold Session.storedUnder
  cases r.signature? <;> simp

namespace Change

/-- The change may write the row under the key. -/
def Writes (change : Change) (key : Bytes) : Prop :=
  match change with
  | .adjust account asset _ | .setBalance account asset _ | .clearBalance account asset =>
    key = (Cell.balance account asset).key
  | .setReference account _ | .clearReference account | .introduce account _
  | .retract account _ => key = (Cell.reference account).key
  | .savePoll poll => key = (Cell.poll poll.name).key
  | .deletePoll name => key = (Cell.poll name).key ∨ Cell.votesIn name <+: key
  | .saveVote vote => key = (Cell.vote vote.poll vote.voter).key
  | .deleteVote poll voter => key = (Cell.vote poll voter).key
  | .saveAsset asset => key = (Cell.asset asset.id).key ∨ key = (Cell.assetName asset.name).key
  | .deleteAsset id => key = (Cell.asset id).key ∨ ∃ name, key = (Cell.assetName name).key
  | .saveAt deployed => key = (Cell.deployedAt deployed.address).key
  | .deleteAt address =>
    key = (Cell.deployedAt address).key ∨ Cell.statesOf address <+: key ∨
      ∃ height, key = (Cell.atHeight height address).key
  | .saveTransaction r | .deleteTransaction r =>
    ∃ signature, r.signature? = some signature ∧ key = (Cell.transaction signature).key

/-- The families of the cells that a change may write. -/
def families : Change → List String
  | .adjust .. | .setBalance .. | .clearBalance .. => ["balance/"]
  | .setReference .. | .clearReference .. | .introduce .. | .retract .. => ["reference/"]
  | .savePoll _ => ["poll/"]
  | .deletePoll _ => ["poll/", "vote/"]
  | .saveVote _ | .deleteVote .. => ["vote/"]
  | .saveAsset _ | .deleteAsset _ => ["asset/", "asset-name/"]
  | .saveAt _ => ["at/"]
  | .deleteAt _ => ["at/", "at-state/", "at-height/"]
  | .saveTransaction _ | .deleteTransaction _ => ["tx/"]

/-- What a change may write begins with the name of one of its families. -/
theorem exists_front_of_writes {change : Change} {key : Bytes} (writes : change.Writes key) :
    ∃ name ∈ change.families, name ∈ Cell.families ∧ ∃ rest, Cell.keyOf name rest <+: key := by
  have cell : ∀ c : Cell, c.family ∈ change.families → key = c.key →
      ∃ name ∈ change.families, name ∈ Cell.families ∧ ∃ rest, Cell.keyOf name rest <+: key := by
    rintro c member rfl
    exact ⟨c.family, member, c.family_mem, c.place, c.keyOf_isPrefix_key⟩
  cases change with
  | deletePoll name =>
    rcases writes with same | leads
    · exact cell _ (by simp [Cell.family, families]) same
    · exact ⟨"vote/", by simp [families], by simp [Cell.families], _, leads⟩
  | deleteAsset id =>
    rcases writes with same | ⟨name, same⟩ <;> exact cell _ (by simp [Cell.family, families]) same
  | deleteAt address =>
    rcases writes with same | leads | ⟨height, same⟩
    · exact cell _ (by simp [Cell.family, families]) same
    · exact ⟨"at-state/", by simp [families], by simp [Cell.families], _, leads⟩
    · exact cell _ (by simp [Cell.family, families]) same
  | saveAsset asset =>
    rcases writes with same | same <;> exact cell _ (by simp [Cell.family, families]) same
  | saveTransaction r | deleteTransaction r =>
    obtain ⟨signature, -, same⟩ := writes
    exact cell _ (by simp [Cell.family, families]) same
  | adjust | setBalance | clearBalance | setReference | clearReference | introduce | retract
  | savePoll | saveVote | deleteVote | saveAt =>
    exact cell _ (by simp [Cell.family, families]) writes

theorem family_mem_of_writes {change : Change} {c : Cell} (writes : change.Writes c.key) :
    c.family ∈ change.families := by
  obtain ⟨name, member, known, rest, leads⟩ := exists_front_of_writes writes
  exact Cell.family_eq_of_isPrefix known leads ▸ member

/-- A change leaves all rows alone under keys that begin like those of another family. -/
theorem not_writes_of_front {change : Change} {name : String} {rest key : Bytes}
    (known : name ∈ Cell.families) (leads : Cell.keyOf name rest <+: key)
    (other : name ∉ change.families) : ¬change.Writes key := by
  intro writes
  obtain ⟨written, member, known', rest', leads'⟩ := exists_front_of_writes writes
  exact other (Cell.family_unique known known' leads leads' ▸ member)

/-- A change leaves the cells of other families alone. -/
theorem not_writes_of_family {change : Change} {c : Cell} (other : c.family ∉ change.families) :
    ¬change.Writes c.key :=
  fun writes => other (family_mem_of_writes writes)

section Stored

variable {r : Record} {signature : Signature}

/-- A record is saved in the cell of its signature. -/
theorem make_saveTransaction (signed : r.signature? = some signature) (s : Session) :
    (Change.saveTransaction r).make s = .done (s.write (.transaction signature) r) := by
  have known : Session.storedUnder r = .ok signature := Session.storedUnder_eq_ok_iff.mpr signed
  rw [make, Session.saveTransaction, known]
  rfl

/-- Removing it clears that cell. -/
theorem make_deleteTransaction (signed : r.signature? = some signature) (s : Session) :
    (Change.deleteTransaction r).make s = .done (s.clear (.transaction signature)) := by
  have known : Session.storedUnder r = .ok signature := Session.storedUnder_eq_ok_iff.mpr signed
  rw [make, Session.deleteTransaction, known]
  rfl

end Stored

/-- What a change that reads first leaves alone if it succeeds, it leaves alone. -/
theorem get?_ofExcept {s : Session} {result : Except DataError Session} {key : Bytes}
    (kept : ∀ t, result = .ok t → t.get? key = s.get? key) :
    (Written.ofExcept s result).session.get? key = s.get? key := by
  cases result with
  | error error => rfl
  | ok t => exact kept t rfl

theorem get?_setLastReference {s : Session} {account : Address} {key : Bytes}
    (apart : key ≠ (Cell.reference account).key) (reference : Option Signature) :
    (s.setLastReference account reference).get? key = s.get? key := by
  cases reference with
  | none => exact (Session.get?_clear ..).trans (if_neg apart)
  | some signature => exact (Session.get?_write ..).trans (if_neg apart)

/-- Removing a poll removes its row and the rows of all keys that begin like those of its votes. -/
theorem get?_deletePoll (s : Session) (name : String) (key : Bytes) :
    (s.deletePoll name).get? key =
      if key = (Cell.poll name).key ∨ Cell.votesIn name <+: key then none else s.get? key := by
  rw [Session.deletePoll, Session.get?_clear, Session.get?_removeAll]
  by_cases own : key = (Cell.poll name).key
  · simp [own]
  by_cases leads : Cell.votesIn name <+: key
  · rw [if_neg own, if_pos (Or.inr leads)]
    split
    next => rfl
    next unlisted =>
      -- A row that is there would have been listed.
      refine Option.eq_none_iff_forall_ne_some.mpr fun row held => unlisted ?_
      exact List.mem_map.mpr ⟨(key, row), Session.mem_scan.mpr ⟨leads, held⟩, rfl⟩
  · have unlisted : key ∉ (s.scan (Cell.votesIn name)).map Prod.fst := by
      rintro member
      rcases List.mem_map.mp member with ⟨row, listed, rfl⟩
      exact leads (Session.mem_scan.mp listed).1
    simp [own, leads, unlisted]

theorem get?_deleteAsset {s t : Session} {id : AssetId} {key : Bytes}
    (apart : key ≠ (Cell.asset id).key) (unnamed : ∀ name, key ≠ (Cell.assetName name).key)
    (deleted : s.deleteAsset id = .ok t) : t.get? key = s.get? key := by
  rcases Except.map_eq_ok_iff.mp deleted with ⟨held, -, rfl⟩
  cases held with
  | none => rw [Session.get?_clear, if_neg apart]
  | some asset => rw [Session.get?_clear, if_neg apart, Session.get?_clear, if_neg (unnamed _)]

theorem get?_deleteAt {s : Session} {address : Address} {key : Bytes}
    (apart : key ≠ (Cell.deployedAt address).key) (unled : ¬Cell.statesOf address <+: key)
    (unindexed : ∀ height, key ≠ (Cell.atHeight height address).key) :
    (s.deleteAt address).session.get? key = s.get? key := by
  have kept : (s.deleteStateRows address (s.scan (Cell.statesOf address))).session.get? key =
      s.get? key := by
    apply Session.get?_deleteStateRows _ unindexed
    rintro row member rfl
    exact unled (Session.mem_scan.mp member).1
  rw [Session.deleteAt]
  cases (s.deleteStateRows address (s.scan (Cell.statesOf address))).outcome with
  | error error => exact kept
  | ok done => exact (Session.get?_clear ..).trans ((if_neg apart).trans kept)

/-- **A change keeps to its rows.** -/
theorem get?_make {change : Change} {key : Bytes} (apart : ¬change.Writes key) (s : Session) :
    (change.make s).session.get? key = s.get? key := by
  cases change with
  | adjust account asset delta =>
    refine get?_ofExcept fun t made => ?_
    rcases Except.map_eq_ok_iff.mp made with ⟨balance, -, rfl⟩
    exact (Session.get?_write ..).trans (if_neg apart)
  | setBalance account asset balance => exact (Session.get?_write ..).trans (if_neg apart)
  | clearBalance account asset => exact (Session.get?_clear ..).trans (if_neg apart)
  | setReference account reference => exact get?_setLastReference apart _
  | clearReference account => exact get?_setLastReference apart _
  | introduce account reference =>
    refine get?_ofExcept fun t made => ?_
    rcases Except.map_eq_ok_iff.mp made with ⟨last, -, rfl⟩
    split
    next => exact get?_setLastReference apart _
    next => rfl
  | retract account reference =>
    refine get?_ofExcept fun t made => ?_
    rcases Except.map_eq_ok_iff.mp made with ⟨last, -, rfl⟩
    split
    next => exact get?_setLastReference apart _
    next => rfl
  | savePoll poll => exact (Session.get?_write ..).trans (if_neg apart)
  | deletePoll name => exact (get?_deletePoll s name key).trans (if_neg apart)
  | saveVote vote => exact (Session.get?_write ..).trans (if_neg apart)
  | deleteVote poll voter => exact (Session.get?_clear ..).trans (if_neg apart)
  | saveAsset asset =>
    rw [Writes, not_or] at apart
    simp only [make, Written.done, Session.saveAsset]
    rw [Session.get?_write, if_neg apart.1, Session.get?_write, if_neg apart.2]
  | deleteAsset id =>
    rw [Writes, not_or, not_exists] at apart
    exact get?_ofExcept fun t made => get?_deleteAsset apart.1 apart.2 made
  | saveAt deployed => exact (Session.get?_write ..).trans (if_neg apart)
  | deleteAt address =>
    rw [Writes, not_or, not_or, not_exists] at apart
    exact get?_deleteAt apart.1 apart.2.1 apart.2.2
  | saveTransaction r =>
    refine get?_ofExcept fun t made => ?_
    rcases Except.map_eq_ok_iff.mp made with ⟨signature, signed, rfl⟩
    have known := Session.storedUnder_eq_ok_iff.mp signed
    exact (Session.get?_write ..).trans (if_neg fun same => apart ⟨signature, known, same⟩)
  | deleteTransaction r =>
    refine get?_ofExcept fun t made => ?_
    rcases Except.map_eq_ok_iff.mp made with ⟨signature, signed, rfl⟩
    have known := Session.storedUnder_eq_ok_iff.mp signed
    exact (Session.get?_clear ..).trans (if_neg fun same => apart ⟨signature, known, same⟩)

/-! ## Lists of changes -/

theorem makeAll_cons_of_ok {change : Change} {s : Session}
    (made : (change.make s).outcome = .ok ()) (rest : List Change) :
    makeAll (change :: rest) s = makeAll rest (change.make s).session := by
  rw [makeAll]
  simp only [made]

theorem makeAll_cons_of_error {change : Change} {s : Session} {error : DataError}
    (failed : (change.make s).outcome = .error error) (rest : List Change) :
    makeAll (change :: rest) s = change.make s := by
  rw [makeAll]
  simp only [failed]

/-- **Changes keep to their rows.** -/
theorem get?_makeAll {changes : List Change} {key : Bytes}
    (apart : ∀ change ∈ changes, ¬change.Writes key) (s : Session) :
    (makeAll changes s).session.get? key = s.get? key := by
  induction changes generalizing s with
  | nil => rfl
  | cons change rest ih =>
    have here := get?_make (apart change List.mem_cons_self) s
    cases made : (change.make s).outcome with
    | ok done =>
      have later := ih (fun other member => apart other (List.mem_cons_of_mem _ member))
        (change.make s).session
      rw [makeAll_cons_of_ok made, later, here]
    | error error => rw [makeAll_cons_of_error made, here]

/-- A cell that no change may write holds what it held. -/
theorem read_makeAll {changes : List Change} {c : Cell}
    (apart : ∀ change ∈ changes, ¬change.Writes c.key) (s : Session) :
    (makeAll changes s).session.read c = s.read c :=
  Session.read_congr (get?_makeAll apart s)

end Change

end ChainLedger

import ChainLedger.Proofs.Ledger.Frame
import ChainLedger.Proofs.Store.Refinement

/-!
# Ledgers that read alike

How the rows of a session are spread over committed rows and pending writes is of no
account: sessions that look every key up alike answer every question alike, and the same
changes end in the same way on both and leave them alike. Changes to other families leave the
rows of some families as they are.
-/

namespace ChainLedger

/-- The sessions hold the same rows. -/
def Session.Agree (s t : Session) : Prop := ∀ key, s.get? key = t.get? key

namespace Session.Agree

variable {s t : Session}

theorem symm (same : s.Agree t) : t.Agree s := fun key => (same key).symm

/-- Committing what is pending leaves the rows as they are read. -/
theorem commit (s : Session) : s.Agree s.commit.session := get?_eq_get?_commit s

/-! ## Writes -/

theorem put (same : s.Agree t) (key row : Bytes) : (s.put key row).Agree (t.put key row) := by
  intro other
  rw [get?_put, get?_put, same]

theorem remove (same : s.Agree t) (key : Bytes) : (s.remove key).Agree (t.remove key) := by
  intro other
  rw [get?_remove, get?_remove, same]

theorem write (same : s.Agree t) (c : Cell) (value : c.Value) :
    (s.write c value).Agree (t.write c value) :=
  same.put _ _

theorem clear (same : s.Agree t) (c : Cell) : (s.clear c).Agree (t.clear c) := same.remove _

theorem removeAll (same : s.Agree t) (keys : List Bytes) :
    (s.removeAll keys).Agree (t.removeAll keys) := by
  induction keys generalizing s t with
  | nil => exact same
  | cons key rest ih => exact ih (same.remove key)

theorem setLastReference (same : s.Agree t) (account : Address) (reference : Option Signature) :
    (s.setLastReference account reference).Agree (t.setLastReference account reference) := by
  cases reference with
  | none => exact same.clear _
  | some signature => exact same.write (.reference account) signature

/-! ## Questions -/

theorem read (same : s.Agree t) : s.read = t.read := funext fun c => read_congr (same c.key)

theorem holds (same : s.Agree t) (c : Cell) : s.holds c = t.holds c :=
  congrArg Option.isSome (same c.key)

theorem scan (same : s.Agree t) : s.scan = t.scan := by
  funext front
  rw [scan_eq, scan_eq, commit_eq same]

theorem balance (same : s.Agree t) : s.balance = t.balance := by
  funext account asset
  rw [Session.balance, Session.balance, same.read]

theorem lastReference (same : s.Agree t) : s.lastReference = t.lastReference := by
  funext account
  rw [Session.lastReference, Session.lastReference, same.read]

theorem asset? (same : s.Agree t) : s.asset? = t.asset? := by
  funext id
  rw [Session.asset?, Session.asset?, same.read]

theorem assetNameExists (same : s.Agree t) : s.assetNameExists = t.assetNameExists :=
  funext fun _ => same.holds _

theorem nextAssetId (same : s.Agree t) : s.nextAssetId = t.nextAssetId := by
  rw [Session.nextAssetId, Session.nextAssetId, same.scan]

theorem poll? (same : s.Agree t) : s.poll? = t.poll? := by
  funext name
  rw [Session.poll?, Session.poll?, same.read]

theorem pollExists (same : s.Agree t) : s.pollExists = t.pollExists := by
  funext name
  rw [Session.pollExists, Session.pollExists, same.poll?]

theorem vote? (same : s.Agree t) : s.vote? = t.vote? := by
  funext poll voter
  rw [Session.vote?, Session.vote?, same.read]

end Session.Agree

/-! ## Changes -/

/-- Writes that ended in the same way, and left ledgers that read alike. -/
structure Written.Agree (a b : Written) : Prop where
  outcome : a.outcome = b.outcome
  session : a.session.Agree b.session

namespace Written.Agree

variable {s t : Session}

theorem done (same : s.Agree t) : (Written.done s).Agree (.done t) := ⟨rfl, same⟩

/-- Writes that depend on what is read first. -/
theorem ofExcept {α : Type} {found : Except DataError α} {f g : α → Session} (same : s.Agree t)
    (later : ∀ a, (f a).Agree (g a)) :
    (Written.ofExcept s (found.map f)).Agree (.ofExcept t (found.map g)) := by
  cases found with
  | error error => exact ⟨rfl, same⟩
  | ok a => exact ⟨rfl, later a⟩

theorem deleteStateRows (same : s.Agree t) (address : Address) (rows : List (Bytes × Bytes)) :
    (s.deleteStateRows address rows).Agree (t.deleteStateRows address rows) := by
  induction rows generalizing s t with
  | nil => exact done same
  | cons first rest ih =>
    obtain ⟨key, row⟩ := first
    rw [Session.deleteStateRows, Session.deleteStateRows]
    cases AtState.form.ofRow key row with
    | error error => exact ⟨rfl, same⟩
    | ok state => exact ih ((same.clear _).remove key)

theorem deleteAt (same : s.Agree t) (address : Address) :
    (s.deleteAt address).Agree (t.deleteAt address) := by
  obtain ⟨outcome, session⟩ := deleteStateRows same address (s.scan (Cell.statesOf address))
  rw [Session.deleteAt, Session.deleteAt, ← same.scan, ← outcome]
  cases (s.deleteStateRows address (s.scan (Cell.statesOf address))).outcome with
  | error error => exact ⟨rfl, session⟩
  | ok => exact done (session.clear _)

end Written.Agree

namespace Change

variable {s t : Session}

/-- **A change does the same to ledgers that read alike.** -/
theorem agree_make (same : s.Agree t) (change : Change) :
    (change.make s).Agree (change.make t) := by
  cases change with
  | adjust account asset delta =>
    rw [make, make, Session.adjustBalance, Session.adjustBalance, same.balance]
    exact .ofExcept same fun balance => same.write _ _
  | setBalance account asset balance => exact .done (same.write _ _)
  | clearBalance account asset => exact .done (same.clear _)
  | setReference account reference => exact .done (same.setLastReference _ _)
  | clearReference account => exact .done (same.setLastReference _ _)
  | introduce account reference =>
    rw [make, make, same.lastReference]
    refine .ofExcept same fun last => ?_
    split
    next => exact same.setLastReference _ _
    next => exact same
  | retract account reference =>
    rw [make, make, same.lastReference]
    refine .ofExcept same fun last => ?_
    split
    next => exact same.setLastReference _ _
    next => exact same
  | savePoll poll => exact .done (same.write _ _)
  | deletePoll name =>
    rw [make, make, Session.deletePoll, Session.deletePoll, same.scan]
    exact .done ((same.removeAll _).clear _)
  | saveVote vote => exact .done (same.write _ _)
  | deleteVote poll voter => exact .done (same.clear _)
  | saveAsset asset => exact .done ((same.write _ _).write _ _)
  | deleteAsset id =>
    rw [make, make, Session.deleteAsset, Session.deleteAsset, same.asset?]
    refine .ofExcept same fun held => ?_
    cases held with
    | none => exact same.clear _
    | some asset => exact (same.clear _).clear _
  | saveAt deployed => exact .done (same.write _ _)
  | deleteAt address => exact .deleteAt same address
  | saveTransaction r => exact .ofExcept same fun signature => same.write _ _
  | deleteTransaction r => exact .ofExcept same fun signature => same.clear _

/-- **Changes do the same to ledgers that read alike**, also up to one that fails. -/
theorem agree_makeAll (same : s.Agree t) (changes : List Change) :
    (makeAll changes s).Agree (makeAll changes t) := by
  induction changes generalizing s t with
  | nil => exact .done same
  | cons change rest ih =>
    have first := agree_make same change
    cases made : (change.make s).outcome with
    | ok =>
      rw [makeAll_cons_of_ok made, makeAll_cons_of_ok (first.outcome.symm.trans made)]
      exact ih first.session
    | error error =>
      rw [makeAll_cons_of_error made, makeAll_cons_of_error (first.outcome.symm.trans made)]
      exact first

end Change

/-! ## Rows of some families -/

section Families

variable {s t u : Session} {names : List String} {changes : List Change}

/-- The rows of the named families are the same in both ledgers. -/
def Session.SameIn (names : List String) (s t : Session) : Prop :=
  ∀ name ∈ names, ∀ key, Cell.keyOf name [] <+: key → t.get? key = s.get? key

theorem Session.SameIn.get?_key (same : s.SameIn names t) {c : Cell} (family : c.family ∈ names) :
    t.get? c.key = s.get? c.key := by
  refine same c.family family c.key ?_
  rw [Cell.key_eq, Cell.keyOf, List.append_nil]
  exact List.prefix_append _ _

theorem Session.SameIn.trans (same : s.SameIn names t) (same' : t.SameIn names u) :
    s.SameIn names u :=
  fun name known key leads => (same' name known key leads).trans (same name known key leads)

theorem Session.SameIn.clear (same : s.SameIn names t) (c : Cell) :
    (s.clear c).SameIn names (t.clear c) := by
  intro name known key leads
  rw [get?_clear, get?_clear, same name known key leads]

theorem Session.Agree.sameIn (same : s.Agree t) : s.SameIn names t :=
  fun _ _ key _ => (same key).symm

/-- A change to other families leaves the rows of these alone. -/
theorem Change.sameIn_make {change : Change} (known : names ⊆ Cell.families)
    (other : ∀ name ∈ names, name ∉ change.families) (s : Session) :
    s.SameIn names (change.make s).session :=
  fun name member _ leads =>
    get?_make (not_writes_of_front (known member) leads (other name member)) s

theorem Change.sameIn_makeAll (known : names ⊆ Cell.families)
    (other : ∀ change ∈ changes, ∀ name ∈ names, name ∉ change.families) (s : Session) :
    s.SameIn names (makeAll changes s).session := by
  intro name member key leads
  refine get?_makeAll (fun change among => ?_) s
  exact not_writes_of_front (known member) leads (other change among name member)

end Families

end ChainLedger

import ChainLedger.Proofs.Ledger.Frame

/-!
# What changes do

When a change succeeds, what becomes of a balance or of a reference depends on the
change and on what it was, and on nothing else. So what a list of changes does to it is
what the changes do in order. A change succeeds exactly when the row that it has to
read first can be read.
-/

namespace ChainLedger

/-! ## Success -/

/-- The row of a cell is there and can be read, or is not there. -/
def Session.Legible (s : Session) (c : Cell) : Prop := ∃ value, s.read c = .ok value

namespace Session

variable {s : Session} {account : Address} {asset : AssetId}

theorem legible_balance_iff :
    s.Legible (.balance account asset) ↔ ∃ amount, s.balance account asset = .ok amount := by
  unfold Legible balance
  cases s.read (.balance account asset) <;> simp [Except.map]

theorem legible_reference_iff :
    s.Legible (.reference account) ↔ ∃ last, s.lastReference account = .ok last :=
  Iff.rfl

/-- The rows of states can all be read. -/
theorem deleteStateRows_eq_ok_iff {address : Address} {rows : List (Bytes × Bytes)} :
    (s.deleteStateRows address rows).outcome = .ok () ↔
      ∀ row ∈ rows, ∃ state, AtState.form.ofRow row.1 row.2 = .ok state := by
  induction rows generalizing s with
  | nil => simp [deleteStateRows]
  | cons first rest ih =>
    obtain ⟨key, row⟩ := first
    rw [deleteStateRows, List.forall_mem_cons]
    cases AtState.form.ofRow key row with
    | error error => simp
    | ok state => simpa using ih

end Session

namespace Change

/-- What a change has to read first can be read. -/
def Makeable (s : Session) : Change → Prop
  | .adjust account asset _ => s.Legible (.balance account asset)
  | .introduce account _ | .retract account _ => s.Legible (.reference account)
  | .deleteAsset id => s.Legible (.asset id)
  | .deleteAt address =>
    ∀ row ∈ s.scan (Cell.statesOf address), ∃ state, AtState.form.ofRow row.1 row.2 = .ok state
  | .saveTransaction r | .deleteTransaction r => r.isSigned
  | .setBalance .. | .clearBalance .. | .setReference .. | .clearReference .. | .savePoll _
  | .deletePoll _ | .saveVote _ | .deleteVote .. | .saveAsset _ | .saveAt _ => True

theorem ofExcept_map_eq_ok_iff {α : Type} {s : Session} {x : Except DataError α}
    {f : α → Session} : (Written.ofExcept s (x.map f)).outcome = .ok () ↔ ∃ a, x = .ok a := by
  cases x <;> simp [Written.ofExcept, Written.done, Except.map]

theorem exists_storedUnder_iff {r : Record} :
    (∃ signature, Session.storedUnder r = .ok signature) ↔ r.isSigned = true := by
  simp only [Session.storedUnder_eq_ok_iff, Record.isSigned, Option.isSome_iff_exists]

/-- **A change succeeds exactly when it can read what it has to.** -/
theorem make_eq_ok_iff {change : Change} {s : Session} :
    (change.make s).outcome = .ok () ↔ change.Makeable s := by
  cases change with
  | adjust account asset delta =>
    exact ofExcept_map_eq_ok_iff.trans Session.legible_balance_iff.symm
  | introduce account reference => exact ofExcept_map_eq_ok_iff
  | retract account reference => exact ofExcept_map_eq_ok_iff
  | deleteAsset id => exact ofExcept_map_eq_ok_iff
  | deleteAt address =>
    rw [Makeable, ← Session.deleteStateRows_eq_ok_iff, make, Session.deleteAt]
    cases (s.deleteStateRows address (s.scan (Cell.statesOf address))).outcome <;> simp
  | saveTransaction r => exact ofExcept_map_eq_ok_iff.trans exists_storedUnder_iff
  | deleteTransaction r => exact ofExcept_map_eq_ok_iff.trans exists_storedUnder_iff
  | setBalance | clearBalance | setReference | clearReference | savePoll | deletePoll | saveVote
  | deleteVote | saveAsset | saveAt => exact iff_of_true rfl trivial

/-- Changes all succeed if the first one does, and the rest after it. -/
theorem makeAll_cons_eq_ok_iff {change : Change} {rest : List Change} {s : Session} :
    (makeAll (change :: rest) s).outcome = .ok () ↔
      (change.make s).outcome = .ok () ∧
        (makeAll rest (change.make s).session).outcome = .ok () := by
  cases made : (change.make s).outcome with
  | ok done => simp [makeAll_cons_of_ok made]
  | error error => simp [makeAll_cons_of_error made, made]

theorem makeAll_append_eq_ok_iff {first second : List Change} {s : Session} :
    (makeAll (first ++ second) s).outcome = .ok () ↔
      (makeAll first s).outcome = .ok () ∧
        (makeAll second (makeAll first s).session).outcome = .ok () := by
  rw [makeAll_append]
  cases made : (makeAll first s).outcome <;> simp [made]

theorem makeAll_append_of_ok {first : List Change} {s : Session}
    (made : (makeAll first s).outcome = .ok ()) (second : List Change) :
    makeAll (first ++ second) s = makeAll second (makeAll first s).session := by
  rw [makeAll_append]
  simp only [made]

/-! ## Effects on balances -/

/-- What a change does to a balance. -/
def onBalance (account : Address) (asset : AssetId) (change : Change)
    (balance : Except DataError Amount) : Except DataError Amount :=
  match change with
  | .adjust other asset' delta =>
    if account = other ∧ asset = asset' then balance.map (· + delta) else balance
  | .setBalance other asset' amount =>
    if account = other ∧ asset = asset' then .ok amount else balance
  | .clearBalance other asset' =>
    if account = other ∧ asset = asset' then .ok Amount.zero else balance
  | _ => balance

/-- What changes do to a balance. -/
def onBalanceAll (account : Address) (asset : AssetId) (changes : List Change)
    (balance : Except DataError Amount) : Except DataError Amount :=
  changes.foldl (fun balance change => change.onBalance account asset balance) balance

theorem balance_congr {s t : Session} {account : Address} {asset : AssetId}
    (same : s.get? (Cell.balance account asset).key = t.get? (Cell.balance account asset).key) :
    s.balance account asset = t.balance account asset := by
  rw [Session.balance, Session.balance, Session.read_congr same]

/-- **What a change does to a balance** that it may write, and to any other. -/
theorem balance_make {change : Change} {s : Session} (made : (change.make s).outcome = .ok ())
    (account : Address) (asset : AssetId) :
    (change.make s).session.balance account asset =
      change.onBalance account asset (s.balance account asset) := by
  cases change with
  | adjust other asset' delta =>
    rcases ofExcept_map_eq_ok_iff.mp made with ⟨before, readable⟩
    simp only [make, Session.adjustBalance, readable, Except.map, Written.ofExcept, Written.done,
      Session.balance_setBalance, onBalance]
    split
    next same =>
      obtain ⟨rfl, rfl⟩ := same
      rw [readable]
    next => rfl
  | setBalance other asset' amount =>
    exact Session.balance_setBalance s other account asset' asset amount
  | clearBalance other asset' => exact Session.balance_clearBalance s other account asset' asset
  | setReference | clearReference | introduce | retract | savePoll | deletePoll | saveVote
  | deleteVote | saveAsset | deleteAsset | saveAt | deleteAt | saveTransaction
  | deleteTransaction =>
    exact balance_congr (get?_make (not_writes_of_family (by simp [Cell.family, families])) s)

theorem balance_saveAsset (s : Session) (saved : Asset) (account : Address) (asset : AssetId) :
    (s.saveAsset saved).balance account asset = s.balance account asset :=
  balance_make (rfl : ((Change.saveAsset saved).make s).outcome = .ok ()) account asset

theorem onBalanceAll_cons (account : Address) (asset : AssetId) (change : Change)
    (rest : List Change) (balance : Except DataError Amount) :
    onBalanceAll account asset (change :: rest) balance =
      onBalanceAll account asset rest (change.onBalance account asset balance) :=
  rfl

theorem onBalanceAll_append (account : Address) (asset : AssetId) (first second : List Change)
    (balance : Except DataError Amount) :
    onBalanceAll account asset (first ++ second) balance =
      onBalanceAll account asset second (onBalanceAll account asset first balance) :=
  List.foldl_append

/-- What changes do to a balance if they all succeed. -/
theorem balance_makeAll {changes : List Change} {s : Session}
    (made : (makeAll changes s).outcome = .ok ()) (account : Address) (asset : AssetId) :
    (makeAll changes s).session.balance account asset =
      onBalanceAll account asset changes (s.balance account asset) := by
  induction changes generalizing s with
  | nil => rfl
  | cons change rest ih =>
    rcases makeAll_cons_eq_ok_iff.mp made with ⟨first, later⟩
    rw [makeAll_cons_of_ok first, ih later, balance_make first, onBalanceAll_cons]

/-! ## Effects on references -/

/-- What a change does to a reference. -/
def onReference (account : Address) (change : Change)
    (last : Except DataError (Option Signature)) : Except DataError (Option Signature) :=
  match change with
  | .setReference other reference => if account = other then .ok (some reference) else last
  | .clearReference other => if account = other then .ok none else last
  | .introduce other reference =>
    if account = other then last.map fun last => if last.isNone then some reference else last
    else last
  | .retract other reference =>
    if account = other then last.map fun last => if last = some reference then none else last
    else last
  | _ => last

/-- What changes do to a reference. -/
def onReferenceAll (account : Address) (changes : List Change)
    (last : Except DataError (Option Signature)) : Except DataError (Option Signature) :=
  changes.foldl (fun last change => change.onReference account last) last

/-- **What a change does to a reference** that it may write, and to any other. -/
theorem lastReference_make {change : Change} {s : Session}
    (made : (change.make s).outcome = .ok ()) (account : Address) :
    (change.make s).session.lastReference account =
      change.onReference account (s.lastReference account) := by
  cases change with
  | setReference other reference => exact Session.lastReference_setLastReference s other account _
  | clearReference other => exact Session.lastReference_setLastReference s other account _
  | introduce other reference =>
    rcases ofExcept_map_eq_ok_iff.mp made with ⟨before, readable⟩
    simp only [make, readable, Except.map, Written.ofExcept, Written.done, onReference]
    by_cases same : account = other
    · subst same
      cases before with
      | none => simp [readable, Session.lastReference_setLastReference]
      | some held => simp [readable]
    · cases before with
      | none => simp [same, Session.lastReference_setLastReference]
      | some held => simp [same]
  | retract other reference =>
    rcases ofExcept_map_eq_ok_iff.mp made with ⟨before, readable⟩
    simp only [make, readable, Except.map, Written.ofExcept, Written.done, onReference]
    by_cases same : account = other
    · subst same
      by_cases held : before = some reference
      · simp [readable, held, Session.lastReference_setLastReference]
      · simp [readable, held]
    · by_cases held : before = some reference
      · simp [same, held, Session.lastReference_setLastReference]
      · simp [same, held]
  | adjust | setBalance | clearBalance | savePoll | deletePoll | saveVote | deleteVote | saveAsset
  | deleteAsset | saveAt | deleteAt | saveTransaction | deleteTransaction =>
    exact Session.read_congr
      (get?_make (not_writes_of_family (by simp [Cell.family, families])) s)

theorem onReferenceAll_cons (account : Address) (change : Change) (rest : List Change)
    (last : Except DataError (Option Signature)) :
    onReferenceAll account (change :: rest) last =
      onReferenceAll account rest (change.onReference account last) :=
  rfl

theorem onReferenceAll_append (account : Address) (first second : List Change)
    (last : Except DataError (Option Signature)) :
    onReferenceAll account (first ++ second) last =
      onReferenceAll account second (onReferenceAll account first last) :=
  List.foldl_append

/-- What changes do to a reference if they all succeed. -/
theorem lastReference_makeAll {changes : List Change} {s : Session}
    (made : (makeAll changes s).outcome = .ok ()) (account : Address) :
    (makeAll changes s).session.lastReference account =
      onReferenceAll account changes (s.lastReference account) := by
  induction changes generalizing s with
  | nil => rfl
  | cons change rest ih =>
    rcases makeAll_cons_eq_ok_iff.mp made with ⟨first, later⟩
    rw [makeAll_cons_of_ok first, ih later, lastReference_make first, onReferenceAll_cons]

/-! ## Changes that stay possible -/

/-- The change reads nothing but balances and references. -/
def IsSteady : Change → Prop
  | .deleteAsset _ | .deleteAt _ => False
  | _ => True

/-- A balance that can be read can be read after any change that succeeds. -/
theorem legible_balance_make {change : Change} {s : Session} {account : Address} {asset : AssetId}
    (made : (change.make s).outcome = .ok ()) (legible : s.Legible (.balance account asset)) :
    (change.make s).session.Legible (.balance account asset) := by
  rcases Session.legible_balance_iff.mp legible with ⟨amount, readable⟩
  rw [Session.legible_balance_iff, balance_make made, readable]
  cases change <;> simp only [onBalance] <;> first | split | skip
  all_goals exact ⟨_, rfl⟩

/-- A reference that can be read can be read after any change that succeeds. -/
theorem legible_reference_make {change : Change} {s : Session} {account : Address}
    (made : (change.make s).outcome = .ok ()) (legible : s.Legible (.reference account)) :
    (change.make s).session.Legible (.reference account) := by
  rcases Session.legible_reference_iff.mp legible with ⟨last, readable⟩
  rw [Session.legible_reference_iff, lastReference_make made, readable]
  cases change <;> simp only [onReference] <;> first | split | skip
  all_goals exact ⟨_, rfl⟩

/-- What can be made can still be made after another change that succeeds. -/
theorem makeable_make {change other : Change} {s : Session} (steady : change.IsSteady)
    (makeable : change.Makeable s) (made : (other.make s).outcome = .ok ()) :
    change.Makeable (other.make s).session := by
  cases change with
  | adjust => exact legible_balance_make made makeable
  | introduce | retract => exact legible_reference_make made makeable
  | deleteAsset | deleteAt => exact steady.elim
  | saveTransaction | deleteTransaction => exact makeable
  | setBalance | clearBalance | setReference | clearReference | savePoll | deletePoll | saveVote
  | deleteVote | saveAsset | saveAt => exact trivial

/-- Changes that can each be made can be made one after the other. -/
theorem makeAll_eq_ok {changes : List Change} {s : Session}
    (steady : ∀ change ∈ changes, change.IsSteady)
    (makeable : ∀ change ∈ changes, change.Makeable s) : (makeAll changes s).outcome = .ok () := by
  induction changes generalizing s with
  | nil => rfl
  | cons change rest ih =>
    rw [List.forall_mem_cons] at steady makeable
    have first := make_eq_ok_iff.mpr makeable.1
    have later := ih steady.2 fun other member =>
      makeable_make (steady.2 other member) (makeable.2 other member) first
    exact makeAll_cons_eq_ok_iff.mpr ⟨first, later⟩

/-- What can be made can still be made after others that succeed. -/
theorem makeable_makeAll {change : Change} {changes : List Change} {s : Session}
    (steady : change.IsSteady) (makeable : change.Makeable s)
    (made : (makeAll changes s).outcome = .ok ()) :
    change.Makeable (makeAll changes s).session := by
  induction changes generalizing s with
  | nil => exact makeable
  | cons other rest ih =>
    rcases makeAll_cons_eq_ok_iff.mp made with ⟨first, later⟩
    rw [makeAll_cons_of_ok first]
    exact ih (makeable_make steady makeable first) later

/-- A balance that can be read can be read after changes that succeed. -/
theorem legible_balance_makeAll {changes : List Change} {s : Session} {account : Address}
    {asset : AssetId} (legible : s.Legible (.balance account asset))
    (made : (makeAll changes s).outcome = .ok ()) :
    (makeAll changes s).session.Legible (.balance account asset) := by
  have possible : (Change.adjust account asset .zero).Makeable (makeAll changes s).session :=
    makeable_makeAll trivial legible made
  exact possible

/-- A reference that can be read can be read after changes that succeed. -/
theorem legible_reference_makeAll {changes : List Change} {s : Session} {account : Address}
    (legible : s.Legible (.reference account)) (made : (makeAll changes s).outcome = .ok ()) :
    (makeAll changes s).session.Legible (.reference account) := by
  have possible : (Change.introduce account .zero).Makeable (makeAll changes s).session :=
    makeable_makeAll trivial legible made
  exact possible

/-- What was made among others that succeeded can be made again. -/
theorem makeable_of_mem {change : Change} {changes : List Change} {s : Session}
    (steady : change.IsSteady) (member : change ∈ changes)
    (made : (makeAll changes s).outcome = .ok ()) :
    change.Makeable (makeAll changes s).session := by
  induction changes generalizing s with
  | nil => cases member
  | cons other rest ih =>
    rcases makeAll_cons_eq_ok_iff.mp made with ⟨first, later⟩
    rw [makeAll_cons_of_ok first]
    rcases List.mem_cons.mp member with rfl | there
    · have again := makeable_make steady (make_eq_ok_iff.mp first) first
      exact makeable_makeAll steady again later
    · exact ih there later

end Change

end ChainLedger

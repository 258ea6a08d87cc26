import ChainLedger.Proofs.Ledger.Assets
import ChainLedger.Proofs.Transaction.Plan
import ChainLedger.Proofs.Transaction.Step
import ChainLedger.Proofs.Transaction.Verdict

/-!
# Plans that undo plans

Processing makes changes and stores a record; orphaning removes the record and makes
other changes. What is to be shown of the two lists of changes is that they leave every
balance and every reference as they were, that the second can be made wherever the
first was, and that the remaining cells come back. The parts of plans that pay a fee
and move the creator's reference on, and those that move legs, are shown to do so here,
for every plan that is made of them.
-/

namespace ChainLedger

open Change

/-- The sessions give the same answers: on every balance, where one that is not stored counts as
zero, and on what every other cell holds. -/
structure Session.Alike (s t : Session) : Prop where
  balance : ∀ account asset, s.balance account asset = t.balance account asset
  read : ∀ c : Cell, (∀ account asset, c ≠ .balance account asset) → s.read c = t.read c

variable {s : Session} {r : Record} {signature reference : Signature} {creator : Address}
  {fee : Amount} {changes undoing front back : List Change} {legs : List Leg}

/-! ## Storing a record and removing it -/

/-- The record is stored and removed again. -/
def storeAndRemove (r : Record) : List Change := [.saveTransaction r, .deleteTransaction r]

/-- A change that can be made wherever others have been. -/
def Change.Repeatable (changes : List Change) (change : Change) : Prop :=
  change.IsSteady ∧ ((∀ t, change.Makeable t) ∨
    ∃ other ∈ changes, other.IsSteady ∧ ∀ t, other.Makeable t → change.Makeable t)

theorem makeable_of_repeatable {change : Change} (repeatable : change.Repeatable changes)
    (made : (makeAll changes s).outcome = .ok ()) :
    change.Makeable (makeAll changes s).session := by
  obtain ⟨-, always | ⟨other, member, steady, makeable⟩⟩ := repeatable
  · exact always _
  · exact makeable _ (makeable_of_mem steady member made)

theorem Change.Repeatable.mono {change : Change} {more : List Change}
    (repeatable : change.Repeatable changes) (included : ∀ other ∈ changes, other ∈ more) :
    change.Repeatable more := by
  obtain ⟨steady, always | ⟨other, member, steady', makeable⟩⟩ := repeatable
  · exact ⟨steady, .inl always⟩
  · exact ⟨steady, .inr ⟨other, included other member, steady', makeable⟩⟩

/-- Storing a record and removing it makes no difference to a balance or a reference. -/
theorem onBalanceAll_storeAndRemove (account : Address) (asset : AssetId)
    (balance : Except DataError Amount) :
    onBalanceAll account asset (storeAndRemove r) balance = balance :=
  rfl

theorem onReferenceAll_storeAndRemove (account : Address)
    (last : Except DataError (Option Signature)) :
    onReferenceAll account (storeAndRemove r) last = last :=
  rfl

/-- What is left of a balance once a record was processed, removed and undone. -/
theorem balance_makeAll_undoing
    (made : (makeAll (changes ++ storeAndRemove r ++ undoing) s).outcome = .ok ())
    (account : Address) (asset : AssetId) :
    (makeAll (changes ++ storeAndRemove r ++ undoing) s).session.balance account asset =
      onBalanceAll account asset (changes ++ undoing) (s.balance account asset) := by
  rw [balance_makeAll made, onBalanceAll_append, onBalanceAll_append,
    onBalanceAll_storeAndRemove, ← onBalanceAll_append]

/-- What is left of a reference. -/
theorem lastReference_makeAll_undoing
    (made : (makeAll (changes ++ storeAndRemove r ++ undoing) s).outcome = .ok ())
    (account : Address) :
    (makeAll (changes ++ storeAndRemove r ++ undoing) s).session.lastReference account =
      onReferenceAll account (changes ++ undoing) (s.lastReference account) := by
  rw [lastReference_makeAll made, onReferenceAll_append, onReferenceAll_append,
    onReferenceAll_storeAndRemove, ← onReferenceAll_append]

/-- The changes after those that processed the record and removed it take back what was done. -/
structure Undoes (s : Session) (r : Record) (changes undoing : List Change) : Prop where
  /-- Stored records are left to the steps around the changes. -/
  apart : ∀ change ∈ changes ++ undoing, "tx/" ∉ change.families
  succeeds : (makeAll (changes ++ storeAndRemove r) s).outcome = .ok () →
    (makeAll undoing (makeAll (changes ++ storeAndRemove r) s).session).outcome = .ok ()
  balances : ∀ account asset, onBalanceAll account asset (changes ++ undoing)
    (s.balance account asset) = s.balance account asset
  references : ∀ account, onReferenceAll account (changes ++ undoing)
    (s.lastReference account) = s.lastReference account
  others : ∀ c : Cell, c.family ∉ ["balance/", "reference/", "tx/"] →
    (makeAll (changes ++ storeAndRemove r) s).outcome = .ok () →
    (makeAll (changes ++ storeAndRemove r ++ undoing) s).session.read c = s.read c

/-- A record that was not stored under its signature is not stored once it is removed. -/
theorem read_transaction_restored (signed : r.signature? = some signature)
    (unstored : s.holds (.transaction signature) = false)
    (apart : ∀ change ∈ changes ++ undoing, "tx/" ∉ change.families)
    (made : (makeAll (changes ++ storeAndRemove r) s).outcome = .ok ()) (other : Signature) :
    (makeAll (changes ++ storeAndRemove r ++ undoing) s).session.read (.transaction other) =
      s.read (.transaction other) := by
  have before : ∀ t, (makeAll changes t).session.read (.transaction other) =
      t.read (.transaction other) := by
    intro t
    apply read_makeAll
    intro change member
    exact not_writes_of_family (apart change (List.mem_append_left _ member))
  have after : ∀ t, (makeAll undoing t).session.read (.transaction other) =
      t.read (.transaction other) := by
    intro t
    apply read_makeAll
    intro change member
    exact not_writes_of_family (apart change (List.mem_append_right _ member))
  rcases makeAll_append_eq_ok_iff.mp made with ⟨first, stored⟩
  rw [makeAll_append_of_ok made, after, makeAll_append_of_ok first]
  generalize reached : (makeAll changes s).session = t at stored
  have rows : (makeAll (storeAndRemove r) t).session =
      (t.write (.transaction signature) r).clear (.transaction signature) := by
    simp only [storeAndRemove, makeAll, make_saveTransaction signed, make_deleteTransaction signed,
      Written.done]
  rw [rows]
  by_cases same : other = signature
  · subst same
    rw [Session.read_clear_self, Session.read_of_not_holds unstored]
  · have different : Cell.transaction other ≠ .transaction signature := by
      intro equal
      cases equal
      exact same rfl
    rw [Session.read_clear_of_ne different, Session.read_write_of_ne different, ← reached, before]

/-- **Changes that undo restore the ledger.** -/
theorem Undoes.alike (law : Undoes s r changes undoing) (signed : r.signature? = some signature)
    (unstored : s.holds (.transaction signature) = false)
    (made : (makeAll (changes ++ storeAndRemove r) s).outcome = .ok ()) :
    s.Alike (makeAll (changes ++ storeAndRemove r ++ undoing) s).session := by
  have all : (makeAll (changes ++ storeAndRemove r ++ undoing) s).outcome = .ok () :=
    makeAll_append_eq_ok_iff.mpr ⟨made, law.succeeds made⟩
  constructor
  · intro account asset
    rw [balance_makeAll_undoing all, law.balances]
  · intro c notBalance
    by_cases other : c.family ∈ ["balance/", "reference/", "tx/"]
    · cases c with
      | balance account asset => exact absurd rfl (notBalance account asset)
      | reference account =>
        have final := lastReference_makeAll_undoing all account
        rw [law.references] at final
        exact final.symm
      | transaction stored =>
        exact (read_transaction_restored signed unstored law.apart made stored).symm
      | asset | assetName | deployedAt | atState | atHeight | poll | vote =>
        simp [Cell.family] at other
    · exact (law.others c other made).symm

/-! ## Changes of accounts -/

/-- The change keeps to balances and references. -/
def Change.OnAccounts (change : Change) : Prop :=
  ∀ name ∈ change.families, name ∈ ["balance/", "reference/"]

/-- Changes that keep to balances and references leave all other cells alone. -/
theorem read_makeAll_of_onAccounts (onAccounts : ∀ change ∈ changes, change.OnAccounts) {c : Cell}
    (other : c.family ∉ ["balance/", "reference/"]) (s : Session) :
    (makeAll changes s).session.read c = s.read c := by
  apply read_makeAll
  intro change member
  exact not_writes_of_family fun written => other (onAccounts change member _ written)

/-- After a first change, changes that keep to balances and references leave all other cells as
that one left them. -/
theorem read_makeAll_cons_of_onAccounts {change : Change}
    (first : (change.make s).outcome = .ok ())
    (onAccounts : ∀ later ∈ changes, later.OnAccounts) {c : Cell}
    (other : c.family ∉ ["balance/", "reference/"]) :
    (makeAll (change :: changes) s).session.read c = (change.make s).session.read c := by
  rw [makeAll_cons_of_ok first]
  exact read_makeAll_of_onAccounts onAccounts other _

/-- Storing a record and removing it leaves all cells but stored records alone. -/
theorem read_storeAndRemove {c : Cell} (other : c.family ≠ "tx/") (s : Session) :
    (makeAll (storeAndRemove r) s).session.read c = s.read c := by
  apply read_makeAll
  intro change member
  simp only [storeAndRemove, List.mem_cons, List.not_mem_nil, or_false] at member
  rcases member with rfl | rfl <;> exact not_writes_of_family (by simpa [families] using other)

/-- Nor does it matter if a record is stored after them and removed. -/
theorem read_makeAll_cons_storeAndRemove {change : Change}
    (onAccounts : ∀ later ∈ changes, later.OnAccounts) {c : Cell}
    (other : c.family ∉ ["balance/", "reference/", "tx/"])
    (made : (makeAll (change :: changes ++ storeAndRemove r) s).outcome = .ok ()) :
    (makeAll (change :: changes ++ storeAndRemove r) s).session.read c =
      (change.make s).session.read c := by
  simp only [List.mem_cons, List.not_mem_nil, or_false, not_or] at other
  have apart : c.family ∉ ["balance/", "reference/"] := by simp [other]
  have processed := (makeAll_append_eq_ok_iff.mp made).1
  have first := (makeAll_cons_eq_ok_iff.mp processed).1
  rw [makeAll_append_of_ok processed, read_storeAndRemove other.2.2,
    read_makeAll_cons_of_onAccounts first onAccounts apart]

theorem onAccounts_moveAll : ∀ change ∈ moveAll creator signature legs, change.OnAccounts := by
  intro change member
  rcases List.mem_flatMap.mp member with ⟨leg, -, moved⟩
  unfold Leg.move at moved
  split at moved <;> simp at moved
  · rcases moved with rfl | rfl | rfl <;> simp [OnAccounts, families]
  · rcases moved with rfl | rfl <;> simp [OnAccounts, families]

theorem onAccounts_moveAllBack :
    ∀ change ∈ moveAllBack creator signature legs, change.OnAccounts := by
  intro change member
  rcases List.mem_flatMap.mp member with ⟨leg, -, moved⟩
  unfold Leg.moveBack at moved
  split at moved <;> simp at moved
  · rcases moved with rfl | rfl | rfl <;> simp [OnAccounts, families]
  · rcases moved with rfl | rfl <;> simp [OnAccounts, families]

/-- Legs can be moved back wherever they were moved. -/
theorem repeatable_moveAllBack :
    ∀ change ∈ moveAllBack creator signature legs,
      change.Repeatable (moveAll creator signature legs) := by
  intro change member
  rcases List.mem_flatMap.mp member with ⟨leg, listed, moved⟩
  have inside : ∀ other ∈ leg.move creator signature, other ∈ moveAll creator signature legs :=
    fun other here => List.mem_flatMap.mpr ⟨leg, List.mem_reverse.mp listed, here⟩
  suffices here : change.Repeatable (leg.move creator signature) from here.mono inside
  have taken : Change.adjust creator leg.assetId (-leg.amount) ∈ leg.move creator signature := by
    simp [Leg.move]
  have given : Change.adjust leg.recipient leg.assetId leg.amount ∈
      leg.move creator signature := by
    simp [Leg.move]
  rcases List.mem_append.mp moved with adjusted | retracted
  · simp only [List.mem_cons, List.not_mem_nil, or_false] at adjusted
    rcases adjusted with rfl | rfl
    · exact ⟨trivial, .inr ⟨_, given, trivial, fun _ makeable => makeable⟩⟩
    · exact ⟨trivial, .inr ⟨_, taken, trivial, fun _ makeable => makeable⟩⟩
  · split at retracted
    next coins =>
      rw [List.mem_singleton] at retracted
      subst retracted
      have introduced : Change.introduce leg.recipient signature ∈
          leg.move creator signature := by
        simp [Leg.move, coins]
      exact ⟨trivial, .inr ⟨_, introduced, trivial, fun _ makeable => makeable⟩⟩
    next => cases retracted

/-! ## Around the legs -/

/-- What is done before legs are moved and after they are moved back: the creator's reference
moves on and comes back, and what is paid is refunded. -/
structure Brackets (creator : Address) (signature reference : Signature)
    (front back : List Change) : Prop where
  onAccounts : ∀ change ∈ front ++ back, change.OnAccounts
  repeatable : ∀ change ∈ back, change.Repeatable front
  balances : ∀ account asset balance,
    onBalanceAll account asset (front ++ back) balance = balance
  forward : ∀ account last, onReferenceAll account front last =
    if account = creator then .ok (some signature) else last
  backward : ∀ account last, onReferenceAll account back last =
    if account = creator then .ok (some reference) else last

theorem repeatable_refund : ∀ change ∈ refundFee creator fee reference,
    change.Repeatable (chargeFee creator fee signature) := by
  intro change member
  simp only [refundFee, List.mem_cons, List.not_mem_nil, or_false] at member
  rcases member with rfl | rfl
  · exact ⟨trivial, .inr ⟨.adjust creator nativeAsset (-fee), List.mem_cons_self, trivial,
      fun _ makeable => makeable⟩⟩
  · exact ⟨trivial, .inl fun _ => trivial⟩

theorem brackets_fee : Brackets creator signature reference (chargeFee creator fee signature)
    (refundFee creator fee reference) where
  onAccounts := by simp [chargeFee, refundFee, OnAccounts, families]
  repeatable := repeatable_refund
  balances _ _ balance := onBalanceAll_fee balance
  forward _ last := onReferenceAll_chargeFee last
  backward _ last := onReferenceAll_refundFee last

/-- Payments give the reference back before the fee. -/
theorem brackets_payment : Brackets creator signature reference (chargeFee creator fee signature)
    [.setReference creator reference, .adjust creator nativeAsset fee] where
  onAccounts := by simp [chargeFee, OnAccounts, families]
  repeatable change member :=
    repeatable_refund change ((List.Perm.swap _ _ []).mem_iff.mp member)
  balances account asset balance :=
    show onBalanceAll account asset
      (chargeFee creator fee signature ++ refundFee creator fee reference) balance = balance from
      onBalanceAll_fee balance
  forward _ last := onReferenceAll_chargeFee last
  backward _ _ := rfl

/-- Settlements pay no fee. -/
theorem brackets_settlement : Brackets creator signature reference
    [.setReference creator signature] [.setReference creator reference] where
  onAccounts := by simp [OnAccounts, families]
  repeatable change member := by
    rw [List.mem_singleton] at member
    subst member
    exact ⟨trivial, .inl fun _ => trivial⟩
  balances _ _ _ := rfl
  forward _ _ := rfl
  backward _ _ := rfl

/-- Between brackets, legs are moved and moved back without a trace in any balance. -/
theorem Brackets.settles_balance (brackets : Brackets creator signature reference front back)
    (account : Address) (asset : AssetId) (balance : Except DataError Amount) :
    onBalanceAll account asset (front ++ moveAll creator signature legs ++
      (moveAllBack creator signature legs ++ back)) balance = balance := by
  simp only [onBalanceAll_append, onBalanceAll_moveAll_moveAllBack]
  rw [← onBalanceAll_append, brackets.balances]

/-- Without legs between them, brackets leave every reference as it was. -/
theorem Brackets.restores_reference (brackets : Brackets creator signature reference front back)
    {account : Address} {last : Except DataError (Option Signature)}
    (known : account = creator → last = .ok (some reference)) :
    onReferenceAll account (front ++ back) last = last := by
  rw [onReferenceAll_append, brackets.forward, brackets.backward]
  by_cases same : account = creator
  · rw [if_pos same, known same]
  · rw [if_neg same, if_neg same]

/-- Between brackets, legs are moved and moved back without a trace in any reference. -/
theorem Brackets.settles_reference (brackets : Brackets creator signature reference front back)
    {account : Address} {last : Except DataError (Option Signature)}
    (known : account = creator → last = .ok (some reference))
    (fresh : last ≠ .ok (some signature)) :
    onReferenceAll account (front ++ moveAll creator signature legs ++
      (moveAllBack creator signature legs ++ back)) last = last := by
  simp only [onReferenceAll_append, brackets.forward, brackets.backward]
  by_cases same : account = creator
  · rw [if_pos same, known same]
  · rw [if_neg same, if_neg same, onReferenceAll_moveAll_moveAllBack fresh]

end ChainLedger

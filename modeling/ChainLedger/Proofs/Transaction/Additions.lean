import ChainLedger.Proofs.Ledger.Assets
import ChainLedger.Proofs.Transaction.Verdict
import Mathlib.Algebra.Group.Nat.Defs

/-!
# Changes that only add

Processing takes no row away, and what it saves for the rules to look at is read back.
After such changes the rules can still be judged.
-/

namespace ChainLedger

open Change

/-! ## Legible cells -/

namespace Session

variable {s t : Session} {c d : Cell}

theorem Legible.congr (legible : s.Legible d) (same : t.get? d.key = s.get? d.key) :
    t.Legible d := by
  rw [Legible, read_congr same]
  exact legible

/-- A cell stays legible where a value is written that is read back. -/
theorem Legible.write {domain : c.Value → Prop} {value : c.Value} (legible : s.Legible d)
    (law : c.form.ReadsBackOn domain) (inside : domain value) : (s.write c value).Legible d := by
  by_cases same : d = c
  · subst same
    exact ⟨_, read_write_self law s inside⟩
  · obtain ⟨held, known⟩ := legible
    exact ⟨held, (read_write_of_ne same s value).trans known⟩

theorem Legible.write_of_ne {value : c.Value} (legible : s.Legible d) (different : d ≠ c) :
    (s.write c value).Legible d := by
  obtain ⟨held, known⟩ := legible
  exact ⟨held, (read_write_of_ne different s value).trans known⟩

/-- In a ledger without rows every cell is legible. -/
theorem legible_empty (c : Cell) : OrderedMap.empty.session.Legible c := ⟨none, rfl⟩

theorem consultable_empty : OrderedMap.empty.session.Consultable where
  balance _ _ := legible_empty _
  reference _ := legible_empty _
  asset _ := legible_empty _
  poll _ := legible_empty _
  vote _ _ := legible_empty _

end Session

/-! ## Additions -/

/-- The change takes no row away, and what it saves for the rules to look at is read back. -/
def Change.IsAddition : Change → Prop
  | .savePoll poll => poll.Storable
  | .saveVote vote => vote.Storable
  | .saveAsset asset => asset.Storable
  | .deletePoll _ | .deleteVote .. | .deleteAsset _ | .deleteAt _ => False
  | _ => True

namespace Change

variable {change : Change} {changes : List Change} {s : Session}

theorem consultable_make (consultable : s.Consultable) (addition : change.IsAddition)
    (made : (change.make s).outcome = .ok ()) : (change.make s).session.Consultable where
  balance account asset := legible_balance_make made (consultable.balance account asset)
  reference account := legible_reference_make made (consultable.reference account)
  asset id := by
    have legible := consultable.asset id
    cases change with
    | saveAsset asset =>
      have named : (s.write (.assetName asset.name) asset.id).Legible (.asset id) :=
        legible.write_of_ne (by simp)
      exact named.write (c := .asset asset.id) Asset.form_readsBack addition
    | deleteAsset => exact addition.elim
    | _ =>
      exact legible.congr (get?_make (not_writes_of_family (by simp [Cell.family, families])) s)
  poll name := by
    have legible := consultable.poll name
    cases change with
    | savePoll poll => exact legible.write (c := .poll poll.name) Poll.form_readsBack addition
    | deletePoll => exact addition.elim
    | _ =>
      exact legible.congr (get?_make (not_writes_of_family (by simp [Cell.family, families])) s)
  vote poll voter := by
    have legible := consultable.vote poll voter
    cases change with
    | saveVote vote =>
      exact legible.write (c := .vote vote.poll vote.voter) Vote.form_readsBack addition
    | deletePoll | deleteVote => exact addition.elim
    | _ =>
      exact legible.congr (get?_make (not_writes_of_family (by simp [Cell.family, families])) s)

/-- **The rules can still be judged** after additions that succeed. -/
theorem consultable_makeAll (consultable : s.Consultable)
    (additions : ∀ change ∈ changes, change.IsAddition)
    (made : (makeAll changes s).outcome = .ok ()) : (makeAll changes s).session.Consultable := by
  induction changes generalizing s with
  | nil => exact consultable
  | cons change rest ih =>
    rw [List.forall_mem_cons] at additions
    rcases makeAll_cons_eq_ok_iff.mp made with ⟨first, later⟩
    rw [makeAll_cons_of_ok first]
    exact ih (consultable_make consultable additions.1 first) additions.2 later

/-- A cell of another family is there after changes exactly if it was there before. -/
theorem holds_makeAll {c : Cell} (other : ∀ change ∈ changes, c.family ∉ change.families)
    (s : Session) : (makeAll changes s).session.holds c = s.holds c := by
  rw [Session.holds, Session.holds, Session.contains, Session.contains,
    get?_makeAll fun change member => not_writes_of_family (other change member)]

end Change

end ChainLedger

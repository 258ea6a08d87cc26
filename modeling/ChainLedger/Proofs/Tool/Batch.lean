import ChainLedger.Proofs.Tool.Reach
import ChainLedger.Proofs.Transaction.Agreement

/-!
# Batches, whole and in parts

A batch that fails leaves the ledger as it was, and a dry run tells what would come of the
batch. Whether a batch is cut in two after a line, and what was written is committed in
between, makes no difference: the second part is applied to a ledger that reads like the
session which the first part left.
-/

namespace ChainLedger

/-! ## Lines of a text -/

theorem Text.linesOf_cons {c : Char} (inside : c ≠ '\n') (rest : List Char) :
    linesOf (c :: rest) =
      match linesOf rest with
      | [] => [[c]]
      | line :: lines => (c :: line) :: lines := by
  cases lines : linesOf rest <;> simp [linesOf, lines]

/-- What ends in a line feed has a line. -/
theorem Text.linesOf_closed_ne_nil (chars : List Char) : linesOf (chars ++ ['\n']) ≠ [] := by
  induction chars with
  | nil => exact List.cons_ne_nil _ _
  | cons c rest ih =>
    by_cases ends : c = '\n'
    · subst ends
      exact List.cons_ne_nil _ _
    · rw [List.cons_append, linesOf_cons ends]
      split <;> exact List.cons_ne_nil _ _

/-- **A line feed ends a line**, whatever comes after it. -/
theorem Text.linesOf_append (first second : List Char) :
    linesOf (first ++ '\n' :: second) = linesOf (first ++ ['\n']) ++ linesOf second := by
  induction first with
  | nil => rfl
  | cons c rest ih =>
    by_cases ends : c = '\n'
    · subst ends
      rw [List.cons_append, List.cons_append, linesOf, linesOf, ih, List.cons_append]
    · obtain ⟨line, lines, front⟩ := List.exists_cons_of_ne_nil (linesOf_closed_ne_nil rest)
      rw [List.cons_append, List.cons_append, linesOf_cons ends, linesOf_cons ends, ih, front]
      rfl

namespace Tool

variable {params : ChainParams} {number count : Nat} {s t : Session}

/-! ## Lines -/

/-- A line is applied or passed over, and then the rest is. -/
theorem applyLines_cons_eq_ok_iff {line : List Char} {rest : List (List Char)} :
    applyLines params number s (line :: rest) = .ok (count, t) ↔
      if isSkipped line then applyLines params (number + 1) s rest = .ok (count, t)
      else ∃ r u n, Applies params (String.ofList line) s r u ∧
        applyLines params (number + 1) u rest = .ok (n, t) ∧ n + 1 = count := by
  rw [applyLines]
  split
  next => rfl
  next =>
    simp only [Except.bind_eq_ok_iff, Prod.exists, Except.pure_eq_ok_iff, Prod.mk.injEq,
      applyLine_eq_ok_iff]
    constructor
    · rintro ⟨u, ⟨r, applies⟩, n, last, later, rfl, rfl⟩
      exact ⟨r, u, n, applies, later, rfl⟩
    · rintro ⟨r, u, n, applies, later, rfl⟩
      exact ⟨u, ⟨r, applies⟩, n, t, later, rfl, rfl⟩

/-- Lines are applied by applying a front of them and then what follows it. -/
theorem applyLines_append_eq_ok_iff {first second : List (List Char)} :
    applyLines params number s (first ++ second) = .ok (count, t) ↔
      ∃ m u n, applyLines params number s first = .ok (m, u) ∧
        applyLines params (number + first.length) u second = .ok (n, t) ∧ m + n = count := by
  induction first generalizing number s count with
  | nil =>
    constructor
    · intro applied
      exact ⟨0, s, count, rfl, applied, Nat.zero_add _⟩
    · rintro ⟨m, u, n, ⟨⟩, applied, rfl⟩
      rwa [Nat.zero_add]
  | cons line rest ih =>
    have further : number + (line :: rest).length = number + 1 + rest.length := by
      rw [List.length_cons]
      omega
    simp only [List.cons_append, applyLines_cons_eq_ok_iff, further]
    split
    next => exact ih
    next =>
      constructor
      · rintro ⟨r, v, _, applies, later, rfl⟩
        obtain ⟨m, u, n, front, back, rfl⟩ := ih.mp later
        exact ⟨m + 1, u, n, ⟨r, v, m, applies, front, rfl⟩, back, by omega⟩
      · rintro ⟨_, u, n, ⟨r, v, m, applies, front, rfl⟩, back, rfl⟩
        exact ⟨r, v, m + n, applies, ih.mpr ⟨m, u, n, front, back, rfl⟩, by omega⟩

/-- A line that is applied to a ledger is applied to each that reads alike. -/
theorem Applies.agree {line : String} {r : Record} {u : Session} (same : s.Agree u)
    (applies : Applies params line s r t) : ∃ v, Applies params line u r v ∧ t.Agree v := by
  obtain ⟨done, left⟩ := Submission.agree_processed same applies.accepted applies.done
  rw [applies.left] at left
  have accepted := (Submission.isAccepted_congr same).mp applies.accepted
  exact ⟨_, ⟨applies.read, applies.verified, accepted, done, rfl⟩, left⟩

/-- **Lines that are applied to a ledger are applied to each that reads alike**, from whatever
number on they are counted. -/
theorem applyLines_of_agree {lines : List (List Char)} {u : Session} (same : s.Agree u)
    (applied : applyLines params number s lines = .ok (count, t)) (other : Nat) :
    ∃ v, applyLines params other u lines = .ok (count, v) ∧ t.Agree v := by
  induction lines generalizing number other s u count with
  | nil =>
    cases applied
    exact ⟨u, rfl, same⟩
  | cons line rest ih =>
    rw [applyLines_cons_eq_ok_iff] at applied
    simp only [applyLines_cons_eq_ok_iff]
    by_cases skipped : isSkipped line = true
    · rw [if_pos skipped] at applied
      simp only [if_pos skipped]
      exact ih same applied _
    · rw [if_neg skipped] at applied
      simp only [if_neg skipped]
      obtain ⟨r, middle, n, applies, later, counted⟩ := applied
      obtain ⟨middle', applies', same'⟩ := applies.agree same
      obtain ⟨v, later', left⟩ := ih same' later (other + 1)
      exact ⟨v, ⟨r, middle', n, applies', later', counted⟩, left⟩

/-! ## Batches -/

variable {ledger after : Ledger} {text : String}

/-- A batch succeeds by applying all its lines, and leaves what they wrote committed. -/
theorem applyBatch_eq_ok_iff : applyBatch params false ledger text = ⟨.ok count, after⟩ ↔
    ∃ s, applyLines params 1 ledger.session (Text.linesOf text.toList) = .ok (count, s) ∧
      s.commit = after := by
  unfold applyBatch
  cases applied : applyLines params 1 ledger.session (Text.linesOf text.toList) with
  | error failure => simp
  | ok result => simp [Prod.ext_iff]

/-- A batch that fails leaves the ledger. -/
theorem ledger_applyBatch_of_error {dryRun : Bool} {failure : Failure}
    (failed : (applyBatch params dryRun ledger text).count = .error failure) :
    (applyBatch params dryRun ledger text).ledger = ledger := by
  unfold applyBatch at failed ⊢
  split
  next => rfl
  next applied => simp [applied] at failed

/-- A dry run leaves the ledger, and tells what would come of the batch. -/
theorem applyBatch_dryRun : applyBatch params true ledger text =
    ⟨(applyBatch params false ledger text).count, ledger⟩ := by
  unfold applyBatch
  split <;> rfl

/-- **Cutting a batch in two after a line makes no difference.** -/
theorem applyBatch_append_eq_ok_iff {first second : String} :
    applyBatch params false ledger (first ++ "\n" ++ second) = ⟨.ok count, after⟩ ↔
      ∃ m middle n, applyBatch params false ledger (first ++ "\n") = ⟨.ok m, middle⟩ ∧
        applyBatch params false middle second = ⟨.ok n, after⟩ ∧ m + n = count := by
  have lines : Text.linesOf (first ++ "\n" ++ second).toList =
      Text.linesOf (first ++ "\n").toList ++ Text.linesOf second.toList := by
    simpa using Text.linesOf_append first.toList second.toList
  simp only [applyBatch_eq_ok_iff, lines, applyLines_append_eq_ok_iff]
  constructor
  · rintro ⟨t, ⟨m, u, n, front, back, counted⟩, rfl⟩
    obtain ⟨v, back', left⟩ := applyLines_of_agree (Session.Agree.commit u) back 1
    exact ⟨m, u.commit, n, ⟨u, front, rfl⟩, ⟨v, back', (Session.commit_eq left).symm⟩, counted⟩
  · rintro ⟨m, _, n, ⟨u, front, rfl⟩, ⟨v, back, rfl⟩, counted⟩
    obtain ⟨t, back', left⟩ := applyLines_of_agree (Session.Agree.commit u).symm back _
    exact ⟨t, ⟨m, u, n, front, back', counted⟩, (Session.commit_eq left).symm⟩

/-- **A batch is applied as a whole or not at all.** One that fails leaves the ledger entry for
entry; a dry run leaves it too, with the count or the failure of the real run; and a batch
after lines that end in a line feed is applied with them in one run exactly if both are
applied in two, with the same count in all and the same entries. -/
theorem applyBatch_atomic (params : ChainParams) (ledger : Ledger) :
    (∀ dryRun text failure, (applyBatch params dryRun ledger text).count = .error failure →
      (applyBatch params dryRun ledger text).ledger.entries = ledger.entries) ∧
    (∀ text, (applyBatch params true ledger text).ledger.entries = ledger.entries ∧
      (applyBatch params true ledger text).count = (applyBatch params false ledger text).count) ∧
    ∀ first second count after,
      applyBatch params false ledger (first ++ "\n" ++ second) = ⟨.ok count, after⟩ ↔
        ∃ m middle n, applyBatch params false ledger (first ++ "\n") = ⟨.ok m, middle⟩ ∧
          applyBatch params false middle second = ⟨.ok n, after⟩ ∧ m + n = count := by
  refine ⟨fun dryRun text failure failed => ?_, fun text => ?_, fun first second count after => ?_⟩
  · rw [ledger_applyBatch_of_error failed]
  · rw [applyBatch_dryRun]
    exact ⟨rfl, rfl⟩
  · exact applyBatch_append_eq_ok_iff

end Tool

end ChainLedger

import ChainLedger.Proofs.Hexadecimal
import ChainLedger.Proofs.Run.Solvency
import ChainLedger.Proofs.Text.WhiteSpace
import ChainLedger.Proofs.Transaction.Issuance
import ChainLedger.Proofs.Wire.Record
import ChainLedger.Tool.Batch

/-!
# Ledgers that batches leave

A line is applied exactly if it is read as a record that is signed, found good and
processed. What batches leave is reached from the ledger without rows by such lines and
by committing what they wrote, and as long as the coins that the lines mint fit an
amount and the numbers of assets do not run out it is solvent.
-/

namespace ChainLedger

namespace Tool

variable {params : ChainParams} {number : Nat} {line : String} {s t : Session} {r : Record}
  {records : List Record}

/-! ## Lines -/

/-- A line is read as a record, completed if need be, that is signed, found good and processed. -/
structure Applies (params : ChainParams) (line : String) (s : Session) (r : Record)
    (t : Session) : Prop where
  read : ∃ given, readRecord params line = .ok given ∧ completed params given = .ok r
  verified : r.isSignatureValid params = .ok true
  accepted : (Submission.mk params r).IsAccepted s
  done : ((Submission.mk params r).processed s).outcome = .ok ()
  left : ((Submission.mk params r).processed s).session = t

theorem checkSignature_eq_ok_iff :
    checkSignature params number r = .ok () ↔ r.isSignatureValid params = .ok true := by
  unfold checkSignature
  rcases r.isSignatureValid params with error | _ | _ <;> simp

theorem applyRecord_eq_ok_iff : applyRecord params number s r = .ok t ↔
    (Submission.mk params r).IsAccepted s ∧
      ((Submission.mk params r).processed s).outcome = .ok () ∧
      ((Submission.mk params r).processed s).session = t := by
  rcases judged : (Submission.mk params r).judged s with ⟨outcome, transaction⟩
  have validated : (Transaction.received r).validate params s = (outcome, transaction) := judged
  have first : ((Submission.mk params r).judged s).1 = outcome := congrArg Prod.fst judged
  have processed : (Submission.mk params r).processed s = transaction.process params s :=
    congrArg (fun judged => judged.2.process params s) judged
  rw [processed]
  unfold applyRecord
  simp only [validated]
  constructor
  · intro applied
    cases outcome with
    | error error => cases applied
    | ok verdict =>
      by_cases good : verdict = .ok
      · subst good
        cases done : (transaction.process params s).outcome with
        | error error => simp [done] at applied
        | ok none =>
          have valid := (Submission.judged_eq_ok.mp judged).2
          have signed := Transaction.exists_signature_of_process (valid ▸ done)
          refine ⟨⟨first, Option.isSome_iff_exists.mpr signed⟩, rfl, ?_⟩
          simpa [done] using applied
      · simp [good] at applied
  · rintro ⟨accepted, done, rfl⟩
    have good : outcome = .ok .ok := first.symm.trans accepted.1
    subst good
    simp [done]

/-- **A line is applied exactly if its record is signed, found good and processed.** -/
theorem applyLine_eq_ok_iff :
    applyLine params number s line = .ok t ↔ ∃ r, Applies params line s r t := by
  simp only [applyLine, Except.bind_eq_ok_iff, Except.mapError_eq_ok_iff, applyRecord_eq_ok_iff]
  constructor
  · rintro ⟨given, read, r, completed, ⟨⟩, checked, accepted, done, left⟩
    exact ⟨r, ⟨given, read, completed⟩, checkSignature_eq_ok_iff.mp checked, accepted, done, left⟩
  · rintro ⟨r, ⟨given, read, completed⟩, verified, accepted, done, left⟩
    exact ⟨given, read, r, completed, (), checkSignature_eq_ok_iff.mpr verified, accepted, done,
      left⟩

/-! ## Runs of lines -/

/-- The ledger is reached from the one without rows by applying lines with the given records and
committing what they wrote. -/
inductive Reaches : List Record → Session → Prop
  | empty : Reaches [] OrderedMap.empty.session
  | line {records : List Record} {params : ChainParams} {line : String} {r : Record}
      {s t : Session} (reached : Reaches records s) (applied : Applies params line s r t) :
      Reaches (records ++ [r]) t
  | commit {records : List Record} {s : Session} (reached : Reaches records s) :
      Reaches records s.commit.session

/-- Lines that are applied reach the ledger that they leave. -/
theorem Reaches.applyLines {lines : List (List Char)} {count : Nat} (reached : Reaches records s)
    (applied : applyLines params number s lines = .ok (count, t)) :
    ∃ later, Reaches (records ++ later) t := by
  induction lines generalizing number s records count with
  | nil =>
    cases applied
    exact ⟨[], by rwa [List.append_nil]⟩
  | cons first rest ih =>
    rw [Tool.applyLines] at applied
    split at applied
    next => exact ih reached applied
    next =>
      simp only [Except.bind_eq_ok_iff, Prod.exists] at applied
      obtain ⟨middle, here, counted, last, later, result⟩ := applied
      cases result
      obtain ⟨r, applies⟩ := applyLine_eq_ok_iff.mp here
      obtain ⟨more, reaches⟩ := ih (reached.line applies) later
      exact ⟨r :: more, by rwa [List.append_assoc, List.singleton_append] at reaches⟩

/-- **What a batch leaves of a reached ledger is reached.** -/
theorem Reaches.applyBatch {ledger : Ledger} (reached : Reaches records ledger.session)
    (params : ChainParams) (dryRun : Bool) (text : String) :
    ∃ later, Reaches (records ++ later) (applyBatch params dryRun ledger text).ledger.session := by
  have unchanged : ∃ later, Reaches (records ++ later) ledger.session :=
    ⟨[], by rwa [List.append_nil]⟩
  unfold Tool.applyBatch
  split
  next => exact unchanged
  next count s applied =>
    cases dryRun with
    | true => exact unchanged
    | false =>
      obtain ⟨later, reaches⟩ := reached.applyLines applied
      exact ⟨later, reaches.commit⟩

/-- **Reached ledgers are solvent**, as long as the coins fit an amount and the numbers of assets
do not run out. -/
theorem Reaches.solvent (reached : Reaches records s) (coins : mintedBy records ≤ Amount.largest)
    (assets : issuedBy records < 2 ^ 64) :
    s.Solvent (mintedBy records) (issuedBy records) := by
  induction reached with
  | empty => exact Session.solvent_empty
  | @line records params line r s t reached applied ih =>
    have minted : 0 ≤ r.minted := applied.accepted.minted_nonneg
    rw [mintedBy_append, mintedBy_singleton] at coins
    rw [issuedBy_append, issuedBy_singleton] at assets
    have before := ih (by omega) (by omega)
    have step := (Submission.solvent_after (x := ⟨params, r⟩) before (fun _ => coins)
      (fun _ => assets)).2
    rw [if_pos applied.accepted, applied.accepted.after_eq, applied.left] at step
    rwa [mintedBy_append, issuedBy_append]
  | commit reached ih => exact (ih coins assets).congr (Session.get?_commit _)

/-- **In reached ledgers nobody has anything of an asset that was not issued**, whatever coins there
are. -/
theorem Reaches.holdsIssued (reached : Reaches records s) : s.HoldsIssued := by
  induction reached with
  | empty => exact Session.holdsIssued_empty
  | line reached applied ih =>
    rw [← applied.left]
    exact Submission.holdsIssued_processed ih applied.accepted applied.done
  | commit reached ih => exact ih.congr (Session.get?_commit _)

/-! ## Digits of records -/

theorem digitsOf_encode (bytes : Bytes) :
    digitsOf (Hexadecimal.encode bytes) = Hexadecimal.encode bytes := by
  have digits : ∀ value < 16, Text.isWhiteSpace (Nat.digitChar value) = false ∧
      Nat.digitChar value ≠ 'x' := by
    decide
  have low : ∀ b : UInt8, b.toNat % 16 < 16 := fun b => Nat.mod_lt _ (by decide)
  have high : ∀ b : UInt8, b.toNat / 16 < 16 := fun b => by
    have bound := b.toNat_lt
    omega
  have plain : ∀ c ∈ bytes.flatMap Hexadecimal.digitsOf, Text.isWhiteSpace c = false := by
    intro c member
    obtain ⟨b, -, digit⟩ := List.mem_flatMap.mp member
    simp only [Hexadecimal.digitsOf, List.mem_cons, List.not_mem_nil, or_false] at digit
    rcases digit with rfl | rfl
    · exact (digits _ (high b)).1
    · exact (digits _ (low b)).1
  rw [digitsOf, Hexadecimal.encode, String.toList_ofList, Text.trimmed_of_forall plain]
  cases bytes with
  | nil => rfl
  | cons b rest =>
    split
    next after same =>
      injection same with _ same
      injection same with second _
      exact absurd second (digits _ (low b)).2
    next => rfl

/-- **The digits of bytes are a line of the record that the bytes denote.** -/
theorem readRecord_encode {bytes : Bytes} (denotes : Record.decode params bytes = .ok r) :
    readRecord params (Hexadecimal.encode bytes) = .ok r := by
  rw [readRecord, digitsOf_encode, Hexadecimal.decode_encode]
  exact Except.mapError_eq_ok_iff.mpr denotes

/-- A whole record is read from the digits of the bytes that it is written as. -/
theorem readRecord_standard {envelope : Envelope} {action : Action} {bytes : Bytes}
    (wrote : Record.encode params (.standard envelope action) = .ok bytes)
    (whole : action.Transmissible) :
    readRecord params (Hexadecimal.encode bytes) = .ok (.standard envelope action) :=
  readRecord_encode (Record.decode_encode_standard whole wrote)

end Tool

end ChainLedger

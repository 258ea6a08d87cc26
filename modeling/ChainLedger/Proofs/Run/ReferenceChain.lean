import ChainLedger.Proofs.Run.Solvency
import ChainLedger.Proofs.Transaction.References
import Mathlib.Data.List.Chain

/-!
# Chains of references

An account's records follow each other: each one declares the signature of the one
before it, whatever other accounts do in between. The first one declares the reference
that the account had, or the signature of the record that brought it its first coins.
So, as long as no signature is used twice, no two records of an account declare the
same reference.
-/

namespace ChainLedger

open Change

/-! ## Runs of accepted records -/

/-- Each record in turn is no allocation, is accepted as the ledger stands, and is processed
without a fault. -/
def Session.Processes : Session → List Submission → Prop
  | _, [] => True
  | s, x :: rest =>
    (∃ envelope action, x.record = .standard envelope action) ∧ x.IsAccepted s ∧
      (x.processed s).outcome = .ok () ∧ (x.after s).Processes rest

/-- The records that an account creates. -/
def createdBy (account : Address) (history : List Submission) : List Record :=
  (history.map Submission.record).filter fun r => r.creator? = some account

/-- The signature of the earliest record that brings an account coins. -/
def firstCoins? (account : Address) (history : List Submission) : Option Signature :=
  ((history.map Submission.record).find? fun r => r.BringsCoins account).bind Record.signature?

/-- The reference that an account starts with: the one that it has, or else the signature of the
record that brings it its first coins. -/
def Session.opening (s : Session) (account : Address) (history : List Submission) :
    Except DataError (Option Signature) :=
  match s.lastReference account with
  | .ok none => .ok (firstCoins? account history)
  | known => known

section Steps

variable {s : Session} {account : Address} {x : Submission} {rest history : List Submission}

theorem createdBy_cons_of_created (creates : x.record.creator? = some account) :
    createdBy account (x :: rest) = x.record :: createdBy account rest := by
  simp [createdBy, creates]

theorem createdBy_cons_of_other (other : x.record.creator? ≠ some account) :
    createdBy account (x :: rest) = createdBy account rest := by
  simp [createdBy, other]

theorem Session.opening_of_some {reference : Signature}
    (known : s.lastReference account = .ok (some reference)) (history : List Submission) :
    s.opening account history = .ok (some reference) := by
  rw [opening, known]

theorem Session.opening_nil (s : Session) (account : Address) :
    s.opening account [] = s.lastReference account := by
  rw [opening]
  split
  next unset => exact unset.symm
  next => rfl

namespace Session.Processes

/-- The front of a run is a run. -/
theorem of_append {front back : List Submission} (processes : s.Processes (front ++ back)) :
    s.Processes front := by
  induction front generalizing s with
  | nil => trivial
  | cons x rest ih =>
    obtain ⟨standard, accepted, done, later⟩ := processes
    exact ⟨standard, accepted, done, ih later⟩

/-- **One step for the account that creates it**: the record declares the reference that the
account has, and its signature takes the place of that. -/
theorem created (processes : s.Processes (x :: rest)) (creates : x.record.creator? = some account) :
    ∃ reference signature, x.record.reference? = some reference ∧
      x.record.signature? = some signature ∧
      s.lastReference account = .ok (some reference) ∧
      (x.after s).lastReference account = .ok (some signature) := by
  obtain ⟨⟨envelope, action, standard⟩, accepted, done, -⟩ := processes
  rcases Submission.isAccepted_iff.mp accepted with ⟨good, signature, signed⟩
  have effect := Submission.lastReference_processed standard accepted signed done account
  rw [Record.onReference, if_pos (.inl creates)] at effect
  rw [standard] at good creates
  cases Option.some.inj creates
  have known := Record.lastReference_of_verdict good
  refine ⟨envelope.reference, signature, by rw [standard]; rfl, signed, known, ?_⟩
  rw [accepted.after_eq, effect]

/-- **One step for any other account** that is not deployed by it: it keeps its reference, or it is
given its first one. -/
theorem other (processes : s.Processes (x :: rest)) (other : x.record.creator? ≠ some account)
    (undeployed : x.record.deployed? x.params ≠ some account) :
    ∃ signature, x.record.signature? = some signature ∧
      (x.after s).lastReference account =
        if x.record.BringsCoins account then
          Change.onReference account (.introduce account signature) (s.lastReference account)
        else s.lastReference account := by
  obtain ⟨⟨envelope, action, standard⟩, accepted, done, -⟩ := processes
  rcases Submission.isAccepted_iff.mp accepted with ⟨good, signature, signed⟩
  have effect := Submission.lastReference_processed standard accepted signed done account
  rw [Record.onReference, if_neg (not_or.mpr ⟨other, undeployed⟩), ← accepted.after_eq] at effect
  exact ⟨signature, signed, effect⟩

/-- Such a step leaves what the account starts with as it was. -/
theorem opening_other (processes : s.Processes (x :: rest))
    (other : x.record.creator? ≠ some account)
    (undeployed : x.record.deployed? x.params ≠ some account) :
    s.opening account (x :: rest) = (x.after s).opening account rest := by
  obtain ⟨signature, signed, effect⟩ := processes.other other undeployed
  by_cases coins : x.record.BringsCoins account
  · rw [if_pos coins] at effect
    have first : firstCoins? account (x :: rest) = some signature := by
      simp [firstCoins?, coins, signed]
    rcases known : s.lastReference account with error | _ | held
    · simp [opening, effect, known, Change.onReference, Except.map]
    · rw [known, onReference_introduce_none] at effect
      simp [opening, effect, known, first]
    · rw [known, onReference_introduce_some] at effect
      simp [opening, effect, known]
  · rw [if_neg coins] at effect
    have later : firstCoins? account (x :: rest) = firstCoins? account rest := by
      simp [firstCoins?, coins]
    rw [opening, opening, effect, later]

/-- A step gives an account no reference but its signature. -/
theorem lastReference_eq_or (processes : s.Processes (x :: rest)) (account : Address) :
    (x.after s).lastReference account = s.lastReference account ∨
      (x.after s).lastReference account = .ok x.record.signature? := by
  obtain ⟨⟨envelope, action, standard⟩, accepted, done, -⟩ := processes
  rcases Submission.isAccepted_iff.mp accepted with ⟨-, signature, signed⟩
  rw [accepted.after_eq, Submission.lastReference_processed standard accepted signed done, signed]
  exact x.record.onReference_eq_or _

/-! ## Whole runs -/

/-- The first record of an account declares the reference that the account starts with. -/
theorem first (processes : s.Processes history)
    (undeployed : ∀ x ∈ history, x.record.deployed? x.params ≠ some account) {r : Record}
    (head : (createdBy account history).head? = some r) :
    s.opening account history = .ok r.reference? := by
  induction history generalizing s with
  | nil => cases head
  | cons x rest ih =>
    rw [List.forall_mem_cons] at undeployed
    by_cases creates : x.record.creator? = some account
    · obtain ⟨reference, signature, declared, -, known, -⟩ := processes.created creates
      rw [createdBy_cons_of_created creates] at head
      cases Option.some.inj head
      rw [opening_of_some known, declared]
    · rw [createdBy_cons_of_other creates] at head
      rw [processes.opening_other creates undeployed.1]
      exact ih processes.2.2.2 undeployed.2 head

/-- Every later one declares the signature of the one before it. -/
theorem next (processes : s.Processes history)
    (undeployed : ∀ x ∈ history, x.record.deployed? x.params ≠ some account) :
    (createdBy account history).IsChain fun r later => later.reference? = r.signature? := by
  induction history generalizing s with
  | nil => exact .nil
  | cons x rest ih =>
    rw [List.forall_mem_cons] at undeployed
    have later := ih processes.2.2.2 undeployed.2
    by_cases creates : x.record.creator? = some account
    · obtain ⟨reference, signature, -, signed, -, moved⟩ := processes.created creates
      rw [createdBy_cons_of_created creates]
      refine List.isChain_cons.mpr ⟨fun r head => ?_, later⟩
      have opening := processes.2.2.2.first undeployed.2 head
      rw [opening_of_some moved] at opening
      rw [signed, Except.ok.inj opening]
    · rwa [createdBy_cons_of_other creates]

/-- After a run an account's reference is the signature of its last record, or else what it starts
with. -/
theorem last (processes : s.Processes history)
    (undeployed : ∀ x ∈ history, x.record.deployed? x.params ≠ some account) :
    (s.run history).lastReference account =
      match (createdBy account history).getLast? with
      | some r => .ok r.signature?
      | none => s.opening account history := by
  induction history generalizing s with
  | nil => exact (opening_nil s account).symm
  | cons x rest ih =>
    rw [List.forall_mem_cons] at undeployed
    rw [run_cons, ih processes.2.2.2 undeployed.2]
    by_cases creates : x.record.creator? = some account
    · obtain ⟨reference, signature, -, signed, -, moved⟩ := processes.created creates
      rw [createdBy_cons_of_created creates, List.getLast?_cons, opening_of_some moved]
      cases (createdBy account rest).getLast? <;> simp [signed]
    · rw [createdBy_cons_of_other creates, processes.opening_other creates undeployed.1]

/-- What an account's records declare is the reference that it has, or the signature of a record of
the run. -/
theorem reference_mem (processes : s.Processes history)
    (undeployed : ∀ x ∈ history, x.record.deployed? x.params ≠ some account) {r : Record}
    (member : r ∈ createdBy account history) :
    s.lastReference account = .ok r.reference? ∨
      r.reference? ∈ history.map fun x => x.record.signature? := by
  induction history generalizing s with
  | nil => cases member
  | cons x rest ih =>
    rw [List.forall_mem_cons] at undeployed
    have later := ih processes.2.2.2 undeployed.2
    rw [List.map_cons, List.mem_cons]
    by_cases creates : x.record.creator? = some account
    · obtain ⟨reference, signature, declared, signed, known, moved⟩ := processes.created creates
      rw [createdBy_cons_of_created creates, List.mem_cons] at member
      rcases member with rfl | member
      · exact .inl (by rw [known, declared])
      · rcases later member with here | there
        · rw [moved, ← signed] at here
          exact .inr (.inl (Except.ok.inj here).symm)
        · exact .inr (.inr there)
    · rw [createdBy_cons_of_other creates] at member
      rcases later member with here | there
      · rcases processes.lastReference_eq_or account with kept | given
        · exact .inl (kept ▸ here)
        · rw [given] at here
          exact .inr (.inl (Except.ok.inj here).symm)
      · exact .inr (.inr there)

/-- **No reference is declared twice** by an account, if no signature is used twice. -/
theorem nodup (processes : s.Processes history)
    (undeployed : ∀ x ∈ history, x.record.deployed? x.params ≠ some account)
    (distinct : (history.map fun x => x.record.signature?).Nodup)
    (fresh : ∀ x ∈ history, s.lastReference account ≠ .ok x.record.signature?) :
    ((createdBy account history).map Record.reference?).Nodup := by
  induction history generalizing s with
  | nil => exact .nil
  | cons x rest ih =>
    have undeployed' := List.forall_mem_cons.mp undeployed
    rw [List.map_cons, List.nodup_cons] at distinct
    have apart : ∀ y ∈ rest, y.record.signature? ≠ x.record.signature? := fun y member same =>
      distinct.1 (List.mem_map.mpr ⟨y, member, same⟩)
    by_cases creates : x.record.creator? = some account
    · obtain ⟨reference, signature, declared, signed, known, moved⟩ := processes.created creates
      have later : ((createdBy account rest).map Record.reference?).Nodup := by
        refine ih processes.2.2.2 undeployed'.2 distinct.2 fun y member same => ?_
        rw [moved, ← signed] at same
        exact apart y member (Except.ok.inj same).symm
      rw [createdBy_cons_of_created creates, List.map_cons, List.nodup_cons]
      refine ⟨fun again => ?_, later⟩
      rcases List.mem_map.mp again with ⟨r, member, same⟩
      rcases processes.2.2.2.reference_mem undeployed'.2 member with here | there
      · rw [moved, same, declared] at here
        exact fresh x List.mem_cons_self (by rw [known, signed, Except.ok.inj here])
      · rcases List.mem_map.mp there with ⟨y, among, used⟩
        have used' : y.record.signature? = some reference := by rw [used, same, declared]
        exact fresh y (List.mem_cons_of_mem _ among) (by rw [known, used'])
    · rw [createdBy_cons_of_other creates]
      refine ih processes.2.2.2 undeployed'.2 distinct.2 fun y member same => ?_
      rcases processes.lastReference_eq_or account with kept | given
      · exact fresh y (List.mem_cons_of_mem _ member) (kept ▸ same)
      · rw [given] at same
        exact apart y member (Except.ok.inj same).symm

end Session.Processes

end Steps

/-! ## Chains -/

/-- The records of an account in a run form one chain. -/
structure Session.IsChained (s : Session) (account : Address) (history : List Submission) :
    Prop where
  /-- The first one declares what the account starts with. -/
  first : ∀ r, (createdBy account history).head? = some r →
    s.opening account history = .ok r.reference?
  /-- Every later one declares the signature of the one before it. -/
  next : (createdBy account history).IsChain fun r later => later.reference? = r.signature?
  /-- At every point the account has the signature of its last record, or else what it starts
  with. -/
  last : ∀ front, front <+: history → (s.run front).lastReference account =
    match (createdBy account front).getLast? with
    | some r => .ok r.signature?
    | none => s.opening account front
  /-- If no signature is used twice, or was the reference before, no reference is declared twice. -/
  distinct : (history.map fun x => x.record.signature?).Nodup →
    (∀ x ∈ history, s.lastReference account ≠ .ok x.record.signature?) →
    ((createdBy account history).map Record.reference?).Nodup

/-- **The records of every account form one chain** in every run, unless a record of the run deploys
the account. -/
theorem run_chained {s : Session} {account : Address} {history : List Submission}
    (processes : s.Processes history)
    (undeployed : ∀ x ∈ history, x.record.deployed? x.params ≠ some account) :
    s.IsChained account history where
  first _ := processes.first undeployed
  next := processes.next undeployed
  last := by
    rintro front ⟨back, rfl⟩
    exact processes.of_append.last fun x member => undeployed x (List.mem_append_left _ member)
  distinct := processes.nodup undeployed

/-- Another payment of the account that made the first one. -/
def secondPayment : Record :=
  .standard ⟨2, .fill 170, ⟨100⟩, some (.fill 171)⟩
    (.payment ⟨.fill 6, "QjSSfvVj4hqM5PwYwjZn7UL4mZKzUCtoeR", ⟨200⟩⟩)

/-- Two payments of one account. -/
def paymentRun : List Submission :=
  [⟨.allReleased, openingPayment⟩, ⟨.allReleased, secondPayment⟩]

theorem openingPayment_isAccepted :
    (Submission.mk .allReleased openingPayment).IsAccepted openedLedger := by
  obtain ⟨reference, funded⟩ := openedLedger.opened
  exact Submission.isAccepted_iff.mpr ⟨Payment.verdict_eq_ok reference Address.Sample.isValid_other
    (by decide) (by decide) funded (by decide), _, rfl⟩

theorem paymentRun_processes : openedLedger.Processes paymentRun := by
  have holder : Address.ofPublicKey (.fill 6 : PublicKey).bytes =
      "QVbN9WGbczLY4rPWUxzEmipQjgr2m9dQmt" := Address.Sample.ofPublicKey_key
  obtain ⟨-, funded⟩ := openedLedger.opened
  have first := openingPayment_isAccepted
  obtain ⟨faultless, solvent⟩ := Submission.solvent_after openedLedger.solvent
    (x := ⟨.allReleased, openingPayment⟩) (fun _ => by decide) (fun _ => by decide)
  rw [if_pos first] at solvent
  have done := faultless.processed first
  have moved := Submission.lastReference_processed rfl first rfl done
    (Address.ofPublicKey (.fill 6 : PublicKey).bytes)
  rw [Record.onReference, if_pos (.inl rfl), ← first.after_eq] at moved
  -- What the first payment leaves is reckoned on the account's text, not on its key.
  have left : ((Submission.mk .allReleased openingPayment).after openedLedger).balance
      (Address.ofPublicKey (.fill 6 : PublicKey).bytes) nativeAsset = .ok ⟨600⟩ := by
    have planned : openingPayment.processing .allReleased openedLedger (.fill 170) =
        .ok (.same openingPayment
          (chargeFee (Address.ofPublicKey (.fill 6 : PublicKey).bytes) ⟨100⟩ (.fill 170) ++
            moveAll (Address.ofPublicKey (.fill 6 : PublicKey).bytes) (.fill 170)
              [⟨"QjSSfvVj4hqM5PwYwjZn7UL4mZKzUCtoeR", nativeAsset, ⟨300⟩⟩] ++
            [.saveTransaction openingPayment])) := rfl
    rw [holder] at planned funded ⊢
    rw [first.balance_after rfl planned done, funded]
    have reckoned : (⟨1000⟩ : Amount) + -⟨100⟩ + -⟨300⟩ = ⟨600⟩ := rfl
    simp [Plan.same, chargeFee, moveAll, Leg.move, onBalanceAll, onBalance, Except.map, reckoned]
  have second : (Submission.mk .allReleased secondPayment).IsAccepted
      ((Submission.mk .allReleased openingPayment).after openedLedger) :=
    Submission.isAccepted_iff.mpr ⟨Payment.verdict_eq_ok moved Address.Sample.isValid_other
      (by decide) (by decide) left (by decide), _, rfl⟩
  have done' := (Submission.solvent_after solvent (x := ⟨.allReleased, secondPayment⟩)
    (fun _ => by decide) (fun _ => by decide)).1.processed second
  exact ⟨⟨_, _, rfl⟩, first, faultless.processed first, ⟨_, _, rfl⟩, second, done', trivial⟩

theorem run_chained_paymentRun :
    openedLedger.Processes paymentRun ∧
      (∀ x ∈ paymentRun, x.record.deployed? x.params ≠
        some "QVbN9WGbczLY4rPWUxzEmipQjgr2m9dQmt") ∧
      createdBy "QVbN9WGbczLY4rPWUxzEmipQjgr2m9dQmt" paymentRun = [openingPayment, secondPayment] ∧
      openedLedger.IsChained "QVbN9WGbczLY4rPWUxzEmipQjgr2m9dQmt" paymentRun := by
  have undeployed : ∀ x ∈ paymentRun, x.record.deployed? x.params ≠
      some "QVbN9WGbczLY4rPWUxzEmipQjgr2m9dQmt" := by
    simp [paymentRun, openingPayment, secondPayment, Record.deployed?]
  have created : ∀ r ∈ [openingPayment, secondPayment],
      r.creator? = some "QVbN9WGbczLY4rPWUxzEmipQjgr2m9dQmt" := by
    have holder : Address.ofPublicKey (.fill 6 : PublicKey).bytes =
        "QVbN9WGbczLY4rPWUxzEmipQjgr2m9dQmt" := Address.Sample.ofPublicKey_key
    rw [List.forall_mem_cons, List.forall_mem_singleton, openingPayment, secondPayment]
    simp only [Record.creator?, Action.creator, holder, and_self]
  refine ⟨paymentRun_processes, undeployed, ?_, run_chained paymentRun_processes undeployed⟩
  exact List.filter_eq_self.mpr fun r member => decide_eq_true (created r member)

end ChainLedger

import ChainLedger.Proofs.Run.Deployment

/-!
# The life of a transaction

A transaction is called upon again and again, each time with a ledger and parameters of its
own, and any call may fail. What a call does to the stage is told once; from it follows what
holds of every sequence of calls: processing and orphaning take turns, nothing is processed
that was not found good since it was last orphaned, and a call that is refused changes
nothing.
-/

namespace ChainLedger

open Change

/-! ## Calls -/

/-- A call of an operation on a transaction, with the ledger and the parameters of the time. -/
structure Call where
  operation : Operation
  params : ChainParams
  session : Session

/-- What a call is answered. -/
inductive Reply
  | judged (verdict : Verdict)
  | done
  | failed (error : TransactionError)

namespace Reply

def ofJudgment : Except TransactionError Verdict → Reply
  | .ok verdict => .judged verdict
  | .error error => .failed error

def ofOutcome : Except TransactionError Unit → Reply
  | .ok () => .done
  | .error error => .failed error

theorem ofOutcome_eq_failed_iff {outcome : Except TransactionError Unit}
    {error : TransactionError} : ofOutcome outcome = .failed error ↔ outcome = .error error := by
  cases outcome <;> simp [ofOutcome]

end Reply

/-- A call that was made on a transaction, with its answer and what it left. -/
structure Event where
  call : Call
  before : Transaction
  reply : Reply
  after : Transaction
  session : Session

namespace Event

/-- A call that took a step on a transaction. -/
def ofStep (call : Call) (t : Transaction) (step : Step) : Event :=
  ⟨call, t, .ofOutcome step.outcome, step.transaction, step.session⟩

/-- The operation that a call has carried out on the ledger. -/
def applied? (event : Event) : Option Operation :=
  match event.reply with
  | .done => some event.call.operation
  | _ => none

end Event

namespace Transaction

/-- Makes a call. -/
def serve (t : Transaction) (call : Call) : Event :=
  match call.operation with
  | .validate =>
    let judged := t.validate call.params call.session
    ⟨call, t, .ofJudgment judged.1, judged.2, call.session⟩
  | .process => .ofStep call t (t.process call.params call.session)
  | .orphan => .ofStep call t (t.orphan call.session)

/-- Makes calls one after the other. -/
def history : List Call → Transaction → List Event
  | [], _ => []
  | call :: rest, t => t.serve call :: history rest (t.serve call).after

theorem exists_serve_of_mem_history {calls : List Call} {t : Transaction} {event : Event}
    (member : event ∈ t.history calls) :
    ∃ (u : Transaction) (call : Call), event = u.serve call := by
  induction calls generalizing t with
  | nil => cases member
  | cons call rest ih =>
    rcases List.mem_cons.mp member with rfl | later
    · exact ⟨t, call, rfl⟩
    · exact ih later

end Transaction

/-! ## One call -/

/-- A call leaves the stage as it is, or passes on to another one. -/
inductive Event.Passes (event : Event) : Stage → Stage → Prop
  | fails {stage error} (reply : event.reply = .failed error) : Passes event stage stage
  | judges {stage verdict} (reply : event.reply = .judged verdict) (allowed : stage ≠ .processed) :
    Passes event stage (if verdict = .ok then .valid else .unvalidated)
  | processes (applied : event.applied? = some .process) : Passes event .valid .processed
  | orphans (applied : event.applied? = some .orphan) : Passes event .processed .orphaned

/-- The call was not allowed at the stage, or the record had no signature for it. -/
def TransactionError.IsRefusal : TransactionError → Prop
  | .illegalTransition .. | .unsigned _ => True
  | _ => False

/-- Undoing only fails for want of what processing should have left. -/
theorem Record.not_isRefusal_of_undoing {r : Record} {signature : Signature}
    {error : TransactionError} (failed : r.undoing signature = .error error) :
    ¬error.IsRefusal := by
  cases r with
  | genesis => cases failed
  | standard envelope action =>
    cases action with
    | issueAsset i =>
      cases numbered : i.assetId <;> simp [undoing, Action.undoing, numbered] at failed
      simp [← failed, TransactionError.IsRefusal]
    | deployAt d =>
      cases placed : d.atAddress <;> simp [undoing, Action.undoing, placed] at failed
      simp [← failed, TransactionError.IsRefusal]
    | payment | createPoll | voteOnPoll | transferAsset | multiPayment | settleAt => cases failed

namespace Transaction

variable {s : Session} {t : Transaction} {call : Call} {stage : Stage} {plan : Plan}

/-- **What a call does to the stage.** -/
theorem passes_serve (t : Transaction) (call : Call) :
    (t.serve call).Passes t.stage (t.serve call).after.stage := by
  obtain ⟨operation, params, s⟩ := call
  cases operation with
  | validate =>
    obtain ⟨error, failed⟩ | ⟨verdict, unprocessed, -, judged⟩ := validate_cases params s t
    · simp only [serve, failed]
      exact .fails rfl
    · simp only [serve, judged]
      exact .judges rfl unprocessed
  | process =>
    obtain ⟨error, refused⟩ | ⟨signature, plan, valid, -, -, carried⟩ := process_cases params s t
    · simp only [serve, refused]
      exact .fails rfl
    · obtain ⟨error, failed⟩ | done := carryOut_cases t s .processed plan
      · simp only [serve, carried, failed]
        exact .fails rfl
      · simp only [serve, carried, done, valid]
        exact .processes rfl
  | orphan =>
    obtain ⟨error, refused⟩ | ⟨signature, processed, -, -, unplanned | planned⟩ := orphan_cases s t
    · simp only [serve, refused]
      exact .fails rfl
    · obtain ⟨error, -, refused⟩ := unplanned
      simp only [serve, refused]
      exact .fails rfl
    · obtain ⟨plan, -, carried⟩ := planned
      obtain ⟨error, failed⟩ | done := carryOut_cases t
        ((Change.deleteTransaction t.record).make s).session .orphaned plan
      · simp only [serve, carried, failed]
        exact .fails rfl
      · simp only [serve, carried, done, processed]
        exact .orphans rfl

/-- A plan that is carried out only fails by what the ledger holds. -/
theorem not_isRefusal_of_carryOut {error : TransactionError}
    (failed : (t.carryOut s stage plan).outcome = .error error) : ¬error.IsRefusal := by
  obtain ⟨fault, carried⟩ | done := carryOut_cases t s stage plan
  · rw [carried] at failed
    cases failed
    exact id
  · rw [done] at failed
    cases failed

/-- **A call that is refused changes nothing.** -/
theorem eq_of_isRefusal {error : TransactionError} (reply : (t.serve call).reply = .failed error)
    (refusal : error.IsRefusal) :
    (t.serve call).after = t ∧ (t.serve call).session = call.session := by
  obtain ⟨operation, params, s⟩ := call
  cases operation with
  | validate =>
    obtain ⟨_, failed⟩ | ⟨verdict, -, -, judged⟩ := validate_cases params s t
    · simp only [serve, failed, and_self]
    · simp [serve, judged, Reply.ofJudgment] at reply
  | process =>
    obtain ⟨_, refused⟩ | ⟨signature, plan, -, -, -, carried⟩ := process_cases params s t
    · simp only [serve, refused]
      exact ⟨rfl, rfl⟩
    · have failed := Reply.ofOutcome_eq_failed_iff.mp reply
      rw [carried] at failed
      exact absurd refusal (not_isRefusal_of_carryOut failed)
  | orphan =>
    have failed := Reply.ofOutcome_eq_failed_iff.mp reply
    obtain ⟨_, refused⟩ | ⟨signature, -, -, -, unplanned | planned⟩ := orphan_cases s t
    · simp only [serve, refused]
      exact ⟨rfl, rfl⟩
    · obtain ⟨fault, missing, refused⟩ := unplanned
      rw [refused] at failed
      cases failed
      exact absurd refusal (Record.not_isRefusal_of_undoing missing)
    · obtain ⟨plan, -, carried⟩ := planned
      rw [carried] at failed
      exact absurd refusal (not_isRefusal_of_carryOut failed)

end Transaction

/-! ## All calls -/

/-- So many operations in turn, of which processing is the first. -/
def Operation.turns (count : Nat) : List Operation :=
  (List.range count).map fun i => if i % 2 = 0 then .process else .orphan

theorem Operation.turns_succ (count : Nat) :
    turns (count + 1) = turns count ++ [if count % 2 = 0 then .process else .orphan] := by
  simp [turns, List.range_succ]

/-- The transaction was found good, and since then it was not found bad, processed or orphaned. -/
def Cleared (events : List Event) : Prop :=
  ∃ earlier judged later, events = earlier ++ judged :: later ∧ judged.reply = .judged .ok ∧
    ∀ event ∈ later, event.applied? = none ∧
      ∀ verdict, event.reply = .judged verdict → verdict = .ok

/-- A good verdict clears the transaction. -/
theorem Cleared.of_good {events : List Event} {event : Event} (reply : event.reply = .judged .ok) :
    Cleared (events ++ [event]) :=
  ⟨events, event, [], rfl, reply, fun _ member => by cases member⟩

/-- A call that fails leaves it cleared. -/
theorem Cleared.concat {events : List Event} {event : Event} {error : TransactionError}
    (cleared : Cleared events) (reply : event.reply = .failed error) :
    Cleared (events ++ [event]) := by
  obtain ⟨earlier, judged, later, rfl, good, quiet⟩ := cleared
  refine ⟨earlier, judged, later ++ [event], by simp, good, ?_⟩
  refine List.forall_mem_append.mpr ⟨quiet, List.forall_mem_singleton.mpr ⟨?_, ?_⟩⟩
  · rw [Event.applied?, reply]
  · intro verdict other
    rw [reply] at other
    cases other

/-- What the calls up to now were, if they left a transaction at a stage. -/
structure Disciplined (events : List Event) (stage : Stage) : Prop where
  /-- Processing and orphaning took turns, and it is processed if processing came last. -/
  turns : ∃ count, events.filterMap Event.applied? = Operation.turns count ∧
    (stage = .processed ↔ count % 2 = 1)
  cleared : stage = .valid → Cleared events
  processed : ∀ front event back, events = front ++ event :: back →
    event.applied? = some .process → Cleared front

namespace Disciplined

variable {events : List Event} {event : Event} {stage next : Stage}

theorem nil (unprocessed : stage ≠ .processed) (unvalidated : stage ≠ .valid) :
    Disciplined [] stage where
  turns := ⟨0, rfl, iff_of_false unprocessed (by decide)⟩
  cleared valid := absurd valid unvalidated
  processed front event back split := by simp at split

/-- **One more call** keeps the discipline. -/
theorem concat (disciplined : Disciplined events stage) (passes : event.Passes stage next) :
    Disciplined (events ++ [event]) next := by
  obtain ⟨count, applied, parity⟩ := disciplined.turns
  have quiet : event.applied? = none →
      (events ++ [event]).filterMap Event.applied? = Operation.turns count := by
    intro nothing
    simp [nothing, applied]
  have turn : ∀ operation, event.applied? = some operation →
      (operation = if count % 2 = 0 then .process else .orphan) →
      (events ++ [event]).filterMap Event.applied? = Operation.turns (count + 1) := by
    rintro operation something rfl
    simp [something, applied, Operation.turns_succ]
  constructor
  case turns =>
    cases passes with
    | fails reply => exact ⟨count, quiet (by rw [Event.applied?, reply]), parity⟩
    | @judges _ verdict reply allowed =>
      refine ⟨count, quiet (by rw [Event.applied?, reply]), iff_of_false ?_ ?_⟩
      · split <;> simp
      · exact fun odd => allowed (parity.mpr odd)
    | processes something =>
      have even : count % 2 = 0 := by
        have : ¬count % 2 = 1 := fun odd => by cases parity.mpr odd
        omega
      exact ⟨count + 1, turn _ something (by rw [if_pos even]), iff_of_true rfl (by omega)⟩
    | orphans something =>
      have odd : count % 2 = 1 := parity.mp rfl
      exact ⟨count + 1, turn _ something (by rw [if_neg (by omega)]),
        iff_of_false (by simp) (by omega)⟩
  case cleared =>
    intro valid
    cases passes with
    | fails reply => exact (disciplined.cleared valid).concat reply
    | @judges _ verdict reply =>
      by_cases good : verdict = .ok
      · exact .of_good (good ▸ reply)
      · simp [good] at valid
    | processes | orphans => cases valid
  case processed =>
    intro front other back split something
    -- The processing that is looked at is the new call, or one of those before.
    rcases back.eq_nil_or_concat with rfl | ⟨between, last, rfl⟩
    · obtain ⟨rfl, same⟩ := List.append_inj' split rfl
      cases same
      refine disciplined.cleared ?_
      cases passes with
      | fails reply => simp [Event.applied?, reply] at something
      | judges reply => simp [Event.applied?, reply] at something
      | processes => rfl
      | orphans applied => simp [applied] at something
    · rw [List.concat_eq_append, ← List.cons_append, ← List.append_assoc] at split
      exact disciplined.processed front other between (List.append_inj' split rfl).1 something

/-- **Any further calls** keep the discipline. -/
theorem history {t : Transaction} (disciplined : Disciplined events t.stage) (calls : List Call) :
    ∃ final, Disciplined (events ++ t.history calls) final := by
  induction calls generalizing t events with
  | nil => exact ⟨t.stage, by simpa [Transaction.history] using disciplined⟩
  | cons call rest ih =>
    have later := ih (disciplined.concat (t.passes_serve call))
    rwa [List.append_assoc] at later

end Disciplined

/-- **The discipline of a life.** Whatever calls are made on a transaction that was received:
processing and orphaning succeed in turn, beginning with processing; what is processed was cleared
by the calls since; and a call that is refused, by its stage or for want of a signature, leaves the
ledger and the transaction as they were. -/
theorem Transaction.disciplined_history (r : Record) (calls : List Call) :
    let events := (received r).history calls
    (∃ count, events.filterMap Event.applied? = Operation.turns count) ∧
      (∀ front event back, events = front ++ event :: back →
        event.applied? = some .process → Cleared front) ∧
      (∀ event ∈ events, ∀ error, event.reply = .failed error → error.IsRefusal →
        event.after = event.before ∧ event.session = event.call.session) := by
  intro events
  have start : Disciplined [] (received r).stage := .nil (by simp [received]) (by simp [received])
  obtain ⟨final, disciplined⟩ := start.history calls
  obtain ⟨count, applied, -⟩ := disciplined.turns
  refine ⟨⟨count, applied⟩, disciplined.processed, fun event member error reply refusal => ?_⟩
  obtain ⟨t, call, rfl⟩ := exists_serve_of_mem_history member
  have kept := eq_of_isRefusal reply refusal
  have before : (t.serve call).before = t ∧ (t.serve call).call = call := by
    unfold serve
    split <;> exact ⟨rfl, rfl⟩
  rw [before.1, before.2]
  exact kept

/-! ## A life -/

/-- What comes of processing a good transaction too early, judging it, processing it and orphaning
it again. -/
theorem Transaction.history_undone {params : ChainParams} {s : Session} {r : Record}
    (judged : (received r).validate params s = (.ok .ok, ⟨r, .valid⟩))
    (done : ((Transaction.mk r .valid).process params s).outcome = .ok ())
    (undone : (((Transaction.mk r .valid).process params s).transaction.orphan
      ((Transaction.mk r .valid).process params s).session).outcome = .ok ()) :
    let step := (Transaction.mk r .valid).process params s
    let back := step.transaction.orphan step.session
    (received r).history [⟨.process, params, s⟩, ⟨.validate, params, s⟩, ⟨.process, params, s⟩,
        ⟨.orphan, params, step.session⟩] =
      [⟨⟨.process, params, s⟩, received r, .failed (.illegalTransition .process .unvalidated),
          received r, s⟩,
        ⟨⟨.validate, params, s⟩, received r, .judged .ok, ⟨r, .valid⟩, s⟩,
        ⟨⟨.process, params, s⟩, ⟨r, .valid⟩, .done, step.transaction, step.session⟩,
        ⟨⟨.orphan, params, step.session⟩, step.transaction, .done, back.transaction,
          back.session⟩] := by
  have early : (received r).process params s =
      (received r).refuse s (.illegalTransition .process .unvalidated) := rfl
  simp only [history, serve, early, judged, refuse, Event.ofStep, Reply.ofOutcome,
    Reply.ofJudgment, done, undone]

open openedLedger (firstReference)

/-- A deployment that is processed too early is refused, and later deployed and taken back. -/
theorem Transaction.disciplined_history_deployment :
    let r := Deployment.Sample.record firstReference
    let step := (Transaction.mk r .valid).process .allReleased openedLedger
    let events := (received r).history [⟨.process, .allReleased, openedLedger⟩,
      ⟨.validate, .allReleased, openedLedger⟩, ⟨.process, .allReleased, openedLedger⟩,
      ⟨.orphan, .allReleased, step.session⟩]
    events.map Event.reply =
        [.failed (.illegalTransition .process .unvalidated), .judged .ok, .done, .done] ∧
      (∃ count, events.filterMap Event.applied? = Operation.turns count) ∧
      Cleared (events.take 2) ∧
      ∀ event ∈ events.head?, event.after = event.before ∧
        event.session = event.call.session := by
  obtain ⟨known, funded⟩ : openedLedger.lastReference openedLedger.account =
      .ok (some firstReference) ∧ openedLedger.balance openedLedger.account nativeAsset =
        .ok ⟨1000⟩ := openedLedger.opened
  have good := Deployment.Sample.verdict_record known funded (by decide)
  have judged : (received (Deployment.Sample.record firstReference)).validate .allReleased
      openedLedger = (.ok .ok, ⟨Deployment.Sample.record firstReference, .valid⟩) :=
    validate_received_eq_iff.mpr ⟨good, rfl⟩
  obtain ⟨_, _, -, -, done, undone, -⟩ := AtDeployment.exists_undone
    openedLedger.reached.coherent rfl good
  have life := history_undone judged done undone
  obtain ⟨turns, cleared, refused⟩ := disciplined_history
    (Deployment.Sample.record firstReference) [⟨.process, .allReleased, openedLedger⟩,
      ⟨.validate, .allReleased, openedLedger⟩, ⟨.process, .allReleased, openedLedger⟩,
      ⟨.orphan, .allReleased, ((Transaction.mk (Deployment.Sample.record firstReference)
        .valid).process .allReleased openedLedger).session⟩]
  simp only [life] at turns cleared refused ⊢
  refine ⟨rfl, turns, cleared [_, _] _ [_] rfl rfl, fun event first => ?_⟩
  have early : event.reply = .failed (.illegalTransition .process .unvalidated) := by
    cases first
    rfl
  exact refused event (List.mem_of_mem_head? first) _ early trivial

end ChainLedger

import ChainLedger.Proofs.Ledger.Change
import ChainLedger.Transaction.Validation

/-!
# What a good verdict says

No rule has the good verdict for its breach, and a rule fails to be judged only where
it looks at a row that cannot be read. So a record is found good exactly when every
rule for it holds, and where the rows can be read there is a verdict on every record.
-/

namespace ChainLedger

/-- The rows that rules look at can be read. -/
structure Session.Consultable (s : Session) : Prop where
  balance : ∀ account asset, s.Legible (.balance account asset)
  reference : ∀ account, s.Legible (.reference account)
  asset : ∀ id, s.Legible (.asset id)
  poll : ∀ name, s.Legible (.poll name)
  vote : ∀ poll voter, s.Legible (.vote poll voter)

variable {params : ChainParams} {s : Session}

/-! ## Fair rules -/

namespace Rule

/-- The rule has a bad verdict for its breach and can be judged where the rows can be read. -/
def Fair (s : Session) (rule : Rule) : Prop :=
  rule.verdict ≠ .ok ∧ (s.Consultable → ∃ holds, rule.holds = .ok holds)

/-- All the rules are fair. -/
def AllFair (s : Session) (rules : List Rule) : Prop := ∀ rule ∈ rules, rule.Fair s

theorem fair_plain {holds : Bool} {verdict : Verdict} (named : verdict ≠ .ok) :
    (plain holds verdict).Fair s :=
  ⟨named, fun _ => ⟨holds, rfl⟩⟩

/-- A rule on what is read is fair if it can be read. -/
theorem fair_map {α : Type} {read : Except DataError α} {test : α → Bool} {verdict : Verdict}
    (named : verdict ≠ .ok) (legible : s.Consultable → ∃ a, read = .ok a) :
    (Rule.mk (read.map test) verdict).Fair s := by
  refine ⟨named, fun consultable => ?_⟩
  obtain ⟨a, known⟩ := legible consultable
  exact ⟨test a, Except.map_eq_ok_iff.mpr ⟨a, known, rfl⟩⟩

theorem fair_balance (account : Address) (asset : AssetId) (units : Int) :
    (balance s account asset units).Fair s :=
  fair_map (by decide) fun consultable =>
    Session.legible_balance_iff.mp (consultable.balance account asset)

theorem fair_reference (account : Address) (reference : Signature) :
    (Rule.reference s account reference).Fair s :=
  fair_map (by decide) fun consultable => consultable.reference account

theorem AllFair.nil : AllFair s [] := fun _ member => by cases member

theorem AllFair.cons {rule : Rule} {rest : List Rule} (fair : rule.Fair s)
    (later : AllFair s rest) : AllFair s (rule :: rest) :=
  List.forall_mem_cons.mpr ⟨fair, later⟩

theorem AllFair.plain {holds : Bool} {verdict : Verdict} {rest : List Rule}
    (named : verdict ≠ .ok) (later : AllFair s rest) :
    AllFair s (Rule.plain holds verdict :: rest) :=
  .cons (fair_plain named) later

theorem AllFair.append {first second : List Rule} (fair : AllFair s first)
    (later : AllFair s second) : AllFair s (first ++ second) :=
  List.forall_mem_append.mpr ⟨fair, later⟩

theorem allFair_assetAmount (id : AssetId) (amount : Amount) :
    AllFair s (assetAmount s id amount) := by
  unfold assetAmount
  split
  next => exact .nil
  next =>
    refine .cons (fair_map (by decide) fun consultable => consultable.asset id) ?_
    exact .cons (fair_map (by decide) fun consultable => consultable.asset id) .nil

/-- Fair rules give a verdict where the rows can be read. -/
theorem exists_judge {rules : List Rule} (fair : AllFair s rules) (consultable : s.Consultable) :
    ∃ verdict, judge rules = .ok verdict := by
  induction rules with
  | nil => exact ⟨.ok, rfl⟩
  | cons rule rest ih =>
    rcases List.forall_mem_cons.mp fair with ⟨here, later⟩
    obtain ⟨holds, known⟩ := here.2 consultable
    rw [judge, known]
    cases holds with
    | true => exact ih later
    | false => exact ⟨rule.verdict, rfl⟩

end Rule

open Rule

/-! ## The rules for each kind are fair -/

theorem allFair_legRules (fee : Amount) (before legs : List Leg) :
    AllFair s (legRules s fee before legs) := by
  induction legs generalizing before with
  | nil => exact .nil
  | cons leg rest ih =>
    refine .append (.append (.append ?_ (allFair_assetAmount _ _)) ?_) (ih _)
    · exact .plain (by decide) (.plain (by decide) .nil)
    · exact .plain (by decide) .nil

theorem allFair_paymentRules (sender : Address) (legs : List Leg) (fee : Amount) :
    AllFair s (paymentRules s sender legs fee) := by
  refine .append (.plain (by decide) (allFair_legRules _ _ _)) ?_
  intro rule member
  rcases List.mem_map.mp member with ⟨asset, -, rfl⟩
  exact fair_balance sender asset _

theorem PollCreation.allFair_optionRules (before options : List String) :
    AllFair s (optionRules before options) := by
  induction options generalizing before with
  | nil => exact .nil
  | cons option rest ih =>
    exact .append (.plain (by decide) (.plain (by decide) .nil)) (ih _)

theorem AtSettlement.allFair_paymentRules (settlement : AtSettlement) (payment : AtPayment) :
    AllFair s (settlement.paymentRules s payment) := by
  refine .append (.append ?_ (allFair_assetAmount _ _)) (.cons (fair_balance _ _ _) .nil)
  exact .plain (by decide) (.plain (by decide) .nil)

theorem PollCreation.allFair_rules (envelope : Envelope) (c : PollCreation) (creator : Address) :
    AllFair s (c.rules params s envelope creator) := by
  have unpublished : (Rule.mk ((s.pollExists c.name).map not) .pollAlreadyExists).Fair s := by
    refine fair_map (by decide) fun consultable => ?_
    obtain ⟨poll, known⟩ := consultable.poll c.name
    exact ⟨poll.isSome, Except.map_eq_ok_iff.mpr ⟨poll, known, rfl⟩⟩
  refine .append (.append ?_ (allFair_optionRules _ _)) ?_
  · exact .plain (by decide) <| .plain (by decide) <| .plain (by decide) <| .plain (by decide) <|
      .plain (by decide) <| .cons unpublished <| .plain (by decide) .nil
  · exact .plain (by decide) (.cons (fair_balance _ _ _) .nil)

theorem Ballot.allFair_rules (envelope : Envelope) (b : Ballot) (voter : Address) :
    AllFair s (b.rules params s envelope voter) := by
  have polled : s.Consultable → ∃ poll, s.poll? b.poll = .ok poll := fun consultable =>
    consultable.poll b.poll
  have voted : s.Consultable → ∃ vote, s.vote? b.poll b.voter = .ok vote := fun consultable =>
    consultable.vote b.poll b.voter
  exact .plain (by decide) <| .plain (by decide) <| .plain (by decide) <|
    .cons (fair_map (by decide) polled) <| .cons (fair_map (by decide) polled) <|
    .cons (fair_map (by decide) voted) <| .plain (by decide) <| .cons (fair_balance _ _ _) .nil

theorem AssetIssue.allFair_rules (envelope : Envelope) (i : AssetIssue) (issuer : Address) :
    AllFair s (i.rules params s envelope issuer) :=
  .plain (by decide) <| .plain (by decide) <| .plain (by decide) <| .plain (by decide) <|
    .plain (by decide) <| .plain (by decide) <| .cons (fair_balance _ _ _) <|
    .plain (by decide) .nil

theorem AtDeployment.allFair_rules (envelope : Envelope) (d : AtDeployment) (creator : Address) :
    AllFair s (d.rules params s envelope creator) :=
  .plain (by decide) <| .plain (by decide) <| .plain (by decide) <| .plain (by decide) <|
    .plain (by decide) <| .plain (by decide) <| .plain (by decide) <| .plain (by decide) <|
    .plain (by decide) <| .cons (fair_balance _ _ _) .nil

theorem AtSettlement.allFair_rules (settlement : AtSettlement) :
    AllFair s (settlement.rules s) := by
  refine .plain (by decide) ?_
  intro rule member
  rcases List.mem_flatMap.mp member with ⟨payment, -, inside⟩
  exact allFair_paymentRules settlement payment rule inside

theorem Action.allFair_rules (envelope : Envelope) (action : Action) :
    AllFair s (action.rules params s envelope) := by
  cases action with
  | payment p => exact allFair_paymentRules _ _ _
  | createPoll c => exact c.allFair_rules envelope _
  | voteOnPoll b => exact b.allFair_rules envelope _
  | issueAsset i => exact i.allFair_rules envelope _
  | transferAsset t => exact .plain (by decide) (allFair_paymentRules _ _ _)
  | multiPayment m =>
    refine .append (.append ?_ ?_) (allFair_paymentRules _ _ _)
    · exact .plain (by decide) (.plain (by decide) .nil)
    · split
      next => exact .cons (fair_balance _ _ _) .nil
      next => exact .nil
  | deployAt d => exact d.allFair_rules envelope _
  | settleAt settlement => exact settlement.allFair_rules

namespace Record

theorem allFair_rules (r : Record) : AllFair s (r.rules params s) := by
  cases r with
  | genesis g => exact .plain (by decide) (.plain (by decide) .nil)
  | standard envelope action => exact .cons (fair_reference _ _) (action.allFair_rules envelope)

/-- **A record is found good exactly when every rule for it holds.** -/
theorem verdict_eq_ok_iff {r : Record} :
    r.verdict params s = .ok .ok ↔ ∀ rule ∈ r.rules params s, rule.holds = .ok true :=
  judge_eq_ok_iff fun rule member => (r.allFair_rules rule member).1

/-- **There is a verdict on every record** where the rows can be read. -/
theorem exists_verdict (consultable : s.Consultable) (r : Record) :
    ∃ verdict, r.verdict params s = .ok verdict :=
  exists_judge r.allFair_rules consultable

section Standard

variable {envelope : Envelope} {action : Action}

/-- A good record gives the reference that its account has. -/
theorem lastReference_of_verdict
    (good : (Record.standard envelope action).verdict params s = .ok .ok) :
    s.lastReference action.creator = .ok (some envelope.reference) := by
  have rule := verdict_eq_ok_iff.mp good _ List.mem_cons_self
  rcases Except.map_eq_ok_iff.mp rule with ⟨last, readable, same⟩
  rw [readable, beq_iff_eq.mp same]

/-- The rules for the action of a good record hold. -/
theorem rules_of_verdict (good : (Record.standard envelope action).verdict params s = .ok .ok) :
    ∀ rule ∈ action.rules params s envelope, rule.holds = .ok true :=
  fun rule member => verdict_eq_ok_iff.mp good rule (List.mem_cons_of_mem _ member)

end Standard

end Record

end ChainLedger

import ChainLedger.Proofs.Transaction.Conditions
import ChainLedger.Proofs.Transaction.Making
import ChainLedger.Proofs.Transaction.Storable
import ChainLedger.Proofs.Transaction.Undoing
import Mathlib.Order.Basic

/-!
# Orphaning is the inverse of processing

Payments, settlements, votes and issues of assets are taken back without a trace: what
processing stored is found again under its signature with all that processing added,
and orphaning it gives a ledger that answers as the one before.

The signature has to be new to the ledger. An account that already has it as its
reference would lose it with the first reference that a payment brings, and a record
that is already stored under it would be replaced, and then removed.
-/

namespace ChainLedger

open Change

variable {params : ChainParams} {s : Session} {r : Record} {signature reference : Signature}
  {creator : Address} {changes undoing front back : List Change} {legs : List Leg}

/-! ## Undoing each kind -/

theorem not_mem_families_of_onAccounts {change : Change} (onAccounts : change.OnAccounts) :
    "tx/" ∉ change.families := by
  intro member
  have impossible := onAccounts _ member
  simp at impossible

/-- Changes that can be repeated can be made after those that processed a record. -/
theorem makeAll_of_repeatable (repeatable : ∀ change ∈ undoing, change.Repeatable changes)
    (made : (makeAll (changes ++ storeAndRemove r) s).outcome = .ok ()) :
    (makeAll undoing (makeAll (changes ++ storeAndRemove r) s).session).outcome = .ok () := by
  apply makeAll_eq_ok
  · intro change member
    exact (repeatable change member).1
  · intro change member
    have again : change.Repeatable (changes ++ storeAndRemove r) :=
      (repeatable change member).mono fun other here => List.mem_append_left _ here
    exact makeable_of_repeatable again made

/-- Legs that are moved between brackets are moved back. -/
theorem Brackets.undoes (brackets : Brackets creator signature reference front back)
    (known : s.lastReference creator = .ok (some reference))
    (fresh : ∀ account, s.lastReference account ≠ .ok (some signature)) :
    Undoes s r (front ++ moveAll creator signature legs)
      (moveAllBack creator signature legs ++ back) := by
  have onFront : ∀ change ∈ front ++ moveAll creator signature legs, change.OnAccounts := by
    intro change member
    rcases List.mem_append.mp member with here | there
    · exact brackets.onAccounts change (List.mem_append_left _ here)
    · exact onAccounts_moveAll change there
  have onBack : ∀ change ∈ moveAllBack creator signature legs ++ back, change.OnAccounts := by
    intro change member
    rcases List.mem_append.mp member with here | there
    · exact onAccounts_moveAllBack change here
    · exact brackets.onAccounts change (List.mem_append_right _ there)
  constructor
  case apart =>
    intro change member
    rcases List.mem_append.mp member with here | there
    · exact not_mem_families_of_onAccounts (onFront change here)
    · exact not_mem_families_of_onAccounts (onBack change there)
  case succeeds =>
    intro made
    apply makeAll_of_repeatable _ made
    intro change member
    rcases List.mem_append.mp member with here | there
    · exact (repeatable_moveAllBack change here).mono fun _ => List.mem_append_right _
    · exact (brackets.repeatable change there).mono fun _ => List.mem_append_left _
  case balances =>
    intro account asset
    exact brackets.settles_balance account asset _
  case references =>
    intro account
    exact brackets.settles_reference (fun same => same ▸ known) (fresh account)
  case others =>
    intro c other made
    simp only [List.mem_cons, List.not_mem_nil, or_false, not_or] at other
    have apart : c.family ∉ ["balance/", "reference/"] := by simp [other]
    rcases makeAll_append_eq_ok_iff.mp made with ⟨first, -⟩
    rw [makeAll_append_of_ok made, read_makeAll_of_onAccounts onBack apart,
      makeAll_append_of_ok first, read_storeAndRemove other.2.2,
      read_makeAll_of_onAccounts onFront apart]

/-- What takes a vote back: the vote before it, or none. -/
def Ballot.withdrawal (b : Ballot) : Change :=
  match b.previous with
  | some option => .saveVote ⟨b.poll, b.voter, option⟩
  | none => .deleteVote b.poll b.voter

namespace Ballot

variable {b : Ballot}

theorem withdrawal_makeable (s : Session) : b.withdrawal.IsSteady ∧ b.withdrawal.Makeable s := by
  unfold withdrawal
  cases b.previous <;> exact ⟨trivial, trivial⟩

theorem withdrawal_families : b.withdrawal.families = ["vote/"] := by
  unfold withdrawal
  cases b.previous <;> rfl

theorem onBalance_withdrawal (account : Address) (asset : AssetId)
    (balance : Except DataError Amount) :
    onBalance account asset b.withdrawal balance = balance := by
  unfold withdrawal
  cases b.previous <;> rfl

theorem onReference_withdrawal (account : Address) (last : Except DataError (Option Signature)) :
    onReference account b.withdrawal last = last := by
  unfold withdrawal
  cases b.previous <;> rfl

/-- Voting and taking the vote back write one cell. -/
theorem eq_of_writes_withdrawal {c : Cell} (writes : b.withdrawal.Writes c.key) :
    c = .vote b.poll b.voter := by
  unfold withdrawal at writes
  cases previous : b.previous <;> rw [previous] at writes <;> exact Cell.key_injective writes

/-- Once the vote is taken back, its cell holds the vote before it. -/
theorem read_withdrawal {vote : Option Vote} (previous : b.previous = vote.map Vote.option)
    (labelled : ∀ v, vote = some v → v.poll = b.poll ∧ v.voter = b.voter)
    (storable : Form.Fits (Text.size b.poll)) (s : Session) :
    (b.withdrawal.make s).session.read (.vote b.poll b.voter) = .ok vote := by
  cases vote with
  | none =>
    have put : b.withdrawal = .deleteVote b.poll b.voter := by
      simp [withdrawal, previous]
    rw [put]
    exact Session.read_clear_self s (.vote b.poll b.voter)
  | some v =>
    obtain ⟨poll, voter⟩ := labelled v rfl
    have put : b.withdrawal = .saveVote v := by
      simp [withdrawal, previous, ← poll, ← voter]
    have fits : v.Storable := by
      rwa [← poll] at storable
    rw [put, ← poll, ← voter]
    exact Session.read_write_self (c := .vote v.poll v.voter) Vote.form_readsBack s fits

/-- A vote that is cast and taken back leaves every cell as it was. -/
theorem read_saveVote_withdrawal {c : Cell} {t : Session} {vote : Option Vote}
    (previous : b.previous = vote.map Vote.option) (voted : s.vote? b.poll b.voter = .ok vote)
    (labelled : ∀ v, vote = some v → v.poll = b.poll ∧ v.voter = b.voter)
    (storable : Form.Fits (Text.size b.poll)) (saved : t.read c = (s.saveVote b.toVote).read c) :
    (b.withdrawal.make t).session.read c = s.read c := by
  by_cases same : c = .vote b.poll b.voter
  · subst same
    rw [read_withdrawal previous labelled storable]
    exact voted.symm
  · have unwritten : ¬b.withdrawal.Writes c.key := fun writes =>
      same (eq_of_writes_withdrawal writes)
    rw [Session.read_congr (get?_make unwritten t), saved]
    exact Session.read_write_of_ne same s _

end Ballot

/-- A vote is taken back, to the one before it if there was one. -/
theorem Brackets.undoes_vote (brackets : Brackets creator signature reference front back)
    (known : s.lastReference creator = .ok (some reference))
    {b : Ballot} {vote : Option Vote} (previous : b.previous = vote.map Vote.option)
    (voted : s.vote? b.poll b.voter = .ok vote)
    (labelled : ∀ v, vote = some v → v.poll = b.poll ∧ v.voter = b.voter)
    (storable : Form.Fits (Text.size b.poll)) :
    Undoes s r (.saveVote b.toVote :: front) (b.withdrawal :: back) := by
  have onFront : ∀ change ∈ front, change.OnAccounts := fun change member =>
    brackets.onAccounts change (List.mem_append_left _ member)
  have onBack : ∀ change ∈ back, change.OnAccounts := fun change member =>
    brackets.onAccounts change (List.mem_append_right _ member)
  constructor
  case apart =>
    intro change member
    rw [List.cons_append, List.mem_cons, List.mem_append, List.mem_cons] at member
    rcases member with rfl | here | rfl | there
    · simp [families]
    · exact not_mem_families_of_onAccounts (onFront change here)
    · rw [Ballot.withdrawal_families]
      simp
    · exact not_mem_families_of_onAccounts (onBack change there)
  case succeeds =>
    intro made
    apply makeAll_of_repeatable _ made
    intro change member
    rcases List.mem_cons.mp member with rfl | there
    · exact ⟨(Ballot.withdrawal_makeable s).1, .inl fun t => (Ballot.withdrawal_makeable t).2⟩
    · exact (brackets.repeatable change there).mono fun _ => List.mem_cons_of_mem _
  case balances =>
    intro account asset
    rw [onBalanceAll_append, onBalanceAll_cons, onBalanceAll_cons, Ballot.onBalance_withdrawal,
      ← onBalanceAll_append]
    exact brackets.balances account asset _
  case references =>
    intro account
    rw [onReferenceAll_append, onReferenceAll_cons, onReferenceAll_cons,
      Ballot.onReference_withdrawal, ← onReferenceAll_append]
    exact brackets.restores_reference fun same => same ▸ known
  case others =>
    intro c other made
    have apart : c.family ∉ ["balance/", "reference/"] := fun member =>
      other (List.mem_append_left ["tx/"] member)
    have saved := read_makeAll_cons_storeAndRemove onFront other made
    rw [makeAll_append_of_ok made, read_makeAll_cons_of_onAccounts
      (make_eq_ok_iff.mpr (Ballot.withdrawal_makeable _).2) onBack apart]
    exact Ballot.read_saveVote_withdrawal previous voted labelled storable saved

section Issue

variable {fee : Amount} {asset : Asset} {balance : Amount}

/-- What an issue does to the ledger. -/
def issuing (asset : Asset) (balance : Amount) (creator : Address) (fee : Amount)
    (signature : Signature) : List Change :=
  [.saveAsset asset, .setBalance asset.owner asset.id balance] ++ chargeFee creator fee signature

/-- How an issue is taken back. -/
def withdrawing (asset : Asset) (creator : Address) (fee : Amount) (reference : Signature) :
    List Change :=
  [.deleteAsset asset.id, .clearBalance asset.owner asset.id] ++ refundFee creator fee reference

/-- Past the saving of the asset, an issue keeps to balances and references. -/
theorem onAccounts_issuing : ∀ change ∈
    Change.setBalance asset.owner asset.id balance :: chargeFee creator fee signature,
    change.OnAccounts := by
  simp [chargeFee, OnAccounts, families]

/-- Past the deletion of the asset, so does what takes it back. -/
theorem onAccounts_withdrawing : ∀ change ∈
    Change.clearBalance asset.owner asset.id :: refundFee creator fee reference,
    change.OnAccounts := by
  simp [refundFee, OnAccounts, families]

/-- An issue can be taken back where its asset is found and its creator's coins can be read. -/
theorem makeAll_withdrawing_eq_ok (held : s.asset? asset.id = .ok (some asset))
    (legible : s.Legible (.balance creator nativeAsset)) :
    (makeAll (withdrawing asset creator fee reference) s).outcome = .ok () := by
  have deleted : ((Change.deleteAsset asset.id).make s).outcome = .ok () := by
    rw [make_deleteAsset held]
    rfl
  have kept : ((Change.deleteAsset asset.id).make s).session.Legible
      (.balance creator nativeAsset) := legible_balance_make deleted legible
  refine makeAll_cons_eq_ok_iff.mpr ⟨deleted, ?_⟩
  apply makeAll_eq_ok
  · simp [refundFee, IsSteady]
  · simp [refundFee, Makeable, kept]

/-- Balances and references apart, taking an issue back removes the rows of its asset. -/
theorem read_withdrawing {c : Cell} (other : c.family ∉ ["balance/", "reference/"])
    (held : s.asset? asset.id = .ok (some asset)) :
    (makeAll (withdrawing asset creator fee reference) s).session.read c =
      ((s.clear (.assetName asset.name)).clear (.asset asset.id)).read c := by
  have deleted := make_deleteAsset held
  have first : ((Change.deleteAsset asset.id).make s).outcome = .ok () := by
    rw [deleted]
    rfl
  have removed : (makeAll (withdrawing asset creator fee reference) s).session.read c =
      ((Change.deleteAsset asset.id).make s).session.read c :=
    read_makeAll_cons_of_onAccounts first onAccounts_withdrawing other
  rwa [deleted] at removed

/-- The rows of a new asset are gone once it is saved and removed. -/
theorem read_saveAsset_clear {c : Cell} {t : Session}
    (unissued : s.read (.asset asset.id) = .ok none)
    (unnamed : s.read (.assetName asset.name) = .ok none)
    (saved : t.read c = (s.saveAsset asset).read c) :
    ((t.clear (.assetName asset.name)).clear (.asset asset.id)).read c = s.read c := by
  by_cases numbered : c = .asset asset.id
  · subst numbered
    rw [Session.read_clear_self, unissued]
  · by_cases named : c = .assetName asset.name
    · subst named
      rw [Session.read_clear_of_ne numbered, Session.read_clear_self, unnamed]
    · rw [Session.read_clear_of_ne numbered, Session.read_clear_of_ne named, saved]
      exact (Session.read_write_of_ne numbered _ _).trans (Session.read_write_of_ne named s _)

/-- An issue and its withdrawal leave every balance as it was, if its owner had nothing of the
asset and does not pay the fee in it. -/
theorem onBalanceAll_issuing_withdrawing
    (apart : asset.id = nativeAsset → asset.owner ≠ creator)
    (unheld : s.balance asset.owner asset.id = .ok Amount.zero) (account : Address)
    (id : AssetId) :
    onBalanceAll account id (issuing asset balance creator fee signature ++
      withdrawing asset creator fee reference) (s.balance account id) = s.balance account id := by
  by_cases issued : account = asset.owner ∧ id = asset.id
  · obtain ⟨rfl, rfl⟩ := issued
    have free : ¬(asset.owner = creator ∧ asset.id = nativeAsset) := fun both =>
      apart both.2 both.1
    rw [unheld]
    simp [issuing, withdrawing, chargeFee, refundFee, onBalanceAll, onBalance, free]
  · have settled : onBalanceAll account id (chargeFee creator fee signature ++
        refundFee creator fee reference) (s.balance account id) = _ := onBalanceAll_fee _
    simp only [issuing, withdrawing, onBalanceAll, chargeFee, refundFee, List.cons_append,
      List.nil_append, List.foldl_cons, List.foldl_nil] at settled ⊢
    simpa [onBalance, issued] using settled

/-- An issue is taken back, if its asset is a new one and its owner had nothing of it. -/
theorem undoes_issue (known : s.lastReference creator = .ok (some reference))
    (storable : asset.Storable) (apart : asset.id = nativeAsset → asset.owner ≠ creator)
    (unissued : s.read (.asset asset.id) = .ok none)
    (unnamed : s.read (.assetName asset.name) = .ok none)
    (unheld : s.balance asset.owner asset.id = .ok Amount.zero) :
    Undoes s r (issuing asset balance creator fee signature)
      (withdrawing asset creator fee reference) := by
  have saved : ∀ c : Cell, c.family ∉ ["balance/", "reference/", "tx/"] →
      (makeAll (issuing asset balance creator fee signature ++ storeAndRemove r) s).outcome =
        .ok () →
      (makeAll (issuing asset balance creator fee signature ++ storeAndRemove r) s).session.read c =
        (s.saveAsset asset).read c :=
    fun c other made => read_makeAll_cons_storeAndRemove onAccounts_issuing other made
  have held : (makeAll (issuing asset balance creator fee signature ++ storeAndRemove r)
      s).outcome = .ok () →
      (makeAll (issuing asset balance creator fee signature ++ storeAndRemove r)
        s).session.asset? asset.id = .ok (some asset) :=
    fun made => (saved (.asset asset.id) (by simp [Cell.family]) made).trans
      (Session.read_saveAsset_self storable s)
  constructor
  case apart => simp [issuing, withdrawing, chargeFee, refundFee, families]
  case succeeds =>
    intro made
    have charged : Change.adjust creator nativeAsset (-fee) ∈
        issuing asset balance creator fee signature ++ storeAndRemove r := by
      simp [issuing, chargeFee]
    have steady : (Change.adjust creator nativeAsset (-fee)).IsSteady := trivial
    exact makeAll_withdrawing_eq_ok (held made) (makeable_of_mem steady charged made)
  case balances => exact onBalanceAll_issuing_withdrawing apart unheld
  case references =>
    intro account
    have restored : onReferenceAll account (chargeFee creator fee signature ++
        refundFee creator fee reference) (s.lastReference account) = _ :=
      brackets_fee.restores_reference fun same => same ▸ known
    exact restored
  case others =>
    intro c other made
    have onRows : c.family ∉ ["balance/", "reference/"] := fun member =>
      other (List.mem_append_left ["tx/"] member)
    rw [makeAll_append_of_ok made, read_withdrawing onRows (held made)]
    exact read_saveAsset_clear unissued unnamed (saved c other made)

end Issue

/-! ## Records that are taken back -/

/-- The kinds that are taken back without a trace. -/
def Kind.reversible : List Kind :=
  [.payment, .transferAsset, .multiPayment, .at, .voteOnPoll, .issueAsset]

/-- The record is new to the ledger: its signature is neither a reference nor the key of a stored
record, the number that it would issue an asset under is none's and its owner has nothing under it,
and the vote that it would replace is labelled with its poll and its voter. -/
structure Record.IsNew (r : Record) (signature : Signature) (s : Session) : Prop where
  signed : r.signature? = some signature
  unused : ∀ account, s.lastReference account ≠ .ok (some signature)
  unstored : s.holds (.transaction signature) = false
  unheld : ∀ {envelope i id}, r = .standard envelope (.issueAsset i) → s.nextAssetId = .ok id →
    s.holds (.asset id) = false ∧ s.balance i.owner id = .ok Amount.zero
  labelled : ∀ {envelope b vote}, r = .standard envelope (.voteOnPoll b) →
    s.vote? b.poll b.voter = .ok (some vote) → vote.poll = b.poll ∧ vote.voter = b.voter

namespace Action

variable {envelope : Envelope} {action : Action} {plan : Plan}

/-- What processing makes of a record can be undone, and undoing takes back what was done. -/
theorem exists_undoing (new : (Record.standard envelope action).IsNew signature s)
    (kind : action.kind ∈ Kind.reversible) (storable : action.Storable)
    (good : (Record.standard envelope action).verdict params s = .ok .ok)
    (planned : action.processing params s signature envelope = .ok plan) :
    plan.after.signature? = some signature ∧ plan.after.Storable ∧
      ∃ back, plan.after.undoing signature = .ok back ∧
        Undoes s plan.after plan.changes back.changes := by
  have signed : envelope.signature = some signature := new.signed
  have known := Record.lastReference_of_verdict good
  cases action with
  | payment | transferAsset | multiPayment =>
    cases planned
    exact ⟨signed, storable, _, rfl, brackets_payment.undoes known new.unused⟩
  | settleAt =>
    cases planned
    exact ⟨signed, storable, _, rfl, brackets_settlement.undoes known new.unused⟩
  | voteOnPoll b =>
    rcases processing_voteOnPoll_eq_ok_iff.mp planned with ⟨vote, voted, rfl⟩
    have labelled : ∀ v, vote = some v → v.poll = b.poll ∧ v.voter = b.voter := by
      rintro v rfl
      exact new.labelled rfl voted
    exact ⟨signed, storable, _, rfl,
      brackets_fee.undoes_vote (b := { b with previous := vote.map Vote.option }) known rfl voted
        labelled storable⟩
  | issueAsset i =>
    rcases processing_issueAsset_eq_ok_iff.mp planned with ⟨id, numbered, rfl⟩
    obtain ⟨unissued, unheld⟩ := new.unheld rfl numbered
    have issues := AssetIssue.isGood_of_rules (Record.rules_of_verdict good)
    -- Were coins issued, the owner without coins could not be the one who pays the fee.
    have apart : id = nativeAsset → i.owner ≠ (Action.issueAsset i).creator := by
      rintro rfl pays
      have positive := issues.fee.positive
      have covered := issues.fee.covered
      rw [← pays, Session.units_of_balance unheld, Amount.toInt_zero] at covered
      omega
    have undoes : Undoes s (.standard envelope (.issueAsset { i with assetId := some id }))
        (issuing (i.toAsset id signature) (Amount.ofCoins i.quantity)
          (Action.issueAsset i).creator envelope.fee signature)
        (withdrawing (i.toAsset id signature) (Action.issueAsset i).creator envelope.fee
          envelope.reference) :=
      undoes_issue known storable apart (Session.read_of_not_holds unissued)
        (Session.read_of_not_holds issues.unnamed) unheld
    exact ⟨signed, storable, _, rfl, undoes⟩
  | createPoll | deployAt => simp [Action.kind, Kind.reversible] at kind

end Action

/-- A record that is stored last is found under its signature. -/
theorem transaction?_saved (signed : r.signature? = some signature) (storable : r.Storable)
    (made : (makeAll (changes ++ [.saveTransaction r]) s).outcome = .ok ()) :
    (makeAll (changes ++ [.saveTransaction r]) s).session.transaction? signature =
      .ok (some r) := by
  have first := (makeAll_append_eq_ok_iff.mp made).1
  rw [makeAll_append_of_ok first]
  simp only [makeAll, make_saveTransaction signed, Written.done]
  exact Session.read_write_self (c := .transaction signature) Record.form_readsBack _ storable

/-- Removing the record that was stored last goes on with what was done to store it. -/
theorem makeAll_saved_removed
    (made : (makeAll (changes ++ [.saveTransaction r]) s).outcome = .ok ())
    (undoing : List Change) :
    makeAll (.deleteTransaction r :: undoing)
      (makeAll (changes ++ [.saveTransaction r]) s).session =
      makeAll (changes ++ storeAndRemove r ++ undoing) s := by
  rw [← makeAll_append_of_ok made]
  simp [storeAndRemove]

theorem makeAll_storeAndRemove (signed : r.signature? = some signature)
    (made : (makeAll (changes ++ [.saveTransaction r]) s).outcome = .ok ()) :
    (makeAll (changes ++ storeAndRemove r) s).outcome = .ok () := by
  have together := makeAll_saved_removed made []
  rw [List.append_nil] at together
  rw [← together]
  refine makeAll_cons_eq_ok_iff.mpr ⟨make_eq_ok_iff.mpr ?_, rfl⟩
  rw [Makeable, Record.isSigned, signed]
  rfl

/-- **Orphaning is the inverse of processing**, for payments, settlements, votes and issues of
assets that are found good and are new to the ledger. In a sound ledger processing succeeds. Where
it does, the record is found under its signature as processing left it, and both the transaction
and one that is made of the record found can be orphaned, which restores every answer of the
ledger. Only addresses that no rule looks at have to be asked to fit their fields. -/
theorem orphan_process {t : Transaction} (new : r.IsNew signature s)
    (kind : r.kind ∈ Kind.reversible) (fit : r.AddressesFit)
    (judged : (Transaction.received r).validate params s = (.ok .ok, t)) :
    (s.Sound → (t.process params s).outcome = .ok ()) ∧
      ((t.process params s).outcome = .ok () →
        (t.process params s).session.transaction? signature =
            .ok (some (t.process params s).transaction.record) ∧
          ∀ fetched, (t.process params s).session.transaction? signature = .ok (some fetched) →
            ∀ again ∈ [(t.process params s).transaction, Transaction.processed fetched],
              (again.orphan (t.process params s).session).outcome = .ok () ∧
                s.Alike (again.orphan (t.process params s).session).session) := by
  rcases Transaction.validate_received_eq_iff.mp judged with ⟨good, rfl⟩
  have storable := Record.storable_of_verdict good fit
  cases r with
  | genesis g => simp [Record.kind, Kind.reversible] at kind
  | standard envelope action =>
    constructor
    · exact Transaction.process_of_good good new.signed
    · intro done
      obtain ⟨plan, whole, made, same⟩ := Transaction.process_valid_eq_ok new.signed done
      rcases Record.processing_standard_eq_ok_iff.mp whole with ⟨actionPlan, planned, rfl⟩
      obtain ⟨signed, storable', back, undone, law⟩ :=
        Action.exists_undoing new kind storable good planned
      have found := transaction?_saved signed storable' made
      rw [same]
      refine ⟨found, fun fetched read again member => ?_⟩
      have itself : fetched = actionPlan.after :=
        Option.some.inj (Except.ok.inj (read.symm.trans found))
      have known : again = Transaction.processed actionPlan.after := by
        simpa [itself, Transaction.processed] using member
      have stored := makeAll_storeAndRemove signed made
      have whole := makeAll_append_eq_ok_iff.mpr ⟨stored, law.succeeds stored⟩
      have together := makeAll_saved_removed made back.changes
      rw [← together] at whole
      rw [known, Transaction.orphan_processed signed undone whole]
      refine ⟨rfl, ?_⟩
      rw [together]
      exact law.alike signed new.unstored stored

/-- A ledger in which one account has coins and a reference. -/
def fundedLedger : Session :=
  (OrderedMap.empty.session.setBalance "QVbN9WGbczLY4rPWUxzEmipQjgr2m9dQmt" nativeAsset
    ⟨1000000000⟩).setLastReference "QVbN9WGbczLY4rPWUxzEmipQjgr2m9dQmt" (some (.fill 5))

/-- A multi-payment of that account to another one, to itself, and to the other one again. -/
def roundPayment : Record :=
  .standard ⟨0, .fill 5, ⟨100⟩, some (.fill 170)⟩
    (.multiPayment ⟨.fill 6,
      [⟨"QjSSfvVj4hqM5PwYwjZn7UL4mZKzUCtoeR", nativeAsset, ⟨300⟩⟩,
        ⟨"QVbN9WGbczLY4rPWUxzEmipQjgr2m9dQmt", nativeAsset, ⟨200⟩⟩,
        ⟨"QjSSfvVj4hqM5PwYwjZn7UL4mZKzUCtoeR", nativeAsset, ⟨100⟩⟩]⟩)

theorem roundPayment_isNew : roundPayment.IsNew (.fill 170) fundedLedger where
  signed := rfl
  unused := by
    intro account
    rw [fundedLedger, Session.lastReference_setLastReference]
    split
    next => decide
    next =>
      have apart : Cell.reference account ≠
          .balance "QVbN9WGbczLY4rPWUxzEmipQjgr2m9dQmt" nativeAsset := by simp
      have nothing := Session.read_write_of_ne apart OrderedMap.empty.session ⟨1000000000⟩
      rw [Session.lastReference, Session.setBalance, nothing]
      exact fun held => by cases held
  unstored := rfl
  unheld same := by cases same
  labelled same := by cases same

theorem orphan_process_roundPayment :
    roundPayment.IsNew (.fill 170) fundedLedger ∧ roundPayment.kind ∈ Kind.reversible ∧
      roundPayment.AddressesFit ∧
      (Transaction.received roundPayment).validate .allReleased fundedLedger =
        (.ok .ok, ⟨roundPayment, .valid⟩) ∧
      let done := (Transaction.mk roundPayment .valid).process .allReleased fundedLedger
      done.outcome = .ok () ∧
        done.session.transaction? (.fill 170) = .ok (some done.transaction.record) ∧
        (done.transaction.orphan done.session).outcome = .ok () ∧
        fundedLedger.Alike (done.transaction.orphan done.session).session := by
  have kind : roundPayment.kind ∈ Kind.reversible := by decide
  have fit : roundPayment.AddressesFit := trivial
  have sender : Address.ofPublicKey (.fill 6 : PublicKey).bytes =
      "QVbN9WGbczLY4rPWUxzEmipQjgr2m9dQmt" := Address.Sample.ofPublicKey_key
  have valid : Address.isValid "QVbN9WGbczLY4rPWUxzEmipQjgr2m9dQmt" = true :=
    Address.Sample.isValid_account
  have valid' : Address.isValid "QjSSfvVj4hqM5PwYwjZn7UL4mZKzUCtoeR" = true :=
    Address.Sample.isValid_other
  have good : roundPayment.verdict .allReleased fundedLedger = .ok .ok := by
    simp only [Record.verdict, roundPayment, Record.rules, Action.rules, MultiPayment.rules,
      paymentRules, legRules, Leg.rules, Rule.validAddress, Action.creator, sender, valid, valid']
    decide +kernel
  have judged : (Transaction.received roundPayment).validate .allReleased fundedLedger =
      (.ok .ok, ⟨roundPayment, .valid⟩) :=
    Transaction.validate_received_eq_iff.mpr ⟨good, rfl⟩
  have planned : roundPayment.processing .allReleased fundedLedger (.fill 170) = .ok _ := rfl
  have done : ((Transaction.mk roundPayment .valid).process .allReleased fundedLedger).outcome =
      .ok () := by
    rw [Transaction.process_valid rfl planned, Transaction.carryOut_eq_ok_iff]
    simp only [Action.creator, sender, Plan.same]
    decide +kernel
  obtain ⟨found, restored⟩ :=
    (orphan_process roundPayment_isNew kind fit judged).2 done
  obtain ⟨orphaned, alike⟩ := restored _ found _ List.mem_cons_self
  exact ⟨roundPayment_isNew, kind, fit, judged, done, found, orphaned, alike⟩

end ChainLedger

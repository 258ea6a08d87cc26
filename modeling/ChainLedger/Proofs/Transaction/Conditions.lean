import ChainLedger.Proofs.Ledger.Supply
import ChainLedger.Proofs.Transaction.Verdict
import ChainLedger.Proofs.Wire.Writable

/-!
# What good transactions come with

The rules that hold for a good record, as facts about the record and the ledger: texts
within their limits, amounts that are not negative, and accounts that have what the
transaction takes from them.
-/

namespace ChainLedger

open Rule

variable {s : Session}

/-! ## The conditions of rules -/

namespace Rule

theorem plain_holds_iff {condition : Bool} {verdict : Verdict} :
    (plain condition verdict).holds = .ok true ↔ condition = true := by
  simp [plain]

theorem length_holds_iff {text : String} {max : Nat} {verdict : Verdict} :
    (length text max verdict).holds = .ok true ↔ 1 ≤ Text.size text ∧ Text.size text ≤ max := by
  simp [length, plain]

theorem positiveFee_holds_iff {fee : Amount} :
    (positiveFee fee).holds = .ok true ↔ 0 < fee.toInt := by
  rw [positiveFee, plain_holds_iff, Amount.isPositive_iff]

/-- An account that passes for having units has them. -/
theorem le_units_of_holds {account : Address} {asset : AssetId} {units : Int}
    (holds : (balance s account asset units).holds = .ok true) : units ≤ s.units account asset := by
  rcases Except.map_eq_ok_iff.mp holds with ⟨amount, held, enough⟩
  rw [Session.units_of_balance held]
  exact of_decide_eq_true enough

/-- What is found in a cell is there. -/
theorem holds_of_found {c : Cell} (found : (s.read c).map Option.isSome = .ok true) :
    s.holds c = true := by
  rcases Except.map_eq_ok_iff.mp found with ⟨value, known, there⟩
  cases held : s.holds c with
  | true => rfl
  | false =>
    rw [Session.read_of_not_holds held] at known
    cases known
    cases there

/-- An asset that passes for being there has a row. -/
theorem holds_of_assetExists {id : AssetId} (found : s.assetExists id = .ok true) :
    s.holds (.asset id) = true :=
  holds_of_found found

/-- An amount of an asset that may be paid is one of coins or of an asset that is there. -/
theorem issued_of_assetAmount {id : AssetId} {amount : Amount}
    (rules : ∀ rule ∈ assetAmount s id amount, rule.holds = .ok true) :
    id = nativeAsset ∨ s.holds (.asset id) = true := by
  unfold assetAmount at rules
  split at rules
  next coins => exact .inl coins
  next => exact .inr (holds_of_assetExists (rules _ List.mem_cons_self))

end Rule

/-! ## Payments -/

/-- What a good payment of legs and a fee comes with. -/
structure IsPayable (s : Session) (sender : Address) (legs : List Leg) (fee : Amount) : Prop where
  positive : 0 < fee.toInt
  amounts : ∀ leg ∈ legs, 0 < leg.amount.toInt
  recipients : ∀ leg ∈ legs, Address.isValid leg.recipient = true
  issued : ∀ leg ∈ legs, leg.assetId = nativeAsset ∨ s.holds (.asset leg.assetId) = true
  covered : ∀ asset ∈ nativeAsset :: legs.map Leg.assetId,
    totalOf asset legs fee ≤ s.units sender asset

theorem rules_of_legRules {fee : Amount} {before legs : List Leg}
    (rules : ∀ rule ∈ legRules s fee before legs, rule.holds = .ok true) {leg : Leg}
    (member : leg ∈ legs) : ∃ earlier, ∀ rule ∈ leg.rules s fee earlier, rule.holds = .ok true := by
  induction legs generalizing before with
  | nil => cases member
  | cons first rest ih =>
    rcases List.forall_mem_append.mp rules with ⟨here, later⟩
    rcases List.mem_cons.mp member with rfl | there
    · exact ⟨before, here⟩
    · exact ih later there

theorem mem_assetsOf {legs : List Leg} {asset : AssetId} :
    asset ∈ assetsOf legs ↔ asset ∈ nativeAsset :: legs.map Leg.assetId := by
  rw [assetsOf, List.mem_mergeSort, List.mem_eraseDups]

theorem isPayable_of_rules {sender : Address} {legs : List Leg} {fee : Amount}
    (rules : ∀ rule ∈ paymentRules s sender legs fee, rule.holds = .ok true) :
    IsPayable s sender legs fee := by
  rcases List.forall_mem_append.mp rules with ⟨front, balances⟩
  rcases List.forall_mem_cons.mp front with ⟨feeRule, legs⟩
  constructor
  case positive => exact positiveFee_holds_iff.mp feeRule
  case amounts =>
    intro leg member
    obtain ⟨earlier, each⟩ := rules_of_legRules legs member
    exact Amount.isPositive_iff.mp (plain_holds_iff.mp (each _ List.mem_cons_self))
  case recipients =>
    intro leg member
    obtain ⟨earlier, each⟩ := rules_of_legRules legs member
    exact plain_holds_iff.mp (each _ (List.mem_cons_of_mem _ List.mem_cons_self))
  case issued =>
    intro leg member
    obtain ⟨earlier, each⟩ := rules_of_legRules legs member
    rcases List.forall_mem_append.mp each with ⟨most, -⟩
    exact issued_of_assetAmount (List.forall_mem_append.mp most).2
  case covered =>
    intro asset member
    exact le_units_of_holds
      (balances _ (List.mem_map.mpr ⟨asset, mem_assetsOf.mpr member, rfl⟩))

/-! ## The other kinds -/

section Kinds

variable {params : ChainParams} {envelope : Envelope}

/-- The account has a fee, which is not zero. -/
structure HasFee (s : Session) (account : Address) (fee : Amount) : Prop where
  positive : 0 < fee.toInt
  covered : fee.toInt ≤ s.units account nativeAsset

/-- What a good creation of a poll comes with. -/
structure PollCreation.IsGood (s : Session) (fee : Amount) (creator : Address)
    (c : PollCreation) : Prop where
  fee : HasFee s creator fee
  owner : Address.isValid c.owner = true
  name : Text.size c.name ≤ Limits.pollName
  description : Text.size c.description ≤ Limits.pollDescription
  count : c.options.length ≤ Limits.pollOptions
  options : ∀ option ∈ c.options, Text.size option ≤ Limits.pollName

theorem PollCreation.size_of_optionRules {before options : List String}
    (rules : ∀ rule ∈ optionRules before options, rule.holds = .ok true) :
    ∀ option ∈ options, Text.size option ≤ Limits.pollName := by
  induction options generalizing before with
  | nil => simp
  | cons option rest ih =>
    rcases List.forall_mem_append.mp rules with ⟨here, later⟩
    have first := length_holds_iff.mp (here _ List.mem_cons_self)
    exact List.forall_mem_cons.mpr ⟨first.2, ih later⟩

theorem PollCreation.isGood_of_rules {c : PollCreation} {creator : Address}
    (rules : ∀ rule ∈ c.rules params s envelope creator, rule.holds = .ok true) :
    c.IsGood s envelope.fee creator := by
  rcases List.forall_mem_append.mp rules with ⟨front, fees⟩
  rcases List.forall_mem_append.mp front with ⟨texts, options⟩
  simp only [List.forall_mem_cons] at texts fees
  obtain ⟨-, owner, name, description, -, -, count, -⟩ := texts
  obtain ⟨positive, covered, -⟩ := fees
  constructor
  case fee => exact ⟨positiveFee_holds_iff.mp positive, le_units_of_holds covered⟩
  case owner => exact plain_holds_iff.mp owner
  case name => exact (length_holds_iff.mp name).2
  case description => exact (length_holds_iff.mp description).2
  case count =>
    have range := plain_holds_iff.mp count
    rw [Bool.and_eq_true] at range
    exact of_decide_eq_true range.2
  case options => exact size_of_optionRules options

/-- A good poll has an option. -/
theorem PollCreation.options_ne_nil_of_rules {c : PollCreation} {creator : Address}
    (rules : ∀ rule ∈ c.rules params s envelope creator, rule.holds = .ok true) :
    c.options ≠ [] := by
  rcases List.forall_mem_append.mp rules with ⟨front, -⟩
  rcases List.forall_mem_append.mp front with ⟨texts, -⟩
  simp only [List.forall_mem_cons] at texts
  obtain ⟨-, -, -, -, -, -, count, -⟩ := texts
  rintro empty
  rw [empty] at count
  cases plain_holds_iff.mp count

/-- A good creation of a poll is one of a poll that is not there. -/
theorem PollCreation.poll?_of_rules {c : PollCreation} {creator : Address}
    (rules : ∀ rule ∈ c.rules params s envelope creator, rule.holds = .ok true) :
    s.poll? c.name = .ok none := by
  rcases List.forall_mem_append.mp rules with ⟨front, -⟩
  rcases List.forall_mem_append.mp front with ⟨texts, -⟩
  simp only [List.forall_mem_cons] at texts
  obtain ⟨-, -, -, -, -, unpublished, -⟩ := texts
  rcases Except.map_eq_ok_iff.mp unpublished with ⟨there, found, absent⟩
  rcases Except.map_eq_ok_iff.mp found with ⟨poll, known, rfl⟩
  cases poll with
  | none => exact known
  | some poll => cases absent

/-- A good multi-payment has no more legs than it may. -/
theorem MultiPayment.count_of_rules {m : MultiPayment} {sender : Address}
    (rules : ∀ rule ∈ m.rules params s envelope sender, rule.holds = .ok true) :
    m.legs.length ≤ Limits.payments := by
  rcases List.forall_mem_append.mp rules with ⟨front, -⟩
  rcases List.forall_mem_append.mp front with ⟨first, -⟩
  simp only [List.forall_mem_cons] at first
  obtain ⟨-, count, -⟩ := first
  have range := plain_holds_iff.mp count
  rw [Bool.and_eq_true] at range
  exact of_decide_eq_true range.2

/-- What a good vote comes with. -/
structure Ballot.IsGood (s : Session) (fee : Amount) (voter : Address) (b : Ballot) : Prop where
  fee : HasFee s voter fee
  poll : Text.size b.poll ≤ Limits.pollName
  /-- It is known how the voter voted last. -/
  vote : ∃ vote, s.vote? b.poll b.voter = .ok vote

theorem Ballot.isGood_of_rules {b : Ballot} {voter : Address}
    (rules : ∀ rule ∈ b.rules params s envelope voter, rule.holds = .ok true) :
    b.IsGood s envelope.fee voter := by
  simp only [Ballot.rules, List.forall_mem_cons] at rules
  obtain ⟨-, poll, -, -, -, vote, positive, covered, -⟩ := rules
  constructor
  case fee => exact ⟨positiveFee_holds_iff.mp positive, le_units_of_holds covered⟩
  case poll => exact (length_holds_iff.mp poll).2
  case vote =>
    rcases Except.map_eq_ok_iff.mp vote with ⟨last, known, -⟩
    exact ⟨last, known⟩

/-- A good vote is one in a poll that is there. -/
theorem Ballot.polled_of_rules {b : Ballot} {voter : Address}
    (rules : ∀ rule ∈ b.rules params s envelope voter, rule.holds = .ok true) :
    s.holds (.poll b.poll) = true := by
  simp only [Ballot.rules, List.forall_mem_cons] at rules
  obtain ⟨-, -, -, polled, -⟩ := rules
  exact holds_of_found polled

/-- It is for an option of that poll. -/
theorem Ballot.exists_poll_of_rules {b : Ballot} {voter : Address}
    (rules : ∀ rule ∈ b.rules params s envelope voter, rule.holds = .ok true) :
    ∃ poll, s.poll? b.poll = .ok (some poll) ∧ b.isIn poll = true := by
  simp only [Ballot.rules, List.forall_mem_cons] at rules
  obtain ⟨-, -, -, -, offered, -⟩ := rules
  rcases Except.map_eq_ok_iff.mp offered with ⟨poll, known, inside⟩
  cases poll with
  | none => cases inside
  | some poll => exact ⟨poll, known, inside⟩

/-- What a good issue of an asset comes with. -/
structure AssetIssue.IsGood (s : Session) (fee : Amount) (issuer : Address)
    (i : AssetIssue) : Prop where
  fee : HasFee s issuer fee
  owner : Address.isValid i.owner = true
  name : Text.size i.name ≤ Limits.assetName
  description : Text.size i.description ≤ Limits.assetDescription
  quantity : 1 ≤ i.quantity.toInt ∧ i.quantity.toInt ≤ Limits.assetQuantity.toInt
  unnamed : s.holds (.assetName i.name) = false

theorem AssetIssue.isGood_of_rules {i : AssetIssue} {issuer : Address}
    (rules : ∀ rule ∈ i.rules params s envelope issuer, rule.holds = .ok true) :
    i.IsGood s envelope.fee issuer := by
  simp only [AssetIssue.rules, List.forall_mem_cons] at rules
  obtain ⟨-, owner, name, description, quantity, positive, covered, unnamed, -⟩ := rules
  constructor
  case fee => exact ⟨positiveFee_holds_iff.mp positive, le_units_of_holds covered⟩
  case owner => exact plain_holds_iff.mp owner
  case name => exact (length_holds_iff.mp name).2
  case description => exact (length_holds_iff.mp description).2
  case quantity =>
    have range := plain_holds_iff.mp quantity
    simp only [Bool.and_eq_true, decide_eq_true_eq, Int64.le_iff_toInt_le] at range
    exact range
  case unnamed => simpa [Rule.plain, Session.assetNameExists] using unnamed

/-- What a good deployment comes with. -/
structure AtDeployment.IsGood (s : Session) (fee : Amount) (creator : Address)
    (d : AtDeployment) : Prop where
  name : Text.size d.name ≤ Limits.atName
  description : Text.size d.description ≤ Limits.atDescription
  atType : Text.size d.atType ≤ Limits.atType
  tags : Text.size d.tags ≤ Limits.atTags
  creationBytes : d.creationBytes.length ≤ Limits.atCreationBytes
  version : d.codeVersion?.isSome = true
  amount : 0 < d.amount.toInt
  positive : 0 < fee.toInt
  covered : fee.toInt + d.amount.toInt ≤ s.units creator nativeAsset

theorem AtDeployment.isGood_of_rules {d : AtDeployment} {creator : Address}
    (rules : ∀ rule ∈ d.rules params s envelope creator, rule.holds = .ok true) :
    d.IsGood s envelope.fee creator := by
  simp only [AtDeployment.rules, List.forall_mem_cons] at rules
  obtain ⟨-, name, description, atType, tags, creation, amount, fee, -, covered, -⟩ := rules
  have bytes := plain_holds_iff.mp creation
  rw [Bool.and_eq_true] at bytes
  constructor
  case name => exact (length_holds_iff.mp name).2
  case description => exact (length_holds_iff.mp description).2
  case atType => exact (length_holds_iff.mp atType).2
  case tags => exact (length_holds_iff.mp tags).2
  case creationBytes => exact of_decide_eq_true bytes.1
  case version => exact bytes.2
  case amount => exact Amount.isPositive_iff.mp (plain_holds_iff.mp amount)
  case positive => exact positiveFee_holds_iff.mp fee
  case covered => exact le_units_of_holds covered

/-- The fields of a good deployment can be written. -/
theorem AtDeployment.IsGood.writes {d : AtDeployment} {creator : Address} {fee : Amount}
    (good : d.IsGood s fee creator) : AtDeployment.codec.Writes d := by
  refine .iso (.pair (Codec.writes_fixed _) ?_)
  refine .pair (Codec.writes_text good.name (by decide)) ?_
  refine .pair (Codec.writes_text good.description (by decide)) ?_
  refine .pair (Codec.writes_text good.atType (by decide)) ?_
  refine .pair (Codec.writes_text good.tags (by decide)) ?_
  exact .pair (Codec.writes_sized good.creationBytes (by decide)) (Codec.writes_amount _)

/-- **A good deployment has signing bytes**, from which the address of its AT comes. -/
theorem AtDeployment.IsGood.exists_signingBytes {d : AtDeployment} {creator : Address}
    (good : d.IsGood s envelope.fee creator) (params : ChainParams) :
    ∃ seed, (Record.standard envelope (.deployAt d)).signingBytes params = .ok seed := by
  obtain ⟨fields, wrote⟩ := good.writes
  have encoded : (Action.deployAt d).encode (Layout.atTime params envelope.timestamp)
      noAssetReference = .ok fields := wrote
  obtain ⟨bytes, unsigned⟩ := Record.exists_encodeUnsigned encoded
  refine ⟨bytes, ?_⟩
  simp only [Record.signingBytes, Except.bind_eq_ok_iff, Except.pure_eq_ok_iff]
  exact ⟨bytes, unsigned, rfl⟩

/-- What a good settlement comes with, in particular if it pays anything. -/
structure AtSettlement.IsGood (s : Session) (settlement : AtSettlement) : Prop where
  message : settlement.message.length ≤ Limits.atMessage
  amounts : ∀ payment ∈ settlement.payment, 0 ≤ payment.amount.toInt
  issued : ∀ payment ∈ settlement.payment,
    payment.assetId = nativeAsset ∨ s.holds (.asset payment.assetId) = true
  covered : ∀ payment ∈ settlement.payment,
    payment.amount.toInt ≤ s.units settlement.atAddress payment.assetId

theorem AtSettlement.isGood_of_rules {settlement : AtSettlement}
    (rules : ∀ rule ∈ settlement.rules s, rule.holds = .ok true) : settlement.IsGood s := by
  have each : ∀ payment ∈ settlement.payment,
      ∀ rule ∈ settlement.paymentRules s payment, rule.holds = .ok true := by
    intro payment paid rule member
    apply rules
    refine List.mem_cons_of_mem _ (List.mem_flatMap.mpr ⟨payment, ?_, member⟩)
    rw [Option.mem_toList]
    exact paid
  constructor
  case message =>
    have rule := plain_holds_iff.mp (rules _ List.mem_cons_self)
    exact of_decide_eq_true rule
  case amounts =>
    intro payment paid
    have rule := plain_holds_iff.mp (each payment paid _ List.mem_cons_self)
    simpa [Amount.isNegative_eq_false_iff] using rule
  case issued =>
    intro payment paid
    rcases List.forall_mem_append.mp (each payment paid) with ⟨most, -⟩
    exact issued_of_assetAmount (List.forall_mem_append.mp most).2
  case covered =>
    intro payment paid
    rcases List.forall_mem_append.mp (each payment paid) with ⟨-, last⟩
    exact le_units_of_holds (last _ List.mem_cons_self)

/-- A payment of coins may be made by a sender that has them and the fee. -/
theorem paymentRules_hold {sender recipient : Address} {amount fee held : Amount}
    (valid : Address.isValid recipient = true) (positive : 0 < fee.toInt)
    (positive' : 0 < amount.toInt) (funded : s.balance sender nativeAsset = .ok held)
    (enough : fee.toInt + amount.toInt ≤ held.toInt) :
    ∀ rule ∈ paymentRules s sender [⟨recipient, nativeAsset, amount⟩] fee,
      rule.holds = .ok true := by
  have total : totalOf nativeAsset [⟨recipient, nativeAsset, amount⟩] fee =
      fee.toInt + amount.toInt := by
    simp [totalOf]
  have fits : (Amount.ofInt? (fee.toInt + amount.toInt)).isSome = true :=
    Amount.isSome_ofInt? (by omega) (enough.trans held.toInt_le_largest)
  refine List.forall_mem_append.mpr ⟨List.forall_mem_cons.mpr ⟨?_, ?_⟩, ?_⟩
  · exact positiveFee_holds_iff.mpr positive
  · intro rule member
    simp only [legRules, Leg.rules, assetAmount, if_pos, List.append_nil, List.mem_append,
      List.mem_cons, List.not_mem_nil, or_false] at member
    rcases member with (rfl | rfl) | rfl
    · exact plain_holds_iff.mpr (Amount.isPositive_iff.mpr positive')
    · exact plain_holds_iff.mpr valid
    · exact plain_holds_iff.mpr (total ▸ fits)
  · intro rule member
    rcases List.mem_map.mp member with ⟨asset, among, rfl⟩
    have coins : asset = nativeAsset := by simpa using mem_assetsOf.mp among
    rw [coins, balance, funded, total]
    simp [Except.map, enough]

/-- A payment of coins is found good where its sender has them and the fee. -/
theorem Payment.verdict_eq_ok {p : Payment} {held : Amount}
    (reference : s.lastReference (Action.payment p).creator = .ok (some envelope.reference))
    (valid : Address.isValid p.recipient = true) (fee : 0 < envelope.fee.toInt)
    (amount : 0 < p.amount.toInt)
    (funded : s.balance (Action.payment p).creator nativeAsset = .ok held)
    (enough : envelope.fee.toInt + p.amount.toInt ≤ held.toInt) :
    (Record.standard envelope (.payment p)).verdict params s = .ok .ok := by
  refine Record.verdict_eq_ok_iff.mpr (List.forall_mem_cons.mpr ⟨?_, ?_⟩)
  · rw [Rule.reference, reference]
    simp [Except.map]
  · exact paymentRules_hold valid fee amount funded enough

/-- An issue of an asset under a new name is found good where its issuer has the fee. -/
theorem AssetIssue.verdict_eq_ok {i : AssetIssue} {held : Amount}
    (reference : s.lastReference (Action.issueAsset i).creator = .ok (some envelope.reference))
    (released : params.isAssetsReleased envelope.timestamp = true)
    (owner : Address.isValid i.owner = true)
    (name : 1 ≤ Text.size i.name ∧ Text.size i.name ≤ Limits.assetName)
    (description : 1 ≤ Text.size i.description ∧
      Text.size i.description ≤ Limits.assetDescription)
    (quantity : 1 ≤ i.quantity ∧ i.quantity ≤ Limits.assetQuantity)
    (fee : 0 < envelope.fee.toInt)
    (funded : s.balance (Action.issueAsset i).creator nativeAsset = .ok held)
    (enough : envelope.fee.toInt ≤ held.toInt) (unnamed : s.holds (.assetName i.name) = false) :
    (Record.standard envelope (.issueAsset i)).verdict params s = .ok .ok := by
  refine Record.verdict_eq_ok_iff.mpr (List.forall_mem_cons.mpr ⟨?_, ?_⟩)
  · rw [Rule.reference, reference]
    simp [Except.map]
  simp only [Action.rules, AssetIssue.rules, List.forall_mem_cons]
  refine ⟨plain_holds_iff.mpr released, plain_holds_iff.mpr owner, length_holds_iff.mpr name,
    length_holds_iff.mpr description, plain_holds_iff.mpr ?_, positiveFee_holds_iff.mpr fee, ?_,
    plain_holds_iff.mpr ?_, by simp⟩
  · simpa using quantity
  · rw [balance, funded]
    simp [Except.map, enough]
  · rw [Session.assetNameExists, unnamed]
    rfl

/-- A text is neither empty nor longer than a limit. -/
def FitsLimit (text : String) (max : Nat) : Prop := 1 ≤ Text.size text ∧ Text.size text ≤ max

instance (text : String) (max : Nat) : Decidable (FitsLimit text max) :=
  inferInstanceAs (Decidable (_ ∧ _))

/-- A deployment is found good where its creator has the fee and the amount. -/
theorem AtDeployment.verdict_eq_ok {d : AtDeployment} {held : Amount}
    (reference : s.lastReference (Action.deployAt d).creator = .ok (some envelope.reference))
    (released : params.isAtReleased envelope.timestamp = true)
    (name : FitsLimit d.name Limits.atName)
    (description : FitsLimit d.description Limits.atDescription)
    (atType : FitsLimit d.atType Limits.atType) (tags : FitsLimit d.tags Limits.atTags)
    (creation : d.creationBytes.length ≤ Limits.atCreationBytes)
    (version : d.codeVersion?.isSome = true) (amount : 0 < d.amount.toInt)
    (fee : 0 < envelope.fee.toInt)
    (funded : s.balance (Action.deployAt d).creator nativeAsset = .ok held)
    (enough : envelope.fee.toInt + d.amount.toInt ≤ held.toInt) :
    (Record.standard envelope (.deployAt d)).verdict params s = .ok .ok := by
  have fits : (envelope.fee.checkedAdd d.amount).isSome = true :=
    Amount.isSome_ofInt? (by omega) (enough.trans held.toInt_le_largest)
  refine Record.verdict_eq_ok_iff.mpr (List.forall_mem_cons.mpr ⟨?_, ?_⟩)
  · rw [Rule.reference, reference]
    simp [Except.map]
  simp only [Action.rules, AtDeployment.rules, List.forall_mem_cons]
  refine ⟨plain_holds_iff.mpr released, length_holds_iff.mpr name,
    length_holds_iff.mpr description, length_holds_iff.mpr atType, length_holds_iff.mpr tags,
    plain_holds_iff.mpr ?_, plain_holds_iff.mpr (Amount.isPositive_iff.mpr amount),
    positiveFee_holds_iff.mpr fee, plain_holds_iff.mpr fits, ?_, by simp⟩
  · rw [Bool.and_eq_true]
    exact ⟨decide_eq_true creation, version⟩
  · rw [balance, funded]
    simp [Except.map, enough]

/-- A creation of a poll that is not there is found good where its creator has the fee. -/
theorem PollCreation.verdict_eq_ok {c : PollCreation} {held : Amount}
    (reference : s.lastReference (Action.createPoll c).creator = .ok (some envelope.reference))
    (released : params.isVotingReleased envelope.timestamp = true)
    (owner : Address.isValid c.owner = true) (name : FitsLimit c.name Limits.pollName)
    (description : FitsLimit c.description Limits.pollDescription)
    (lowerCase : Text.isLowerCase c.name = true) (unpublished : s.holds (.poll c.name) = false)
    (count : (1 ≤ c.options.length && c.options.length ≤ Limits.pollOptions) = true)
    (options : ∀ rule ∈ optionRules [] c.options, rule.holds = .ok true)
    (fee : 0 < envelope.fee.toInt)
    (funded : s.balance (Action.createPoll c).creator nativeAsset = .ok held)
    (enough : envelope.fee.toInt ≤ held.toInt) :
    (Record.standard envelope (.createPoll c)).verdict params s = .ok .ok := by
  have nothing : s.poll? c.name = .ok none := Session.read_of_not_holds unpublished
  refine Record.verdict_eq_ok_iff.mpr (List.forall_mem_cons.mpr ⟨?_, ?_⟩)
  · rw [Rule.reference, reference]
    simp [Except.map]
  simp only [Action.rules, PollCreation.rules, List.forall_mem_append, List.forall_mem_cons]
  refine ⟨⟨⟨plain_holds_iff.mpr released, plain_holds_iff.mpr owner, length_holds_iff.mpr name,
    length_holds_iff.mpr description, plain_holds_iff.mpr lowerCase, ?_,
    plain_holds_iff.mpr count, by simp⟩, options⟩, positiveFee_holds_iff.mpr fee, ?_, by simp⟩
  · rw [Session.pollExists, nothing]
    rfl
  · rw [balance, funded]
    simp [Except.map, enough]

/-- A first vote for an option of a poll is found good where the voter has the fee. -/
theorem Ballot.verdict_eq_ok {b : Ballot} {poll : Poll} {held : Amount}
    (reference : s.lastReference (Action.voteOnPoll b).creator = .ok (some envelope.reference))
    (released : params.isVotingReleased envelope.timestamp = true)
    (name : FitsLimit b.poll Limits.pollName) (lowerCase : Text.isLowerCase b.poll = true)
    (polled : s.poll? b.poll = .ok (some poll)) (inside : b.isIn poll = true)
    (unvoted : s.holds (.vote b.poll b.voter) = false) (fee : 0 < envelope.fee.toInt)
    (funded : s.balance (Action.voteOnPoll b).creator nativeAsset = .ok held)
    (enough : envelope.fee.toInt ≤ held.toInt) :
    (Record.standard envelope (.voteOnPoll b)).verdict params s = .ok .ok := by
  have nothing : s.vote? b.poll b.voter = .ok none := Session.read_of_not_holds unvoted
  refine Record.verdict_eq_ok_iff.mpr (List.forall_mem_cons.mpr ⟨?_, ?_⟩)
  · rw [Rule.reference, reference]
    simp [Except.map]
  simp only [Action.rules, Ballot.rules, List.forall_mem_cons]
  refine ⟨plain_holds_iff.mpr released, length_holds_iff.mpr name, plain_holds_iff.mpr lowerCase,
    ?_, ?_, ?_, positiveFee_holds_iff.mpr fee, ?_, by simp⟩
  · rw [Session.pollExists, polled]
    rfl
  · rw [polled]
    simp [Except.map, inside]
  · rw [nothing]
    rfl
  · rw [balance, funded]
    simp [Except.map, enough]

/-- A settlement that pays coins is found good where its AT has them, whatever its fee. -/
theorem AtSettlement.verdict_eq_ok {settlement : AtSettlement} {amount held : Amount}
    (reference : s.lastReference settlement.atAddress = .ok (some envelope.reference))
    (message : settlement.message.length ≤ Limits.atMessage)
    (paid : settlement.payment = some ⟨nativeAsset, amount⟩) (nonneg : 0 ≤ amount.toInt)
    (valid : Address.isValid settlement.recipient = true)
    (funded : s.balance settlement.atAddress nativeAsset = .ok held)
    (enough : amount.toInt ≤ held.toInt) :
    (Record.standard envelope (.settleAt settlement)).verdict params s = .ok .ok := by
  have moderate : (!amount.isNegative) = true := by
    rw [Amount.isNegative_eq_false_iff.mpr nonneg]
    rfl
  refine Record.verdict_eq_ok_iff.mpr (List.forall_mem_cons.mpr ⟨?_, ?_⟩)
  · exact Except.map_eq_ok_iff.mpr ⟨_, reference, beq_self_eq_true _⟩
  refine List.forall_mem_cons.mpr ⟨plain_holds_iff.mpr (decide_eq_true message), ?_⟩
  rw [paid, Option.toList_some, List.flatMap_singleton]
  refine List.forall_mem_append.mpr ⟨List.forall_mem_cons.mpr ⟨plain_holds_iff.mpr moderate,
    List.forall_mem_singleton.mpr (plain_holds_iff.mpr valid)⟩, ?_⟩
  exact List.forall_mem_singleton.mpr
    (Except.map_eq_ok_iff.mpr ⟨held, funded, decide_eq_true enough⟩)

/-- A good allocation is to a valid address. -/
theorem Genesis.isValid_of_verdict {g : Genesis}
    (good : (Record.genesis g).verdict params s = .ok .ok) :
    Address.isValid g.recipient = true :=
  plain_holds_iff.mp
    (Record.verdict_eq_ok_iff.mp good _ (List.mem_cons_of_mem _ List.mem_cons_self))

/-- A good allocation is not negative. -/
theorem Genesis.nonneg_of_verdict {g : Genesis}
    (good : (Record.genesis g).verdict params s = .ok .ok) : 0 ≤ g.amount.toInt := by
  have rule := plain_holds_iff.mp (Record.verdict_eq_ok_iff.mp good _ List.mem_cons_self)
  simpa [Amount.isNegative_eq_false_iff] using rule

/-- An allocation to a valid address that is not negative is found good. -/
theorem Genesis.verdict_eq_ok {g : Genesis} (nonneg : 0 ≤ g.amount.toInt)
    (valid : Address.isValid g.recipient = true) :
    (Record.genesis g).verdict params s = .ok .ok := by
  refine Record.verdict_eq_ok_iff.mpr (List.forall_mem_cons.mpr ⟨?_, ?_⟩)
  · exact plain_holds_iff.mpr (by rw [Amount.isNegative_eq_false_iff.mpr nonneg]; rfl)
  · exact List.forall_mem_singleton.mpr (plain_holds_iff.mpr valid)

end Kinds

end ChainLedger

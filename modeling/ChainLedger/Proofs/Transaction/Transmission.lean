import ChainLedger.Proofs.Transaction.Conservation
import ChainLedger.Proofs.Wire.Signing

/-!
# Good records can be sent

The limits on fields are kept twice, by the rules that judge a record and by the codecs that write
it. No codec asks for more than the rules do: texts and lists that are found good fit into their
fields, addresses are well formed, and a poll has an option. So every good record has bytes, and
these denote it again, apart from what it has from processing. A settlement that pays nothing is
the exception, since no rule looks at its recipient.
-/

namespace ChainLedger

open Rule

variable {params : ChainParams} {s : Session} {envelope : Envelope} {layout : Layout}
  {reference : Signature}

/-! ## The fields of good actions -/

theorem Payment.writes {p : Payment} (valid : Address.isValid p.recipient = true) :
    Payment.codec.Writes p :=
  .iso (.pair (Codec.writes_fixed _) (.pair (Codec.writes_address valid) (Codec.writes_amount _)))

theorem PollCreation.writes_option {option : String} (fits : Text.size option ≤ Limits.pollName)
    (voterCounts : Bool) : (optionCodec voterCounts).Writes option := by
  have name : (Codec.text "poll option" Limits.pollName).Writes option :=
    Codec.writes_text fits (by decide)
  cases voterCounts with
  | false => exact name
  | true =>
    obtain ⟨bytes, wrote⟩ := Codec.writes_int32 0
    have none : noVoters.Writes () := ⟨bytes, Codec.refine_encode_eq_ok.mpr ⟨0, rfl, wrote⟩⟩
    exact .iso (name.pair none)

theorem PollCreation.IsGood.writes {c : PollCreation} {creator : Address} {fee : Amount}
    (good : c.IsGood s fee creator) (voterCounts : Bool) :
    (PollCreation.codec voterCounts).Writes c := by
  refine .iso (.pair (Codec.writes_fixed _) (.pair (Codec.writes_address good.owner) ?_))
  refine .pair (Codec.writes_text good.name (by decide)) ?_
  refine .pair (Codec.writes_text good.description (by decide)) ?_
  exact Codec.writes_counted (fun option member => writes_option (good.options option member) _)
    good.count (by decide)

theorem Ballot.IsGood.writes {b : Ballot} {voter : Address} {fee : Amount}
    (good : b.IsGood s fee voter) : Ballot.codec.Writes b :=
  .iso (.pair (Codec.writes_fixed _)
    (.pair (Codec.writes_text good.poll (by decide)) (Codec.writes_int32 _)))

theorem AssetIssue.IsGood.writes {i : AssetIssue} {issuer : Address} {fee : Amount}
    (good : i.IsGood s fee issuer) : AssetIssue.codec.Writes i := by
  refine .iso (.pair (Codec.writes_fixed _) (.pair (Codec.writes_address good.owner) ?_))
  refine .pair (Codec.writes_text good.name (by decide)) ?_
  refine .pair (Codec.writes_text good.description (by decide)) ?_
  exact .pair (Codec.writes_int64 _) (Codec.writes_bool _ _)

theorem AssetTransfer.writes {t : AssetTransfer} (valid : Address.isValid t.leg.recipient = true) :
    AssetTransfer.codec.Writes t :=
  .iso (.pair (Codec.writes_fixed _) (Codec.writes_leg valid))

theorem MultiPayment.writes {m : MultiPayment} (count : m.legs.length ≤ Limits.payments)
    (valid : ∀ leg ∈ m.legs, Address.isValid leg.recipient = true) :
    MultiPayment.codec.Writes m :=
  .iso (.pair (Codec.writes_fixed _)
    (Codec.writes_counted (fun leg member => Codec.writes_leg (valid leg member)) count
      (by decide)))

/-! ## Good actions and records -/

namespace Action

/-- What a good action pays goes to valid addresses. -/
theorem recipients_of_rules {action : Action}
    (rules : ∀ rule ∈ action.rules params s envelope, rule.holds = .ok true)
    (other : action.kind ≠ .at) : ∀ leg ∈ action.legs, Address.isValid leg.recipient = true := by
  cases action with
  | payment p => exact (isPayable_of_rules rules).recipients
  | transferAsset t => exact (isPayable_of_rules (List.forall_mem_cons.mp rules).2).recipients
  | multiPayment m => exact (isPayable_of_rules (List.forall_mem_append.mp rules).2).recipients
  | settleAt => exact absurd rfl other
  | createPoll | voteOnPoll | issueAsset | deployAt =>
    intro leg member
    cases member

/-- **The fields of a good action can be written**, in every layout. -/
theorem exists_encode_of_rules {action : Action}
    (rules : ∀ rule ∈ action.rules params s envelope, rule.holds = .ok true)
    (other : action.kind ≠ .at) : ∃ bytes, action.encode layout reference = .ok bytes := by
  have valid := recipients_of_rules rules other
  cases action with
  | payment p => exact Payment.writes (valid _ List.mem_cons_self)
  | createPoll c => exact (PollCreation.isGood_of_rules rules).writes _
  | voteOnPoll b => exact (Ballot.isGood_of_rules rules).writes
  | issueAsset i =>
    have issue := (AssetIssue.isGood_of_rules rules).writes
    rw [encode]
    split
    next => exact issue.pair (Codec.writes_fixed reference)
    next => exact issue
  | transferAsset t => exact AssetTransfer.writes (valid _ List.mem_cons_self)
  | multiPayment m => exact MultiPayment.writes (MultiPayment.count_of_rules rules) valid
  | deployAt d => exact (AtDeployment.isGood_of_rules rules).writes
  | settleAt => exact absurd rfl other

end Action

namespace Record

theorem decode_encode_genesis {g : Genesis} {bytes : Bytes}
    (wrote : encode params (.genesis g) = .ok bytes) :
    decode params bytes = .ok (.genesis g) := by
  obtain ⟨tag, fields, wroteTag, wroteFields, rfl⟩ := encode_genesis_eq_ok.mp wrote
  have found := Genesis.codec_lawful.readsBack [] trivial wroteFields
  rw [List.append_nil] at found
  exact decode_eq_ok.mpr ⟨.genesis, fields, Codec.int32_lawful.readsBack _ trivial wroteTag, rfl,
    (if_pos rfl).trans (decodeGenesis_eq_ok.mpr ⟨g, found, rfl⟩)⟩

/-- A good record has bytes. -/
theorem exists_encode_of_verdict {r : Record} (good : r.verdict params s = .ok .ok)
    (other : r.kind ≠ .at) : ∃ bytes, r.encode params = .ok bytes := by
  cases r with
  | genesis g => exact Genesis.exists_encode (Genesis.isValid_of_verdict good)
  | standard envelope action =>
    obtain ⟨fields, wrote⟩ := Action.exists_encode_of_rules (rules_of_verdict good) other
    obtain ⟨body, wroteBody⟩ := exists_encodeUnsigned wrote
    exact ⟨_, encode_standard_eq_ok.mpr ⟨body, wroteBody, rfl⟩⟩

/-- The bytes of a good record denote it. -/
theorem decode_encode_of_verdict {r : Record} {bytes : Bytes}
    (good : r.verdict params s = .ok .ok) (wrote : r.encode params = .ok bytes) :
    decode params bytes = .ok r.withoutDerived := by
  cases r with
  | genesis g => exact decode_encode_genesis wrote
  | standard envelope action =>
    rw [← encode_withoutDerived] at wrote
    refine decode_encode_standard (Action.transmissible_withoutDerived ?_) wrote
    rintro c rfl
    exact PollCreation.options_ne_nil_of_rules (rules_of_verdict good)

end Record

/-- **What is found good can be sent.** A record that is found good, other than a settlement, has a
byte form, signed or not, and from it everyone reads the record without what it has from
processing. -/
theorem Transaction.transmits_of_validate {t : Transaction}
    (judged : (t.validate params s).1 = .ok .ok) (other : t.record.kind ≠ .at) :
    ∃ bytes, t.record.encode params = .ok bytes ∧
      Record.decode params bytes = .ok t.record.withoutDerived := by
  have good := (good_of_validate (Prod.ext judged rfl)).1
  obtain ⟨bytes, wrote⟩ := Record.exists_encode_of_verdict good other
  exact ⟨bytes, wrote, Record.decode_encode_of_verdict good wrote⟩

/-- The opening issue without its signature, but with the number of an asset. -/
def numberedIssue : Record :=
  .standard ⟨1, openingAllocation.signature?.getD (.fill 0), ⟨100⟩, none⟩
    (.issueAsset ⟨.fill 6, "QjSSfvVj4hqM5PwYwjZn7UL4mZKzUCtoeR", "gold", "a metal", 21, true,
      some 7⟩)

theorem numberedIssue_transmits :
    ((Transaction.received numberedIssue).validate .allReleased openedLedger).1 = .ok .ok ∧
      numberedIssue.kind ≠ .at ∧ ∃ bytes, numberedIssue.encode .allReleased = .ok bytes ∧
        Record.decode .allReleased bytes = .ok numberedIssue.withoutDerived := by
  obtain ⟨reference, funded⟩ := openedLedger.opened
  have unnamed : openedLedger.holds (.assetName "gold") = false :=
    openedLedger.holds_other (by simp [Cell.family])
  have good : numberedIssue.verdict .allReleased openedLedger = .ok .ok :=
    AssetIssue.verdict_eq_ok reference rfl Address.Sample.isValid_other (by decide) (by decide)
      (by decide) (by decide) funded (by decide) unnamed
  have judged := congrArg Prod.fst
    (Transaction.validate_received_eq_iff.mpr ⟨good, rfl⟩)
  exact ⟨judged, by decide, Transaction.transmits_of_validate judged (by decide)⟩

end ChainLedger

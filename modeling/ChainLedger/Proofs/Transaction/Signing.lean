import ChainLedger.Proofs.Wire.Signing
import ChainLedger.Proofs.Wire.Writable
import ChainLedger.Transaction.Signing

/-!
# Signatures after sending

A signature is of bytes that neither the signature itself nor what processing fills in
has a part in. So a record that has just been signed still has its signing bytes, can
be written, is read back from what is written, and its signature is still one of the
signing bytes of what is read. Of the signature scheme only one thing matters: that
what a key pair signs verifies under its public key. The signatures that settlements
derive from their own bytes need nothing.
-/

namespace ChainLedger.Record

variable {params : ChainParams} {keypair : Ed25519.Keypair} {r signed : Record}

/-! ## What is read from a signed record -/

/-- The record has bytes, they denote it but for what processing fills in, and what they denote has
a valid signature. -/
def ArrivesValid (params : ChainParams) (r : Record) : Prop :=
  ∃ bytes, r.encode params = .ok bytes ∧ decode params bytes = .ok r.withoutDerived ∧
    r.withoutDerived.isSignatureValid params = .ok true

theorem messageBytes_eq_ok {message : Bytes} :
    r.messageBytes params = .ok message ↔ r.signingBytes params = .ok message :=
  Except.mapError_eq_ok_iff

/-- Whether a record's signature is valid, told from its signing bytes. -/
theorem isSignatureValid_withSignature {envelope : Envelope} {action : Action} {message : Bytes}
    (signature : Signature)
    (signing : (standard envelope action).signingBytes params = .ok message) :
    ((standard envelope action).withSignature (some signature)).isSignatureValid params =
      .ok (match action.creatorKey? with
        | some key => Ed25519.verify key message signature
        | none => signature == Signature.derive message) :=
  Except.map_eq_ok_iff.mpr ⟨message,
    messageBytes_eq_ok.mpr ((signingBytes_withSignature (some signature) _).trans signing), rfl⟩

theorem isSignatureValid_withoutDerived (r : Record) :
    r.withoutDerived.isSignatureValid params = r.isSignatureValid params := by
  cases r with
  | genesis g => rfl
  | standard envelope action => cases action <;> rfl

/-- A record arrives with a signature that is put on it, if that is one of its signing bytes, and if
a poll has an option. -/
theorem arrivesValid {envelope : Envelope} {action : Action} {message : Bytes}
    {signature : Signature} (votable : ∀ c, action = .createPoll c → c.options ≠ [])
    (signing : (standard envelope action).signingBytes params = .ok message)
    (valid : (match action.creatorKey? with
      | some key => Ed25519.verify key message signature
      | none => signature == Signature.derive message) = true) :
    ((standard envelope action).withSignature (some signature)).ArrivesValid params := by
  have signing' := (signingBytes_withSignature (some signature) _).trans signing
  obtain ⟨bytes, wrote⟩ := (writes_iff_signs _).mpr ⟨message, signing'⟩
  refine ⟨bytes, wrote, ?_, ?_⟩
  · have whole := Action.transmissible_withoutDerived votable
    exact decode_encode_standard whole ((encode_withoutDerived _).trans wrote)
  · rw [isSignatureValid_withoutDerived, isSignatureValid_withSignature signature signing, valid]

/-! ## Signing -/

/-- What signing does: it adds the signature of the signing bytes under the creator's key. -/
theorem exists_of_sign (done : r.sign params keypair = .ok signed) :
    ∃ envelope action message, r = standard envelope action ∧
      action.creatorKey? = some keypair.publicKey ∧ r.signingBytes params = .ok message ∧
      signed = r.withSignature (some (keypair.sign message)) := by
  unfold sign at done
  cases keyed : r.creatorKey? with
  | none => simp [keyed] at done
  | some key =>
    simp only [keyed] at done
    split at done
    · cases done
    · split at done
      · cases done
      next own =>
        rcases Except.map_eq_ok_iff.mp done with ⟨message, signing, rfl⟩
        cases not_not.mp own
        cases r with
        | genesis g => cases keyed
        | standard envelope action =>
          exact ⟨envelope, action, message, rfl, keyed, messageBytes_eq_ok.mp signing, rfl⟩

/-- Deriving a signature gives a settlement the one that its signing bytes make, and is nothing for
other records that have a creator. -/
theorem withDerivedSignature_eq_ok_iff {envelope : Envelope} {action : Action} :
    (standard envelope action).withDerivedSignature params = .ok signed ↔
      (∃ s, action = .settleAt s) ∧
        ∃ message, (standard envelope action).signingBytes params = .ok message ∧
          signed = (standard envelope action).withSignature (some (Signature.derive message)) := by
  cases action with
  | settleAt s =>
    have derived : (standard envelope (.settleAt s)).withDerivedSignature params = .ok signed ↔
        ∃ message, (standard envelope (.settleAt s)).messageBytes params = .ok message ∧
          (standard envelope (.settleAt s)).withSignature (some (Signature.derive message)) =
            signed := Except.map_eq_ok_iff
    simp only [derived, messageBytes_eq_ok, Action.settleAt.injEq, exists_eq', true_and,
      eq_comm (a := signed)]
  | payment | createPoll | voteOnPoll | issueAsset | transferAsset | multiPayment | deployAt =>
    simp [withDerivedSignature]

/-- Deriving a signature again changes nothing. -/
theorem withDerivedSignature_idem (params : ChainParams) (r : Record) :
    (r.withDerivedSignature params >>= withDerivedSignature params) =
      r.withDerivedSignature params := by
  cases derived : r.withDerivedSignature params with
  | error fault => rfl
  | ok signed =>
    cases r with
    | genesis g =>
      cases derived
      rfl
    | standard envelope action =>
      obtain ⟨settles, message, signing, rfl⟩ := withDerivedSignature_eq_ok_iff.mp derived
      exact withDerivedSignature_eq_ok_iff.mpr
        ⟨settles, message, (signingBytes_withSignature _ _).trans signing, rfl⟩

/-! ## Sending what is signed -/

/-- **What is signed still verifies after it is sent.** A record that a key pair signs, and a
settlement that derives its signature, can be written; the bytes denote the record but for what
processing fills in, and the signature that they carry is valid. For this the key pair only needs to
sign the bytes of the record so that its public key verifies them. Deriving a signature again
changes nothing. -/
theorem signed_arrives_valid (params : ChainParams) :
    (∀ (keypair : Ed25519.Keypair) (r signed : Record),
      (∀ envelope c, r = standard envelope (.createPoll c) → c.options ≠ []) →
      (∀ message, r.signingBytes params = .ok message →
        Ed25519.verify keypair.publicKey message (keypair.sign message) = true) →
      r.sign params keypair = .ok signed → signed.ArrivesValid params) ∧
      (∀ r signed : Record, r.kind = .at → r.withDerivedSignature params = .ok signed →
        signed.ArrivesValid params) ∧
      ∀ r : Record, (r.withDerivedSignature params >>= withDerivedSignature params) =
        r.withDerivedSignature params := by
  refine ⟨fun keypair r signed votable verifies done => ?_, fun r signed settles derived => ?_,
    withDerivedSignature_idem params⟩
  · obtain ⟨envelope, action, message, rfl, keyed, signing, rfl⟩ := exists_of_sign done
    refine arrivesValid (fun c poll => votable envelope c (poll ▸ rfl)) signing ?_
    rw [keyed]
    exact verifies message signing
  · cases r with
    | genesis g => cases settles
    | standard envelope action =>
      obtain ⟨⟨s, rfl⟩, message, signing, rfl⟩ := withDerivedSignature_eq_ok_iff.mp derived
      exact arrivesValid (fun c poll => by cases poll) signing (beq_self_eq_true _)

/-! ### A ballot and a settlement -/

namespace Sent

/-- The key pair of a voter. -/
def voter : Ed25519.Keypair := ⟨.fill 7⟩

/-- The voter's public key. -/
def key : PublicKey :=
  ⟨[234, 74, 108, 99, 226, 156, 82, 10, 190, 245, 80, 123, 19, 46, 197, 249, 149, 71, 118, 174, 190,
    190, 123, 146, 66, 30, 234, 105, 20, 70, 210, 44], rfl⟩

theorem publicKey_voter : voter.publicKey = key := by decide +kernel

/-- A changed vote, as it is before it is signed. -/
def ballot (key : PublicKey) : Record :=
  .standard ⟨1500000000000, .fill 5, ⟨100⟩, none⟩ (.voteOnPoll ⟨key, "best", 1, some 0⟩)

/-- Its signing bytes. -/
def ballotBytes (key : PublicKey) : Bytes :=
  [0, 0, 0, 9] ++ ([0, 0, 1, 93, 62, 247, 152, 0] ++ List.replicate 64 5) ++
    (key.bytes ++ ([0, 0, 0, 4, 98, 101, 115, 116] ++ [0, 0, 0, 1])) ++ [0, 0, 0, 0, 0, 0, 0, 100]

theorem signingBytes_ballot (key : PublicKey) :
    (ballot key).signingBytes .mainChain = .ok (ballotBytes key) := by
  have texts : ((Codec.text "poll name" Limits.pollName).pair Codec.int32).encode ("best", 1) =
      .ok ([0, 0, 0, 4, 98, 101, 115, 116] ++ [0, 0, 0, 1]) := rfl
  have fields : Ballot.codec.encode ⟨key, "best", 1, some 0⟩ = .ok _ :=
    Codec.encode_iso (Codec.encode_pair (rfl : Codec.publicKey.encode key = .ok key.bytes) texts)
  have tag : Codec.int32.encode Kind.voteOnPoll.tag = .ok [0, 0, 0, 9] := rfl
  have header : Envelope.codec.encode (1500000000000, .fill 5) =
      .ok ([0, 0, 1, 93, 62, 247, 152, 0] ++ List.replicate 64 5) := rfl
  have fee : Codec.amount.encode ⟨100⟩ = .ok [0, 0, 0, 0, 0, 0, 0, 100] := rfl
  have form : encodeUnsigned .mainChain ⟨1500000000000, .fill 5, ⟨100⟩, none⟩
      (.voteOnPoll ⟨key, "best", 1, some 0⟩) noAssetReference = .ok (ballotBytes key) :=
    encodeUnsigned_eq_ok.mpr ⟨_, _, _, _, tag, header, fields, fee, rfl⟩
  exact Except.bind_eq_ok_iff.mpr ⟨_, form, rfl⟩

theorem verify_ballot :
    Ed25519.verify key (ballotBytes key) (voter.sign (ballotBytes key)) = true := by decide +kernel

/-- A message of an AT to itself, with a signature that is not its own. -/
def settlement : Record :=
  .standard ⟨1500000000000, .fill 5, ⟨100⟩, some (.fill 9)⟩
    (.settleAt ⟨Address.Sample.account, Address.Sample.account, none, [104, 105]⟩)

theorem exists_signingBytes_settlement :
    ∃ message, settlement.signingBytes .mainChain = .ok message := by
  have account := encode_sampleAccount
  have message : ((Codec.optional "AT payment flag" AtSettlement.paymentCodec).pair <|
      Codec.sizedByRest "AT message").encode (none, [104, 105]) = .ok _ := rfl
  have fields : AtSettlement.codec.encode
      ⟨Address.Sample.account, Address.Sample.account, none, [104, 105]⟩ = .ok _ :=
    Codec.encode_iso (Codec.encode_pair account (Codec.encode_pair account message))
  obtain ⟨bytes, form⟩ : ∃ bytes, encodeUnsigned .mainChain
      ⟨1500000000000, .fill 5, ⟨100⟩, some (.fill 9)⟩
      (.settleAt ⟨Address.Sample.account, Address.Sample.account, none, [104, 105]⟩)
      noAssetReference = .ok bytes := exists_encodeUnsigned fields
  exact ⟨bytes, Except.bind_eq_ok_iff.mpr ⟨bytes, form, rfl⟩⟩

end Sent

open Sent in
theorem signed_arrives_valid_ballot :
    (∃ signed, (ballot key).sign .mainChain voter = .ok signed ∧ signed.ArrivesValid .mainChain) ∧
      ∃ signed, settlement.withDerivedSignature .mainChain = .ok signed ∧
        signed.ArrivesValid .mainChain := by
  obtain ⟨arrives, arrives', -⟩ := signed_arrives_valid .mainChain
  constructor
  · have done : (ballot key).sign .mainChain voter =
        .ok ((ballot key).withSignature (some (voter.sign (ballotBytes key)))) := by
      have own : ¬ key ≠ voter.publicKey := not_not.mpr publicKey_voter.symm
      have keyed : (ballot key).creatorKey? = some key := rfl
      have bare : (ballot key).isSigned = false := rfl
      rw [sign, keyed, bare]
      simp only [if_neg own, Bool.false_eq_true, if_false]
      exact Except.map_eq_ok_iff.mpr
        ⟨_, messageBytes_eq_ok.mpr (signingBytes_ballot key), rfl⟩
    refine ⟨_, done, arrives voter (ballot key) _ (by simp [ballot]) ?_ done⟩
    intro message signing
    cases (signingBytes_ballot key).symm.trans signing
    rw [publicKey_voter]
    exact verify_ballot
  · obtain ⟨message, signing⟩ := exists_signingBytes_settlement
    have derived := withDerivedSignature_eq_ok_iff.mpr ⟨⟨_, rfl⟩, message, signing, rfl⟩
    exact ⟨_, derived, arrives' settlement _ rfl derived⟩

end ChainLedger.Record

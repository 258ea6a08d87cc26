import ChainLedger.Proofs.Address
import ChainLedger.Signature

/-!
# One spelling for each name

Accounts and signatures are known by texts, and what a ledger holds of an account is found
by its text. Byte strings and their base-58 texts determine each other, so that nothing
has a second text: an address that can be read is the text of the bytes it is read as, and
these have a known version and the checksum of the rest. A key and a seed never have one
address, since their versions differ.
-/

namespace ChainLedger

theorem Base58.decode_eq_ok_iff {text : String} {bytes : Bytes} :
    decode text = .ok bytes ↔ encode bytes = text :=
  ⟨encode_of_decode, fun wrote => wrote ▸ decode_encode bytes⟩

theorem Signature.ofBase58?_eq_some_iff {text : String} {s : Signature} :
    ofBase58? text = some s ↔ s.toBase58 = text := by
  unfold ofBase58? toBase58
  rw [← Base58.decode_eq_ok_iff]
  cases Base58.decode text with
  | ok bytes => rw [FixedBytes.ofBytes?_eq_some_iff, Except.ok.injEq]
  | error => simp

namespace Address

variable {address other : Address} {raw : RawAddress}

/-- The version is known, and the checksum is that of version and hash. -/
structure IsWellFormed (raw : RawAddress) : Prop where
  version : version raw = ordinaryVersion ∨ version raw = atVersion
  checksum : raw.bytes.drop 21 = checksum (raw.bytes.take 21)

theorem check_eq_ok_iff : check raw = .ok () ↔ IsWellFormed raw := by
  unfold check
  split
  next unknown =>
    simp only [reduceCtorEq, false_iff]
    exact fun wellFormed => wellFormed.version.elim unknown.1 unknown.2
  next known =>
    have version : version raw = ordinaryVersion ∨ version raw = atVersion := by
      rwa [not_and_or, not_not, not_not] at known
    split
    next differs =>
      simp only [reduceCtorEq, false_iff]
      exact fun wellFormed => differs wellFormed.checksum
    next same => simpa using ⟨version, not_not.mp same⟩

theorem ofRaw_eq_ok_iff :
    ofRaw raw = .ok address ↔ IsWellFormed raw ∧ Base58.encode raw.bytes = address := by
  rw [ofRaw, Except.map_eq_ok_iff, ← check_eq_ok_iff]
  constructor
  · intro holds
    obtain ⟨_, written⟩ := holds
    exact written
  · intro written
    exact ⟨(), written⟩

theorem isValid_iff : isValid address = true ↔ ∃ raw, toRaw address = .ok raw := by
  unfold isValid
  cases toRaw address <;> simp

/-- Two texts that name one account are the same text. -/
theorem exists_common_raw_iff :
    (∃ raw, toRaw address = .ok raw ∧ toRaw other = .ok raw) ↔
      isValid address = true ∧ address = other := by
  rw [isValid_iff]
  constructor
  · rintro ⟨raw, read, read'⟩
    have written := ofRaw_of_toRaw read
    rw [ofRaw_of_toRaw read', Except.ok.injEq] at written
    exact ⟨⟨raw, read⟩, written.symm⟩
  · rintro ⟨⟨raw, read⟩, rfl⟩
    exact ⟨raw, read, read⟩

/-- **Accounts and signatures have one text each.** Base 58 is a bijection onto the texts that can
be read in it. The address of well-formed bytes is read as these bytes, and no other text is. Keys
have valid addresses that are none of an AT, seeds valid ones of an AT, and so never the same. A
signature is what its text is read as, and what no other text is read as. -/
theorem one_spelling :
    (∀ text bytes, Base58.decode text = .ok bytes ↔ Base58.encode bytes = text) ∧
    (∀ address raw, toRaw address = .ok raw ↔ ofRaw raw = .ok address) ∧
    (∀ address raw, ofRaw raw = .ok address ↔
      IsWellFormed raw ∧ Base58.encode raw.bytes = address) ∧
    (∀ address other, (∃ raw, toRaw address = .ok raw ∧ toRaw other = .ok raw) ↔
      isValid address = true ∧ address = other) ∧
    (∀ key, isValid (ofPublicKey key) = true ∧ isAt (ofPublicKey key) = false) ∧
    (∀ seed, isValid (ofSeed seed) = true ∧ isAt (ofSeed seed) = true) ∧
    (∀ key seed, ofPublicKey key ≠ ofSeed seed) ∧
    ∀ text (s : Signature), Signature.ofBase58? text = some s ↔ s.toBase58 = text :=
  ⟨fun _ _ => Base58.decode_eq_ok_iff, fun _ _ => toRaw_eq_ok_iff, fun _ _ => ofRaw_eq_ok_iff,
    fun _ _ => exists_common_raw_iff, fun key => ⟨isValid_ofPublicKey key, isAt_ofPublicKey key⟩,
    fun seed => ⟨isValid_ofSeed seed, isAt_ofSeed seed⟩, ofPublicKey_ne_ofSeed,
    fun _ _ => Signature.ofBase58?_eq_some_iff⟩

end Address

end ChainLedger

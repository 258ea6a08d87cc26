import ChainLedger.Proofs.Wire.Record

/-!
# Where values end

Nothing on the wire marks the end of a value. The numbers, keys, addresses and amounts
always take the same number of bytes (`Codec.Occupies`), and texts and lists say their
own length. So two values whose bytes begin the same byte string are one value, and
leave the same rest: whatever is written field by field can be told apart again.
-/

namespace ChainLedger

namespace Codec

variable {α β : Type}

/-! ## Codecs of one size -/

/-- All values are written in the same number of bytes. -/
structure Occupies (codec : Codec α) (size : Nat) : Prop where
  length_eq : ∀ {value bytes}, codec.encode value = .ok bytes → bytes.length = size

theorem Occupies.pair {first : Codec α} {second : Codec β} {size size' : Nat}
    (front : first.Occupies size) (back : second.Occupies size') :
    (first.pair second).Occupies (size + size') where
  length_eq wrote := by
    rcases pair_encode_eq_ok.mp wrote with ⟨_, _, wroteFront, wroteBack, rfl⟩
    rw [List.length_append, front.length_eq wroteFront, back.length_eq wroteBack]

theorem Occupies.refine {codec : Codec α} {size : Nat} {read : α → Except WireError β}
    {write : β → Except WireError α} (inner : codec.Occupies size) :
    (codec.refine read write).Occupies size where
  length_eq wrote := by
    rcases refine_encode_eq_ok.mp wrote with ⟨_, -, wroteInner⟩
    exact inner.length_eq wroteInner

theorem Occupies.iso {codec : Codec α} {size : Nat} {read : α → β} {write : β → α}
    (inner : codec.Occupies size) : (codec.iso read write).Occupies size :=
  inner.refine

theorem occupies_fixed (n : Nat) : (fixed n).Occupies n where
  length_eq wrote := by
    cases wrote
    exact FixedBytes.length_eq _

theorem occupies_word (n : Nat) : (word n).Occupies n := (occupies_fixed n).iso

theorem occupies_int32 : int32.Occupies 4 := (occupies_word 4).iso

theorem occupies_uint64 : uint64.Occupies 8 := (occupies_word 8).iso

theorem occupies_int64 : int64.Occupies 8 := occupies_uint64.iso

theorem occupies_amount : amount.Occupies 8 := occupies_int64.iso

theorem occupies_bool (field : String) : (bool field).Occupies 1 := (occupies_word 1).iso.refine

theorem occupies_address : address.Occupies 25 := (occupies_fixed 25).refine

theorem occupies_assetAmount : assetAmount.Occupies 12 := (occupies_fixed 12).refine

theorem occupies_leg : leg.Occupies 45 :=
  (occupies_address.pair (occupies_uint64.pair occupies_assetAmount)).iso

theorem occupies_length (field : String) (max : Nat) : (length field max).Occupies 4 :=
  occupies_int32.refine

/-! ## Lists -/

theorem encodeList_append_eq_ok {item : Codec α} {as bs : List α} {bytes : Bytes} :
    encodeList item (as ++ bs) = .ok bytes ↔
      ∃ front back, encodeList item as = .ok front ∧ encodeList item bs = .ok back ∧
        bytes = front ++ back := by
  induction as generalizing bytes with
  | nil => simp [encodeList]
  | cons a as ih =>
    simp only [List.cons_append, encodeList_cons_eq_ok, ih]
    constructor
    · rintro ⟨first, _, wroteFirst, ⟨front, back, wroteFront, wroteBack, rfl⟩, rfl⟩
      exact ⟨first ++ front, back, ⟨first, front, wroteFirst, wroteFront, rfl⟩, wroteBack,
        (List.append_assoc ..).symm⟩
    · rintro ⟨_, back, ⟨first, front, wroteFirst, wroteFront, rfl⟩, wroteBack, rfl⟩
      exact ⟨first, front ++ back, wroteFirst, ⟨front, back, wroteFront, wroteBack, rfl⟩,
        List.append_assoc ..⟩

/-! ## Telling values apart -/

/-- **Written values can be told apart**: two values whose bytes begin alike are one value. -/
theorem LawfulOn.separates {codec : Codec α} {domain : α → Prop} {a b : α}
    {front front' rest rest' : Bytes} (law : codec.LawfulOn domain) (inside : domain a)
    (inside' : domain b) (wrote : codec.encode a = .ok front)
    (wrote' : codec.encode b = .ok front') (same : front ++ rest = front' ++ rest') :
    a = b ∧ rest = rest' := by
  have read := law.readsBack rest inside wrote
  rw [same, law.readsBack rest' inside' wrote'] at read
  cases read
  exact ⟨rfl, rfl⟩

theorem LawfulOn.eq_of_encode {codec : Codec α} {domain : α → Prop} {a b : α} {bytes : Bytes}
    (law : codec.LawfulOn domain) (inside : domain a) (inside' : domain b)
    (wrote : codec.encode a = .ok bytes) (wrote' : codec.encode b = .ok bytes) : a = b :=
  (law.separates inside inside' wrote wrote' (rfl : bytes ++ [] = bytes ++ [])).1

end Codec

/-- Polls can be told apart even without options, though none without is read back. -/
theorem PollCreation.separates {voterCounts : Bool} {c c' : PollCreation}
    {front front' rest rest' : Bytes} (wrote : (codec voterCounts).encode c = .ok front)
    (wrote' : (codec voterCounts).encode c' = .ok front')
    (same : front ++ rest = front' ++ rest') : c = c' ∧ rest = rest' := by
  -- The check of the count is one of reading alone, so that these codecs write the same.
  have unchecked := (optionCodec_lawful voterCounts).counted "poll options count"
    Limits.pollOptions fun _ => .ok ()
  have law := Codec.publicKey_lawful.pair <| Codec.address_lawful.pair <|
    (Codec.text_lawful "poll name" Limits.pollName).pair <|
    (Codec.text_lawful "poll description" Limits.pollDescription).pair unchecked
  obtain ⟨fields, rests⟩ := law.separates
    (a := (c.creator, c.owner, c.name, c.description, c.options))
    (b := (c'.creator, c'.owner, c'.name, c'.description, c'.options))
    (by simp) (by simp) wrote wrote' same
  cases c
  cases c'
  cases fields
  exact ⟨rfl, rests⟩

namespace Action

variable {layout : Layout} {reference reference' : Signature}

@[simp] theorem kind_withoutDerived (action : Action) :
    action.withoutDerived.kind = action.kind := by
  cases action <;> rfl

/-- What is only known from processing is not written. -/
@[simp] theorem encode_withoutDerived (action : Action) :
    action.withoutDerived.encode layout reference = action.encode layout reference := by
  cases action <;> rfl

/-- What is written of an action is read back, if a poll has an option. -/
theorem transmissible_withoutDerived {action : Action}
    (votable : ∀ c, action = .createPoll c → c.options ≠ []) :
    action.withoutDerived.Transmissible := by
  cases action with
  | createPoll c => exact votable c rfl
  | voteOnPoll | issueAsset | deployAt => rfl
  | payment | transferAsset | multiPayment | settleAt => trivial

/-- **Actions of one kind and layout can be told apart**, whatever asset references they embed. -/
theorem separates {x y : Action} {front front' rest rest' : Bytes} (alike : x.kind = y.kind)
    (wrote : x.encode layout reference = .ok front)
    (wrote' : y.encode layout reference' = .ok front')
    (same : front ++ rest = front' ++ rest') :
    x.withoutDerived = y.withoutDerived ∧ rest = rest' := by
  by_cases poll : ∃ c c', x = .createPoll c ∧ y = .createPoll c'
  · obtain ⟨c, c', rfl, rfl⟩ := poll
    obtain ⟨rfl, rests⟩ := PollCreation.separates wrote wrote' same
    exact ⟨rfl, rests⟩
  · have whole : x.withoutDerived.Transmissible := by
      refine transmissible_withoutDerived fun c isPoll => ?_
      subst isPoll
      cases y <;> simp_all [kind]
    have whole' : y.withoutDerived.Transmissible := by
      refine transmissible_withoutDerived fun c isPoll => ?_
      subst isPoll
      cases x <;> simp_all [kind]
    rw [← encode_withoutDerived] at wrote wrote'
    obtain ⟨read, found, isX, -⟩ := readsBack rest whole wrote
    obtain ⟨read', found', isY, -⟩ := readsBack rest' whole' wrote'
    rw [kind_withoutDerived] at found found'
    rw [same, alike, found'] at found
    cases found
    exact ⟨isX.symm.trans isY, rfl⟩

end Action

end ChainLedger

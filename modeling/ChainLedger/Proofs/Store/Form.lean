import ChainLedger.Proofs.Outcome
import ChainLedger.Store.Form
import Mathlib.Algebra.Group.Nat.Defs

/-!
# Laws of stored forms

Every value that fits its form is read back from what it is written as, whatever
follows. What may not fit is a length: it is kept in eight bytes, so that texts, byte
strings and lists have to be shorter than 2⁶⁴. Nothing that is held in memory is longer.
-/

namespace ChainLedger.Form

variable {α β : Type}

/-- Values of the domain are read back from their form. -/
def ReadsBackOn (form : Form α) (domain : α → Prop) : Prop :=
  ∀ (value : α) (rest : Bytes), domain value →
    form.read (form.write value ++ rest) = .ok (value, rest)

/-- The form fits all its values. -/
abbrev ReadsBack (form : Form α) : Prop := form.ReadsBackOn fun _ => True

/-- A length that eight bytes hold. -/
def Fits (length : Nat) : Prop := length < 2 ^ 64

instance (length : Nat) : Decidable (Fits length) := inferInstanceAs (Decidable (_ < _))

/-! ## Combining forms -/

theorem ReadsBackOn.pair {first : Form α} {second : Form β} {domain : α → Prop}
    {domain' : β → Prop} (law : first.ReadsBackOn domain) (law' : second.ReadsBackOn domain') :
    (first.pair second).ReadsBackOn fun value => domain value.1 ∧ domain' value.2 := by
  intro value rest inside
  obtain ⟨a, b⟩ := value
  have readFirst := law a (second.write b ++ rest) inside.1
  have readSecond := law' b rest inside.2
  simp only [Form.pair, List.append_assoc]
  refine Except.bind_eq_ok_iff.mpr ⟨_, readFirst, ?_⟩
  exact Except.bind_eq_ok_iff.mpr ⟨_, readSecond, rfl⟩

theorem ReadsBackOn.refine {form : Form α} {domain : α → Prop} {domain' : β → Prop}
    {read : α → Except FormFault β} {write : β → α} (law : form.ReadsBackOn domain)
    (inverse : ∀ b, domain' b → domain (write b) ∧ read (write b) = .ok b) :
    (form.refine read write).ReadsBackOn domain' := by
  intro b rest inside
  obtain ⟨inside', readWritten⟩ := inverse b inside
  have readFront := law (write b) rest inside'
  refine Except.bind_eq_ok_iff.mpr ⟨_, readFront, ?_⟩
  exact Except.bind_eq_ok_iff.mpr ⟨b, readWritten, rfl⟩

theorem ReadsBackOn.iso {form : Form α} {domain : α → Prop} {domain' : β → Prop} {read : α → β}
    {write : β → α} (law : form.ReadsBackOn domain)
    (inverse : ∀ b, domain' b → domain (write b) ∧ read (write b) = b) :
    (form.iso read write).ReadsBackOn domain' := by
  refine law.refine ?_
  intro b inside
  obtain ⟨inside', readWritten⟩ := inverse b inside
  exact ⟨inside', by rw [readWritten]⟩

/-! ## Bytes and words -/

theorem take_append (front rest : Bytes) :
    take front.length (front ++ rest) = .ok (front, rest) := by
  have enough : ¬(front ++ rest).length < front.length := by
    rw [List.length_append]
    omega
  rw [take, if_neg enough, List.take_left, List.drop_left]

theorem fixed_readsBack (n : Nat) : (fixed n).ReadsBack := by
  intro value rest _
  have front : (value.bytes ++ rest).take n = value.bytes := List.take_left' value.length_eq
  have back : (value.bytes ++ rest).drop n = rest := List.drop_left' value.length_eq
  have enough : n ≤ (value.bytes ++ rest).length := by
    rw [List.length_append, value.length_eq]
    omega
  simp only [fixed, enough, ↓reduceDIte, front, back]

theorem word_readsBack (n : Nat) : (word n).ReadsBackOn fun value => value < wordValues n := by
  refine (fixed_readsBack n).iso fun value small => ⟨trivial, ?_⟩
  rw [ofLittleEndian_littleEndian, Nat.mod_eq_of_lt small]

theorem byte_readsBack : byte.ReadsBack :=
  (word_readsBack 1).iso fun value _ => ⟨value.toNat_lt, UInt8.ofNat_toNat⟩

theorem int16_readsBack : int16.ReadsBack := by
  refine (word_readsBack 2).iso fun value _ => ⟨value.toUInt16.toNat_lt, ?_⟩
  rw [UInt16.ofNat_toNat]
  rfl

theorem uint32_readsBack : uint32.ReadsBack :=
  (word_readsBack 4).iso fun value _ => ⟨value.toNat_lt, UInt32.ofNat_toNat⟩

theorem int32_readsBack : int32.ReadsBack :=
  uint32_readsBack.iso fun _ _ => ⟨trivial, rfl⟩

theorem uint64_readsBack : uint64.ReadsBack :=
  (word_readsBack 8).iso fun value _ => ⟨value.toNat_lt, UInt64.ofNat_toNat⟩

theorem int64_readsBack : int64.ReadsBack :=
  uint64_readsBack.iso fun _ _ => ⟨trivial, rfl⟩

theorem amount_readsBack : amount.ReadsBack :=
  int64_readsBack.iso fun _ _ => ⟨trivial, rfl⟩

theorem publicKey_readsBack : publicKey.ReadsBack := fixed_readsBack 32

theorem bool_readsBack : bool.ReadsBack := by
  refine byte_readsBack.refine fun value _ => ⟨trivial, ?_⟩
  cases value <;> rfl

/-! ## Values of varying length -/

theorem ReadsBackOn.option {form : Form α} {domain : α → Prop} (law : form.ReadsBackOn domain) :
    form.option.ReadsBackOn fun value => ∀ a ∈ value, domain a := by
  intro value rest inside
  cases value with
  | none =>
    have flag := byte_readsBack 0 rest trivial
    exact Except.bind_eq_ok_iff.mpr ⟨_, flag, rfl⟩
  | some a =>
    have flag := byte_readsBack 1 (form.write a ++ rest) trivial
    have readValue := law a rest (inside a rfl)
    simp only [Form.option, List.append_assoc]
    refine Except.bind_eq_ok_iff.mpr ⟨_, flag, ?_⟩
    exact Except.bind_eq_ok_iff.mpr ⟨_, readValue, rfl⟩

theorem length_readsBack : length.ReadsBackOn Fits := word_readsBack 8

theorem readMany_flatMap {form : Form α} {domain : α → Prop} (law : form.ReadsBackOn domain)
    (values : List α) (rest : Bytes) (inside : ∀ a ∈ values, domain a) :
    readMany form values.length (values.flatMap form.write ++ rest) = .ok (values, rest) := by
  induction values with
  | nil => rfl
  | cons a as ih =>
    have readFirst := law a (as.flatMap form.write ++ rest) (inside a List.mem_cons_self)
    have readLater := ih fun b member => inside b (List.mem_cons_of_mem _ member)
    rw [List.flatMap_cons, List.append_assoc, List.length_cons]
    refine Except.bind_eq_ok_iff.mpr ⟨_, readFirst, ?_⟩
    exact Except.bind_eq_ok_iff.mpr ⟨_, readLater, rfl⟩

theorem ReadsBackOn.list {form : Form α} {domain : α → Prop} (law : form.ReadsBackOn domain) :
    form.list.ReadsBackOn fun values => Fits values.length ∧ ∀ a ∈ values, domain a := by
  intro values rest inside
  have readLength := length_readsBack values.length (values.flatMap form.write ++ rest) inside.1
  simp only [Form.list, List.append_assoc]
  refine Except.bind_eq_ok_iff.mpr ⟨_, readLength, ?_⟩
  exact readMany_flatMap law values rest inside.2

theorem bytes_readsBack : bytes.ReadsBackOn fun value => Fits value.length := by
  intro value rest inside
  have readLength := length_readsBack value.length (value ++ rest) inside
  simp only [bytes, List.append_assoc]
  exact Except.bind_eq_ok_iff.mpr ⟨_, readLength, take_append value rest⟩

theorem text_readsBack : text.ReadsBackOn fun value => Fits (Text.size value) := by
  refine bytes_readsBack.refine fun value inside => ⟨inside, ?_⟩
  rw [Text.ofBytes?_bytesOf]

theorem signature_readsBack : signature.ReadsBack := by
  refine bytes_readsBack.refine fun value _ => ⟨?_, ?_⟩
  · rw [value.length_eq, Fits]
    omega
  · rw [FixedBytes.ofBytes?_bytes]

end ChainLedger.Form

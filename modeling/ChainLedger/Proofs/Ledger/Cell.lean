import ChainLedger.Ledger.Account
import ChainLedger.Proofs.Store.Row

/-!
# Cells are apart

No two cells share a key, and writing one leaves the others alone. A key tells the
family of its cell because no family's name begins with another's, and the rest of the
key tells the cell, because of the parts that follow each other in it at most one has
no fixed width.
-/

namespace ChainLedger

/-! ## Parts of keys -/

theorem Text.bytesOf_injective {a b : String} (same : Text.bytesOf a = Text.bytesOf b) : a = b := by
  have read := Text.ofBytes?_bytesOf b
  rw [← same, Text.ofBytes?_bytesOf] at read
  exact Option.some.inj read

namespace Cell

theorem closed_injective {a b : String} (same : closed a = closed b) : a = b :=
  Text.bytesOf_injective (List.append_cancel_right same)

theorem assetKey_injective {a b : AssetId} (same : assetKey a = assetKey b) : a = b := by
  have numbers := congrArg ofBigEndian same
  rw [assetKey, assetKey, ofBigEndian_bigEndian, ofBigEndian_bigEndian,
    Nat.mod_eq_of_lt (show a.toNat < wordValues 8 from a.toNat_lt),
    Nat.mod_eq_of_lt (show b.toNat < wordValues 8 from b.toNat_lt)] at numbers
  exact UInt64.toNat_inj.mp numbers

theorem heightKey_injective {a b : UInt32} (same : heightKey a = heightKey b) : a = b := by
  have numbers := congrArg ofBigEndian same
  rw [heightKey, heightKey, ofBigEndian_bigEndian, ofBigEndian_bigEndian,
    Nat.mod_eq_of_lt (show a.toNat < wordValues 4 from a.toNat_lt),
    Nat.mod_eq_of_lt (show b.toNat < wordValues 4 from b.toNat_lt)] at numbers
  exact UInt32.toNat_inj.mp numbers

/-! ## Families -/

/-- The name of the family of a cell. -/
def family : Cell → String
  | .transaction _ => "tx/"
  | .balance _ _ => "balance/"
  | .reference _ => "reference/"
  | .asset _ => "asset/"
  | .assetName _ => "asset-name/"
  | .deployedAt _ => "at/"
  | .atState _ _ => "at-state/"
  | .atHeight _ _ => "at-height/"
  | .poll _ => "poll/"
  | .vote _ _ => "vote/"

/-- What tells the cell from the others of its family. -/
def place : Cell → Bytes
  | .transaction signature => signature.bytes
  | .balance account assetId => closed account ++ assetKey assetId
  | .reference account => Text.bytesOf account
  | .asset id => assetKey id
  | .assetName name => Text.bytesOf name
  | .deployedAt address => Text.bytesOf address
  | .atState address height => closed address ++ heightKey height
  | .atHeight height address => heightKey height ++ Text.bytesOf address
  | .poll name => Text.bytesOf name
  | .vote pollName voter => closed pollName ++ voter.bytes

theorem key_eq (c : Cell) : c.key = keyOf c.family c.place := by
  cases c <;> rfl

/-- The names of all families. -/
def families : List String :=
  ["tx/", "balance/", "reference/", "asset/", "asset-name/", "at/", "at-state/", "at-height/",
    "poll/", "vote/"]

theorem family_mem (c : Cell) : c.family ∈ families := by
  cases c <;> simp [family, families]

/-- No family's name begins with another's. -/
theorem prefix_free : ∀ a ∈ families, ∀ b ∈ families,
    Text.bytesOf a <+: Text.bytesOf b → a = b := by
  decide

/-- What a key begins with belongs to one family. -/
theorem family_unique {a b : String} {x y key : Bytes} (known : a ∈ families)
    (known' : b ∈ families) (leads : keyOf a x <+: key) (leads' : keyOf b y <+: key) : a = b := by
  have front : Text.bytesOf a <+: key := (List.prefix_append _ x).trans leads
  have front' : Text.bytesOf b <+: key := (List.prefix_append _ y).trans leads'
  rcases List.prefix_or_prefix_of_prefix front front' with shorter | longer
  · exact prefix_free _ known _ known' shorter
  · exact (prefix_free _ known' _ known longer).symm

theorem keyOf_isPrefix_key (c : Cell) : keyOf c.family c.place <+: c.key :=
  c.key_eq ▸ List.prefix_rfl

/-- A key that begins like those of a family is one of that family. -/
theorem family_eq_of_isPrefix {name : String} {rest : Bytes} {c : Cell} (known : name ∈ families)
    (leads : keyOf name rest <+: c.key) : c.family = name :=
  family_unique c.family_mem known c.keyOf_isPrefix_key leads

/-- **Distinct cells have distinct keys.** -/
theorem key_injective {c d : Cell} (same : c.key = d.key) : c = d := by
  have families : c.family = d.family := by
    have leads : keyOf d.family d.place <+: c.key := same ▸ d.keyOf_isPrefix_key
    exact family_eq_of_isPrefix d.family_mem leads
  have places : c.place = d.place := by
    rw [key_eq, key_eq, families] at same
    exact List.append_cancel_left same
  cases c <;> cases d <;> simp [family] at families
  case transaction.transaction => exact congrArg _ (FixedBytes.ext places)
  case balance.balance =>
    obtain ⟨accounts, assets⟩ := List.append_inj' places (by simp [assetKey])
    rw [closed_injective accounts, assetKey_injective assets]
  case reference.reference => exact congrArg _ (Text.bytesOf_injective places)
  case asset.asset => exact congrArg _ (assetKey_injective places)
  case assetName.assetName => exact congrArg _ (Text.bytesOf_injective places)
  case deployedAt.deployedAt => exact congrArg _ (Text.bytesOf_injective places)
  case atState.atState =>
    obtain ⟨addresses, heights⟩ := List.append_inj' places (by simp [heightKey])
    rw [closed_injective addresses, heightKey_injective heights]
  case atHeight.atHeight =>
    obtain ⟨heights, addresses⟩ := List.append_inj places (by simp [heightKey])
    rw [heightKey_injective heights, Text.bytesOf_injective addresses]
  case poll.poll => exact congrArg _ (Text.bytesOf_injective places)
  case vote.vote =>
    obtain ⟨polls, voters⟩ := List.append_inj' places (by simp)
    rw [closed_injective polls, FixedBytes.ext voters]

@[simp] theorem key_inj {c d : Cell} : c.key = d.key ↔ c = d :=
  ⟨key_injective, congrArg key⟩

end Cell

/-! ## Access to cells -/

namespace Session

variable {s t : Session}

/-- What a cell holds depends on its row alone. -/
theorem read_congr {c : Cell} (same : s.get? c.key = t.get? c.key) : s.read c = t.read c := by
  rw [read, read, same]

theorem get?_write (s : Session) (c : Cell) (value : c.Value) (key : Bytes) :
    (s.write c value).get? key = if key = c.key then some (c.form.write value) else s.get? key :=
  get?_put s c.key _ key

theorem get?_clear (s : Session) (c : Cell) (key : Bytes) :
    (s.clear c).get? key = if key = c.key then none else s.get? key :=
  get?_remove s c.key key

/-- A value that fits its form is what the cell holds once it is written. -/
theorem read_write_self {c : Cell} {domain : c.Value → Prop} (law : c.form.ReadsBackOn domain)
    (s : Session) {value : c.Value} (inside : domain value) :
    (s.write c value).read c = .ok (some value) := by
  have readBack := law value [] inside
  rw [List.append_nil] at readBack
  rw [read, get?_write, if_pos rfl]
  simp only [Form.ofRow, readBack, Except.map]

theorem read_write_of_ne {c d : Cell} (different : d ≠ c) (s : Session) (value : c.Value) :
    (s.write c value).read d = s.read d := by
  apply read_congr
  rw [get?_write, if_neg fun same => different (Cell.key_injective same)]

theorem read_clear_self (s : Session) (c : Cell) : (s.clear c).read c = .ok none := by
  rw [read, get?_clear, if_pos rfl]

theorem read_clear_of_ne {c d : Cell} (different : d ≠ c) (s : Session) :
    (s.clear c).read d = s.read d := by
  apply read_congr
  rw [get?_clear, if_neg fun same => different (Cell.key_injective same)]

/-- A cell that reads as a value has a row from which the value is read. -/
theorem read_eq_some_iff {c : Cell} {value : c.Value} :
    s.read c = .ok (some value) ↔
      ∃ row, s.get? c.key = some row ∧ c.form.ofRow c.key row = .ok value := by
  unfold read
  cases s.get? c.key with
  | none => simp
  | some row => simp [Except.map_eq_ok_iff]

/-- A cell that holds nothing reads as nothing. -/
theorem read_of_not_holds {c : Cell} (empty : s.holds c = false) : s.read c = .ok none := by
  rw [holds, contains, Option.isSome_eq_false_iff, Option.isNone_iff_eq_none] at empty
  rw [read, empty]

/-- A cell that reads as nothing holds nothing. -/
theorem not_holds_of_read {c : Cell} (nothing : s.read c = .ok none) : s.holds c = false := by
  rw [holds, contains, Option.isSome_eq_false_iff, Option.isNone_iff_eq_none]
  cases found : s.get? c.key with
  | none => rfl
  | some row =>
    simp only [read, found] at nothing
    rcases Except.map_eq_ok_iff.mp nothing with ⟨value, -, there⟩
    cases there

/-! ## Balances and references -/

theorem balance_setBalance (s : Session) (account other : Address) (asset asset' : AssetId)
    (balance : Amount) :
    (s.setBalance account asset balance).balance other asset' =
      if other = account ∧ asset' = asset then .ok balance else s.balance other asset' := by
  rw [Session.balance, setBalance]
  split
  next same =>
    obtain ⟨rfl, rfl⟩ := same
    rw [read_write_self (c := .balance other asset') Form.amount_readsBack s trivial]
    rfl
  next different =>
    have apart : Cell.balance other asset' ≠ Cell.balance account asset := by
      intro same
      cases same
      exact different ⟨rfl, rfl⟩
    rw [read_write_of_ne apart, Session.balance]

theorem balance_clearBalance (s : Session) (account other : Address) (asset asset' : AssetId) :
    (s.clearBalance account asset).balance other asset' =
      if other = account ∧ asset' = asset then .ok Amount.zero else s.balance other asset' := by
  rw [Session.balance, clearBalance]
  split
  next same =>
    obtain ⟨rfl, rfl⟩ := same
    rw [read_clear_self]
    rfl
  next different =>
    have apart : Cell.balance other asset' ≠ Cell.balance account asset := by
      intro same
      cases same
      exact different ⟨rfl, rfl⟩
    rw [read_clear_of_ne apart, Session.balance]

theorem lastReference_setLastReference (s : Session) (account other : Address)
    (reference : Option Signature) :
    (s.setLastReference account reference).lastReference other =
      if other = account then .ok reference else s.lastReference other := by
  split
  next same =>
    subst same
    cases reference with
    | none => exact read_clear_self s (.reference other)
    | some signature =>
      exact read_write_self (c := .reference other) Form.signature_readsBack s trivial
  next different =>
    have apart : Cell.reference other ≠ Cell.reference account := by
      intro same
      cases same
      exact different rfl
    cases reference with
    | none => exact read_clear_of_ne apart s
    | some signature => exact read_write_of_ne apart s signature

end Session

end ChainLedger

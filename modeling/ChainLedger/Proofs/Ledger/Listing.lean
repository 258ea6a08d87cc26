import ChainLedger.Proofs.Ledger.Assets
import Mathlib.Data.List.Nodup
import Mathlib.Data.Set.List

/-!
# What a scan of cells lists

Keys are bytes, and a scan knows nothing of cells. In a ledger whose rows were all written
as cells a scan below the front of some cells still lists these cells and no others, each
once, because no other cell has a key with that front.
-/

namespace ChainLedger

/-! ## The cells with a front -/

namespace Cell

/-- Only assets have keys that begin like those of assets. -/
theorem assets_isPrefix_key_iff {c : Cell} : assets <+: c.key ↔ ∃ id, c = .asset id := by
  constructor
  · intro leads
    have name := family_eq_of_assets leads
    cases c <;> simp [family] at name
    case asset id => exact ⟨id, rfl⟩
  · rintro ⟨id, rfl⟩
    exact Session.assets_isPrefix_key id

/-- The entry of an address has the front of its height. -/
theorem atHeightEntries_isPrefix_key (height : UInt32) (address : Address) :
    atHeightEntries height <+: (atHeight height address).key := by
  refine ⟨Text.bytesOf address, ?_⟩
  rw [atHeightEntries, key, keyOf, keyOf, List.append_assoc]

/-- Only index entries of a height have keys that begin like those of that height. Heights have
one width, so that none of them goes on as another. -/
theorem atHeightEntries_isPrefix_key_iff {height : UInt32} {c : Cell} :
    atHeightEntries height <+: c.key ↔ ∃ address, c = .atHeight height address := by
  constructor
  · intro leads
    have name : c.family = "at-height/" := family_eq_of_isPrefix (by simp [families]) leads
    cases c <;> simp [family] at name
    case atHeight height' address =>
      rw [atHeightEntries, key, keyOf, keyOf, List.prefix_append_right_inj] at leads
      have width : (heightKey height).length ≤ (heightKey height').length := by simp [heightKey]
      have front := List.prefix_of_prefix_length_le leads (List.prefix_append ..) width
      have heights := heightKey_injective (front.eq_of_length (by simp [heightKey]))
      exact ⟨address, by rw [heights]⟩
  · rintro ⟨address, rfl⟩
    exact atHeightEntries_isPrefix_key height address

end Cell

namespace Session

variable {s : Session} {front : Bytes}

/-! ## What cells hold -/

theorem holds_iff {c : Cell} : s.holds c = true ↔ ∃ row, s.get? c.key = some row :=
  Option.isSome_iff_exists

/-- The row of a cell that is read has the value that is read. -/
theorem exists_value_of_get? {c : Cell} {row : Bytes} {value : Option c.Value}
    (held : s.get? c.key = some row) (known : s.read c = .ok value) :
    ∃ here, c.form.ofRow c.key row = .ok here ∧ value = some here := by
  unfold read at known
  rw [held] at known
  obtain ⟨here, reads, same⟩ := Except.map_eq_ok_iff.mp known
  exact ⟨here, reads, same.symm⟩

theorem holds_write (s : Session) (c : Cell) (value : c.Value) (d : Cell) :
    (s.write c value).holds d = if d = c then true else s.holds d := by
  unfold holds contains
  simp only [get?_write, Cell.key_inj]
  split <;> rfl

theorem holds_clear (s : Session) (c d : Cell) :
    (s.clear c).holds d = if d = c then false else s.holds d := by
  unfold holds contains
  simp only [get?_clear, Cell.key_inj]
  split <;> rfl

/-! ## Listing -/

/-- A scan lists no key twice. -/
theorem nodup_keys_scan (s : Session) (front : Bytes) : ((s.scan front).map Prod.fst).Nodup := by
  refine List.pairwise_map.mpr ((s.scan_ascending front).imp fun less same => ?_)
  rw [same] at less
  exact List.lt_irrefl _ less

/-- **A scan lists cells** if the rows below its front stand in cells that have the front. It lists
those of them that hold something, each once. -/
theorem exists_listed {ι : Type} {cell : ι → Cell} (distinct : Function.Injective cell)
    (leads : ∀ i, front <+: (cell i).key)
    (cast : ∀ key row, front <+: key → s.get? key = some row → ∃ i, (cell i).key = key) :
    ∃ list : List ι, list.Nodup ∧ (∀ i, i ∈ list ↔ s.holds (cell i) = true) ∧
      (s.scan front).map Prod.fst = list.map fun i => (cell i).key := by
  have each : ∀ key ∈ (s.scan front).map Prod.fst, key ∈ Set.range fun i => (cell i).key := by
    intro key member
    obtain ⟨⟨_, row⟩, listed, rfl⟩ := List.mem_map.mp member
    obtain ⟨led, held⟩ := mem_scan.mp listed
    exact cast _ row led held
  have keysOfCells : (s.scan front).map Prod.fst ∈ Set.range (List.map fun i => (cell i).key) := by
    rw [Set.range_list_map]
    exact each
  obtain ⟨list, keys⟩ := keysOfCells
  have once := s.nodup_keys_scan front
  rw [← keys] at once
  refine ⟨list, List.Nodup.of_map _ once, fun i => ?_, keys.symm⟩
  rw [holds_iff]
  constructor
  · intro member
    have there := List.mem_map_of_mem (f := fun i => (cell i).key) member
    rw [keys] at there
    obtain ⟨⟨_, row⟩, listed, same⟩ := List.mem_map.mp there
    exact ⟨row, same ▸ (mem_scan.mp listed).2⟩
  · rintro ⟨row, held⟩
    have listed := List.mem_map_of_mem (f := Prod.fst) (mem_scan.mpr ⟨leads i, held⟩)
    rw [← keys] at listed
    obtain ⟨j, member, same⟩ := List.mem_map.mp listed
    exact distinct (Cell.key_injective same) ▸ member

/-- What is made of the keys of a scan can be made of what they are keys of. -/
theorem mapM_scan {ι α : Type} {label : ι → Bytes} {list : List ι}
    (keys : (s.scan front).map Prod.fst = list.map label) (f : Bytes → Except DataError α) :
    ((s.scan front).mapM fun row => f row.1) = list.mapM fun i => f (label i) := by
  calc ((s.scan front).mapM fun row => f row.1)
      = ((s.scan front).map Prod.fst).mapM f := List.mapM_map.symm
    _ = (list.map label).mapM f := by rw [keys]
    _ = list.mapM fun i => f (label i) := List.mapM_map

/-- Where a scan for assets lists the assets, the numbers it gives are theirs. -/
theorem nextAssetId_eq {ids : List AssetId}
    (keys : (s.scan Cell.assets).map Prod.fst = ids.map fun id => (Cell.asset id).key) :
    s.nextAssetId = .ok (ids.foldl max nativeAsset + 1) := by
  have numbers : (ids.mapM fun id => assetIdOf (Cell.asset id).key) = .ok ids := by
    simp only [assetIdOf_key]
    exact List.mapM_pure.trans (congrArg pure (List.map_id' ids))
  rw [nextAssetId, mapM_scan keys assetIdOf, numbers]
  rfl

/-! ## Ledgers of cells -/

/-- What comes of an empty ledger when cells are written and rows removed, in one session or in
several that are committed. -/
inductive Filled : Session → Prop
  | empty : Filled OrderedMap.empty.session
  | write {s : Session} (filled : s.Filled) (c : Cell) (value : c.Value) : Filled (s.write c value)
  | remove {s : Session} (filled : s.Filled) (key : Bytes) : Filled (s.remove key)
  | commit {s : Session} (filled : s.Filled) : Filled s.commit.session

/-- Every row of such a ledger stands in a cell. By induction on what was done to it: rows come
of writing cells. -/
theorem Filled.exists_cell (filled : s.Filled) {key row : Bytes} (held : s.get? key = some row) :
    ∃ c : Cell, c.key = key := by
  induction filled with
  | empty => cases held
  | write _ c value ih =>
    rw [get?_write] at held
    split at held
    next same => exact ⟨c, same.symm⟩
    next => exact ih held
  | remove _ removed ih =>
    rw [get?_remove] at held
    split at held
    next => cases held
    next => exact ih held
  | commit _ ih => exact ih (get?_commit _ key ▸ held)

/-- In such a ledger the rows below a front stand in the cells that have it. -/
theorem Filled.cast {ι : Type} {cell : ι → Cell} (filled : s.Filled)
    (leads : ∀ c : Cell, front <+: c.key ↔ ∃ i, c = cell i) (key row : Bytes)
    (led : front <+: key) (held : s.get? key = some row) : ∃ i, (cell i).key = key := by
  obtain ⟨c, rfl⟩ := filled.exists_cell held
  obtain ⟨i, rfl⟩ := (leads c).mp led
  exact ⟨i, rfl⟩

/-- **Cells are never confused.** Distinct cells have distinct keys, whatever their texts are, so
that what is done to one leaves all others as they were. Of all cells the scan for the next number
of an asset sees the assets, and the scan for the states at a height the index entries of that
height; and in a ledger of cells each of these is listed once and nothing else is. -/
theorem cells_apart :
    (∀ c d : Cell, c ≠ d → c.key ≠ d.key) ∧
      (∀ (s : Session) (c d : Cell) (value : c.Value), d ≠ c →
        (s.write c value).read d = s.read d ∧ (s.write c value).holds d = s.holds d ∧
          (s.clear c).read d = s.read d ∧ (s.clear c).holds d = s.holds d) ∧
      (∀ (s : Session) (c : Cell) (row : Bytes),
        ((c.key, row) ∈ s.scan Cell.assets ↔
          (∃ id, c = .asset id) ∧ s.get? c.key = some row) ∧
        ∀ height, (c.key, row) ∈ s.scan (Cell.atHeightEntries height) ↔
          (∃ address, c = .atHeight height address) ∧ s.get? c.key = some row) ∧
      ∀ s : Session, s.Filled →
        (∃ ids : List AssetId, ids.Nodup ∧ (∀ id, id ∈ ids ↔ s.holds (.asset id) = true) ∧
          ((s.scan Cell.assets).map Prod.fst = ids.map fun id => (Cell.asset id).key) ∧
          s.nextAssetId = .ok (ids.foldl max nativeAsset + 1)) ∧
        ∀ height, ∃ addresses : List Address, addresses.Nodup ∧
          (∀ address, address ∈ addresses ↔ s.holds (.atHeight height address) = true) ∧
          (s.scan (Cell.atHeightEntries height)).map Prod.fst =
            addresses.map fun address => (Cell.atHeight height address).key := by
  refine ⟨fun c d different same => different (Cell.key_injective same), ?_, ?_, ?_⟩
  · intro s c d value different
    refine ⟨read_write_of_ne different s value, ?_, read_clear_of_ne different s, ?_⟩
    · rw [holds_write, if_neg different]
    · rw [holds_clear, if_neg different]
  · intro s c row
    refine ⟨?_, fun height => ?_⟩
    · rw [mem_scan, Cell.assets_isPrefix_key_iff]
    · rw [mem_scan, Cell.atHeightEntries_isPrefix_key_iff]
  · intro s filled
    refine ⟨?_, fun height => ?_⟩
    · have distinct : Function.Injective Cell.asset := fun _ _ => Cell.asset.inj
      obtain ⟨ids, once, held, keys⟩ := exists_listed distinct assets_isPrefix_key
        (filled.cast fun _ => Cell.assets_isPrefix_key_iff)
      exact ⟨ids, once, held, keys, nextAssetId_eq keys⟩
    · have distinct : Function.Injective (Cell.atHeight height) :=
        fun _ _ same => (Cell.atHeight.inj same).2
      exact exists_listed distinct (Cell.atHeightEntries_isPrefix_key height)
        (filled.cast fun _ => Cell.atHeightEntries_isPrefix_key_iff)

/-- A zero byte in an account does not make its balance another's, and an asset's name is neither
changed with another name nor counted as an asset. -/
theorem cells_apart_name :
    Cell.balance "a\x00" 1 ≠ .balance "a" 1 ∧
      (Cell.balance "a\x00" 1).key ≠ (Cell.balance "a" 1).key ∧
      (OrderedMap.empty.session.write (.assetName "/") 4).Filled ∧
      ((OrderedMap.empty.session.write (.assetName "/") 4).clear (.assetName "")).read
          (.assetName "/") =
        (OrderedMap.empty.session.write (.assetName "/") 4).read (.assetName "/") ∧
      (OrderedMap.empty.session.write (.assetName "/") 4).nextAssetId = .ok 1 := by
  obtain ⟨distinct, alone, -, listed⟩ := cells_apart
  have different : Cell.balance "a\x00" 1 ≠ .balance "a" 1 := by decide
  have filled := Filled.empty.write (.assetName "/") 4
  obtain ⟨-, -, kept, -⟩ :=
    alone (OrderedMap.empty.session.write (.assetName "/") 4) (.assetName "") (.assetName "/") 0
      (by decide)
  refine ⟨different, distinct _ _ different, filled, kept, ?_⟩
  obtain ⟨⟨ids, -, held, -, next⟩, -⟩ := listed _ filled
  have none : ids = [] := by
    refine List.eq_nil_iff_forall_not_mem.mpr fun id member => ?_
    obtain ⟨-, other, -⟩ :=
      alone OrderedMap.empty.session (.assetName "/") (.asset id) 4 (by simp)
    have there := (held id).mp member
    rw [other] at there
    cases there
  rw [next, none]
  rfl

end Session

end ChainLedger

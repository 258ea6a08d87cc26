import ChainLedger.Ledger.Assets
import ChainLedger.Proofs.Ledger.Frame

/-!
# The numbering of assets

The next asset gets a number that is above the number of every asset there is, so that
there is no asset under it. Only where the numbers have run out does the next one wrap
around to zero, the number of the coins. They have not as long as fewer assets were issued
than there are numbers, since an issue takes the highest number up by one at most.
-/

namespace ChainLedger

/-! ## Mapping a list -/

/-- Where a list can be mapped, the result is what its members are mapped to. -/
theorem Except.mem_mapM_iff {ε α β : Type} {f : α → Except ε β} {list : List α} {mapped : List β}
    (done : list.mapM f = .ok mapped) {b : β} : b ∈ mapped ↔ ∃ a ∈ list, f a = .ok b := by
  induction list generalizing mapped with
  | nil =>
    cases done
    simp
  | cons first rest ih =>
    rw [List.mapM_cons] at done
    rcases Except.bind_eq_ok_iff.mp done with ⟨here, mappedFirst, tail⟩
    rcases Except.bind_eq_ok_iff.mp tail with ⟨later, mappedRest, result⟩
    rw [Except.pure_eq_ok_iff] at result
    subst result
    rw [List.mem_cons, ih mappedRest]
    simp [mappedFirst, eq_comm]

/-- A list can be mapped where each member can, to values with a property if each value has it, and
with the labels of the members if each value has the label of its own. -/
theorem Except.exists_mapM_keyed {ε α β γ : Type} {f : α → Except ε β} {property : β → Prop}
    {key : β → γ} {label : α → γ} {list : List α}
    (each : ∀ a ∈ list, ∃ b, f a = .ok b ∧ property b ∧ key b = label a) :
    ∃ mapped, list.mapM f = .ok mapped ∧ (∀ b ∈ mapped, property b) ∧
      mapped.map key = list.map label := by
  induction list with
  | nil => exact ⟨[], rfl, by simp, rfl⟩
  | cons first rest ih =>
    rw [List.forall_mem_cons] at each
    obtain ⟨b, found, holds, labelled⟩ := each.1
    obtain ⟨later, mappedRest, all, labels⟩ := ih each.2
    refine ⟨b :: later, ?_, List.forall_mem_cons.mpr ⟨holds, all⟩, ?_⟩
    · rw [List.mapM_cons, found, mappedRest]
      rfl
    · rw [List.map_cons, List.map_cons, labelled, labels]

/-- A list whose members can be mapped to values with a property can be mapped to such values. -/
theorem Except.exists_mapM {ε α β : Type} {f : α → Except ε β} {property : β → Prop}
    {list : List α} (each : ∀ a ∈ list, ∃ b, f a = .ok b ∧ property b) :
    ∃ mapped, list.mapM f = .ok mapped ∧ ∀ b ∈ mapped, property b := by
  have each' : ∀ a ∈ list, ∃ b, f a = .ok b ∧ property b ∧ () = () := fun a member =>
    (each a member).imp fun _ ⟨found, holds⟩ => ⟨found, holds, rfl⟩
  obtain ⟨mapped, done, all, -⟩ := exists_mapM_keyed each'
  exact ⟨mapped, done, all⟩

/-! ## Numbers -/

theorem toNat_max (a b : AssetId) : (max a b).toNat = max a.toNat b.toNat := by
  change (if a ≤ b then b else a).toNat = _
  split
  next below =>
    rw [UInt64.le_iff_toNat_le] at below
    omega
  next above =>
    rw [UInt64.le_iff_toNat_le] at above
    omega

theorem le_foldl_max (ids : List AssetId) (start : AssetId) :
    start ≤ ids.foldl max start ∧ ∀ id ∈ ids, id ≤ ids.foldl max start := by
  induction ids generalizing start with
  | nil => exact ⟨UInt64.le_refl _, by simp⟩
  | cons first rest ih =>
    obtain ⟨above, all⟩ := ih (max start first)
    have left : start ≤ max start first := by
      rw [UInt64.le_iff_toNat_le, toNat_max]
      exact Nat.le_max_left _ _
    have right : first ≤ max start first := by
      rw [UInt64.le_iff_toNat_le, toNat_max]
      exact Nat.le_max_right _ _
    exact ⟨UInt64.le_trans left above,
      List.forall_mem_cons.mpr ⟨UInt64.le_trans right above, all⟩⟩

theorem foldl_max_mem (ids : List AssetId) (start : AssetId) :
    ids.foldl max start = start ∨ ids.foldl max start ∈ ids := by
  induction ids generalizing start with
  | nil => exact .inl rfl
  | cons first rest ih =>
    have larger : max start first = start ∨ max start first = first := by
      change (if start ≤ first then first else start) = start ∨
        (if start ≤ first then first else start) = first
      split
      next => exact .inr rfl
      next => exact .inl rfl
    rcases ih (max start first) with same | member
    · rw [List.foldl_cons, same]
      exact larger.imp_right fun here => List.mem_cons.mpr (.inl here)
    · exact .inr (List.mem_cons_of_mem _ member)

/-- The last number that an asset can have. -/
def lastAsset : AssetId := UInt64.ofNat (2 ^ 64 - 1)

/-- Only the last number is followed by that of the coins. -/
theorem add_one_eq_nativeAsset_iff {id : AssetId} : id + 1 = nativeAsset ↔ id = lastAsset := by
  have bound := id.toNat_lt
  have one : (1 : UInt64).toNat = 1 := rfl
  have zero : nativeAsset.toNat = 0 := rfl
  have last : lastAsset.toNat = 2 ^ 64 - 1 := rfl
  rw [← UInt64.toNat_inj, ← UInt64.toNat_inj, UInt64.toNat_add, one, zero, last]
  omega

/-- Any other number is followed by the one above it. -/
theorem toNat_add_one {id : AssetId} (left : id ≠ lastAsset) : (id + 1).toNat = id.toNat + 1 := by
  have bound := id.toNat_lt
  have one : (1 : UInt64).toNat = 1 := rfl
  have last : lastAsset.toNat = 2 ^ 64 - 1 := rfl
  rw [ne_eq, ← UInt64.toNat_inj, last] at left
  rw [UInt64.toNat_add, one]
  omega

namespace Session

/-- The key of an asset gives its number back. -/
theorem assetIdOf_key (id : AssetId) : assetIdOf (Cell.asset id).key = .ok id := by
  have number : (Cell.asset id).key.drop Cell.assets.length = Cell.assetKey id := by
    rw [show (Cell.asset id).key = Cell.assets ++ Cell.assetKey id by
      simp [Cell.key, Cell.assets, Cell.keyOf]]
    exact List.drop_left
  have width : (Cell.assetKey id).length = 8 := length_bigEndian ..
  have value : ofBigEndian (Cell.assetKey id) = id.toNat := by
    rw [Cell.assetKey, ofBigEndian_bigEndian,
      Nat.mod_eq_of_lt (show id.toNat < wordValues 8 from id.toNat_lt)]
  unfold assetIdOf
  rw [number, FixedBytes.ofBytes?, dif_pos width]
  simp only [value, UInt64.ofNat_toNat]

theorem assets_isPrefix_key (id : AssetId) : Cell.assets <+: (Cell.asset id).key := by
  refine ⟨Cell.assetKey id, ?_⟩
  simp [Cell.key, Cell.assets, Cell.keyOf]

/-- A key of an asset from which a number is taken is the key of that number. -/
theorem eq_key_of_assetIdOf {key : Bytes} {id : AssetId} (leads : Cell.assets <+: key)
    (number : assetIdOf key = .ok id) : key = (Cell.asset id).key := by
  obtain ⟨rest, rfl⟩ := leads
  unfold assetIdOf at number
  rw [List.drop_left] at number
  split at number
  next bytes found =>
    obtain rfl := FixedBytes.ofBytes?_eq_some_iff.mp found
    obtain rfl := Except.ok.inj number
    have small : ofBigEndian bytes.bytes < 2 ^ 64 := by
      have bound := ofBigEndian_lt bytes.bytes
      rwa [FixedBytes.length_bytes] at bound
    have digits := bigEndian_ofBigEndian bytes.bytes
    rw [FixedBytes.length_bytes] at digits
    rw [Cell.key, Cell.keyOf, Cell.assetKey, UInt64.toNat_ofNat_of_lt' small, digits]
    simp [Cell.assets, Cell.keyOf]
  next => cases number

/-- Where every row of an asset stands under a number there is a next one. -/
theorem exists_nextAssetId_of_rows {s : Session}
    (rows : ∀ key, Cell.assets <+: key → (s.get? key).isSome →
      ∃ id : AssetId, key = (Cell.asset id).key) : ∃ id, s.nextAssetId = .ok id := by
  have each : ∀ row ∈ s.scan Cell.assets, ∃ id, assetIdOf row.1 = .ok id ∧ True := by
    intro row member
    rcases mem_scan.mp member with ⟨leads, held⟩
    obtain ⟨id, same⟩ := rows row.1 leads (by rw [held]; rfl)
    exact ⟨id, by rw [same, assetIdOf_key], trivial⟩
  obtain ⟨ids, listed, -⟩ := Except.exists_mapM each
  exact ⟨_, Except.map_eq_ok_iff.mpr ⟨ids, listed, rfl⟩⟩

/-- **The next number** is one more than the highest in use, or than that of the coins if there is
no asset. -/
theorem exists_highest {s : Session} {id : AssetId} (next : s.nextAssetId = .ok id) :
    ∃ highest, id = highest + 1 ∧ (highest = nativeAsset ∨ s.holds (.asset highest) = true) ∧
      ∀ other, s.holds (.asset other) = true → other ≤ highest := by
  rcases Except.map_eq_ok_iff.mp next with ⟨ids, listed, last⟩
  refine ⟨ids.foldl max nativeAsset, last.symm, ?_, fun other held => ?_⟩
  · refine (foldl_max_mem ids nativeAsset).imp_right fun member => ?_
    obtain ⟨⟨key, row⟩, there, number⟩ := (Except.mem_mapM_iff listed).mp member
    obtain ⟨leads, held⟩ := mem_scan.mp there
    rw [eq_key_of_assetIdOf leads number] at held
    exact Option.isSome_iff_exists.mpr ⟨row, held⟩
  · obtain ⟨row, found⟩ := Option.isSome_iff_exists.mp held
    have there := mem_scan.mpr ⟨assets_isPrefix_key other, found⟩
    exact (le_foldl_max ids nativeAsset).2 other
      ((Except.mem_mapM_iff listed).mpr ⟨_, there, assetIdOf_key other⟩)

/-- **The next number is unused**, unless the numbers have run out. -/
theorem not_holds_nextAssetId {s : Session} {id : AssetId} (next : s.nextAssetId = .ok id)
    (left : id ≠ nativeAsset) : s.holds (.asset id) = false := by
  rw [Bool.eq_false_iff]
  intro held
  obtain ⟨highest, rfl, -, below⟩ := exists_highest next
  have above := below _ held
  rw [ne_eq, add_one_eq_nativeAsset_iff] at left
  rw [UInt64.le_iff_toNat_le, toNat_add_one left] at above
  omega

/-- **The numbers have run out**, so that the next one is that of the coins, exactly if the last one
is in use. -/
theorem eq_nativeAsset_iff {s : Session} {id : AssetId} (next : s.nextAssetId = .ok id) :
    id = nativeAsset ↔ s.holds (.asset lastAsset) = true := by
  obtain ⟨highest, rfl, held, below⟩ := exists_highest next
  rw [add_one_eq_nativeAsset_iff]
  constructor
  · rintro rfl
    exact held.resolve_left (by decide)
  · intro used
    have most : highest ≤ lastAsset :=
      UInt64.le_iff_toNat_le.mpr (Nat.le_pred_of_lt highest.toNat_lt)
    exact UInt64.le_antisymm most (below lastAsset used)

/-- As long as the last number is not in use, the next one is no number of coins. -/
theorem ne_nativeAsset_of_left {s : Session} {id : AssetId} (next : s.nextAssetId = .ok id)
    (left : s.holds (.asset lastAsset) = false) : id ≠ nativeAsset := by
  rw [ne_eq, eq_nativeAsset_iff next, left]
  exact Bool.false_ne_true

end Session

/-! ## Bounds on the numbers -/

/-- A key that begins like those of assets is one of an asset. -/
theorem Cell.family_eq_of_assets {c : Cell} (leads : Cell.assets <+: c.key) :
    c.family = "asset/" :=
  family_eq_of_isPrefix (by simp [families]) leads

theorem Session.holds_saveAsset (s : Session) (asset : Asset) (id : AssetId) :
    (s.saveAsset asset).holds (.asset id) = (decide (id = asset.id) || s.holds (.asset id)) := by
  have unnamed : (Cell.asset id).key ≠ (Cell.assetName asset.name).key := by simp
  rw [holds, contains, saveAsset, get?_write, get?_write, if_neg unnamed]
  by_cases same : id = asset.id
  · simp [same]
  · simp [same, holds, contains]

/-- Every row of an asset stands under a number that is not above a bound. -/
def Session.Numbered (issued : Nat) (s : Session) : Prop :=
  ∀ key, (s.get? key).isSome → Cell.assets <+: key →
    ∃ id : AssetId, key = (Cell.asset id).key ∧ id.toNat ≤ issued

namespace Session.Numbered

variable {s t : Session} {issued : Nat}

theorem empty : OrderedMap.empty.session.Numbered 0 := fun _ held => by cases held

/-- The bound holds where there are no other rows of assets. -/
theorem mono (numbered : s.Numbered issued)
    (rows : ∀ key, Cell.assets <+: key → (t.get? key).isSome → (s.get? key).isSome) :
    t.Numbered issued :=
  fun key held leads => numbered key (rows key leads held) leads

theorem clear (numbered : s.Numbered issued) (c : Cell) : (s.clear c).Numbered issued := by
  refine numbered.mono fun key _ held => ?_
  rw [get?_clear] at held
  split at held
  next => cases held
  next => exact held

/-- The bound can be taken up. -/
theorem of_le {more : Nat} (numbered : s.Numbered issued) (most : issued ≤ more) :
    s.Numbered more := by
  intro key held leads
  obtain ⟨id, same, below⟩ := numbered key held leads
  exact ⟨id, same, Nat.le_trans below most⟩

theorem exists_next (numbered : s.Numbered issued) : ∃ id, s.nextAssetId = .ok id :=
  exists_nextAssetId_of_rows fun key leads held => (numbered key held leads).imp fun _ => And.left

/-- **The next number** is there and is one that no asset has yet. -/
theorem exists_nextAssetId (numbered : s.Numbered issued) (left : issued + 1 < 2 ^ 64) :
    ∃ id, s.nextAssetId = .ok id ∧ id ≠ nativeAsset ∧ id.toNat ≤ issued + 1 := by
  obtain ⟨id, next⟩ := numbered.exists_next
  obtain ⟨highest, rfl, inUse, -⟩ := exists_highest next
  have bound : highest.toNat ≤ issued := by
    rcases inUse with rfl | held
    · exact Nat.zero_le issued
    · obtain ⟨number, same, below⟩ := numbered _ held (assets_isPrefix_key highest)
      cases Cell.key_injective same
      exact below
  have unlike : highest ≠ lastAsset := by
    rintro rfl
    have last : lastAsset.toNat = 2 ^ 64 - 1 := rfl
    omega
  refine ⟨_, next, fun none => unlike (add_one_eq_nativeAsset_iff.mp none), ?_⟩
  rw [toNat_add_one unlike]
  omega

/-- Where the last number is in use, the next one is that of the coins. -/
theorem nextAssetId_of_last (numbered : s.Numbered issued)
    (used : s.holds (.asset lastAsset) = true) : s.nextAssetId = .ok nativeAsset := by
  obtain ⟨id, next⟩ := numbered.exists_next
  rw [next, (eq_nativeAsset_iff next).mpr used]

theorem range_nextAssetId {id : AssetId} (numbered : s.Numbered issued)
    (left : issued + 1 < 2 ^ 64) (next : s.nextAssetId = .ok id) :
    id ≠ nativeAsset ∧ id.toNat ≤ issued + 1 := by
  obtain ⟨number, known, range⟩ := numbered.exists_nextAssetId left
  obtain rfl := Except.ok.inj (known.symm.trans next)
  exact range

/-- Changes to other families leave the numbers alone. -/
theorem makeAll {changes : List Change} (numbered : s.Numbered issued)
    (other : ∀ change ∈ changes, "asset/" ∉ change.families) :
    (Change.makeAll changes s).session.Numbered issued := by
  refine numbered.mono fun key leads held => ?_
  rw [Change.get?_makeAll] at held
  · exact held
  · intro change member
    exact Change.not_writes_of_front (by simp [Cell.families]) leads (other change member)

/-- An asset that is saved under the next number takes the bound up by one. -/
theorem saveAsset {asset : Asset} (numbered : s.Numbered issued)
    (next : asset.id.toNat ≤ issued + 1) : (s.saveAsset asset).Numbered (issued + 1) := by
  intro key held leads
  by_cases here : key = (Cell.asset asset.id).key
  · exact ⟨asset.id, here, next⟩
  · have unnamed : key ≠ (Cell.assetName asset.name).key := by
      rintro rfl
      have family := Cell.family_eq_of_assets leads
      simp [Cell.family] at family
    rw [Session.saveAsset, get?_write, if_neg here, get?_write, if_neg unnamed] at held
    obtain ⟨id, same, below⟩ := numbered key held leads
    exact ⟨id, same, by omega⟩

end Session.Numbered

end ChainLedger

import ChainLedger.Proofs.Ledger.Agreement
import ChainLedger.Proofs.Ledger.Assets
import ChainLedger.Proofs.Ledger.Change
import ChainLedger.Proofs.Store.Row

/-!
# The registry of assets

An asset has two rows: it is stored under its number, and its number under its name. The
registry that these rows make is a list of assets with distinct numbers and distinct
names, and every question about assets is answered from that list. Saving an asset under
a new number and a new name puts it on the list, and deleting it takes it off again,
wherever in the list it is.
-/

namespace ChainLedger

open Change

variable {s t u : Session} {asset : Asset} {assets front back : List Asset} {changes : List Change}

/-! ## Lists without repetition -/

section Distinct

variable {α β : Type} {f : α → β} {a : α} {list first second : List α}

/-- Where keys are distinct, a member is found under its own. -/
theorem find?_eq_some_iff_of_nodup [DecidableEq β] {b : β} (distinct : (list.map f).Nodup) :
    list.find? (fun other => f other = b) = some a ↔ a ∈ list ∧ f a = b := by
  constructor
  · intro found
    exact ⟨List.mem_of_find?_eq_some found, by simpa using List.find?_some found⟩
  · rintro ⟨member, rfl⟩
    have there : (list.find? fun other => f other = f a).isSome :=
      List.find?_isSome.mpr ⟨a, member, decide_eq_true rfl⟩
    obtain ⟨other, found⟩ := Option.isSome_iff_exists.mp there
    have same : f other = f a := by simpa using List.find?_some found
    rw [found, List.inj_on_of_nodup_map distinct (List.mem_of_find?_eq_some found) member same]

/-- Where keys are distinct, all other members have other keys. -/
theorem ne_of_nodup_middle (distinct : ((first ++ a :: second).map f).Nodup) :
    ∀ other ∈ first ++ second, f other ≠ f a := by
  intro other member same
  rw [List.map_append, List.map_cons, List.nodup_middle, List.nodup_cons, ← List.map_append]
    at distinct
  exact distinct.1 (List.mem_map.mpr ⟨other, member, same⟩)

end Distinct

/-! ## The rows of assets -/

/-- The families of the rows of assets. -/
def Cell.registry : List String := ["asset/", "asset-name/"]

theorem Cell.registry_subset : Cell.registry ⊆ Cell.families := by
  decide

/-- The rows of assets are the same in both ledgers. -/
def Session.SameAssets (s t : Session) : Prop :=
  ∀ name ∈ Cell.registry, ∀ key, Cell.keyOf name [] <+: key → t.get? key = s.get? key

namespace Session.SameAssets

theorem get?_key (same : s.SameAssets t) {c : Cell} (family : c.family ∈ Cell.registry) :
    t.get? c.key = s.get? c.key :=
  SameIn.get?_key same family

theorem asset? (same : s.SameAssets t) : t.asset? = s.asset? := by
  funext id
  exact read_congr (same.get?_key (by simp [Cell.family, Cell.registry]))

theorem assetNameExists (same : s.SameAssets t) : t.assetNameExists = s.assetNameExists := by
  funext name
  rw [Session.assetNameExists, Session.holds, contains,
    same.get?_key (by simp [Cell.family, Cell.registry])]
  rfl

theorem trans (same : s.SameAssets t) (same' : t.SameAssets u) : s.SameAssets u :=
  SameIn.trans same same'

theorem clear (same : s.SameAssets t) (c : Cell) : (s.clear c).SameAssets (t.clear c) :=
  SameIn.clear same c

theorem numbered {issued : Nat} (same : s.SameAssets t) (numbered : s.Numbered issued) :
    t.Numbered issued := by
  refine numbered.mono fun key leads held => ?_
  rwa [same "asset/" (by simp [Cell.registry]) key leads] at held

end Session.SameAssets

theorem Session.Agree.sameAssets (same : s.Agree t) : s.SameAssets t := same.sameIn

/-- A change to another family leaves the rows of assets alone. -/
theorem Change.sameAssets_make {change : Change}
    (other : ∀ name ∈ Cell.registry, name ∉ change.families) (s : Session) :
    s.SameAssets (change.make s).session :=
  sameIn_make Cell.registry_subset other s

theorem Change.sameAssets_makeAll
    (other : ∀ change ∈ changes, ∀ name ∈ Cell.registry, name ∉ change.families) (s : Session) :
    s.SameAssets (makeAll changes s).session :=
  sameIn_makeAll Cell.registry_subset other s

/-! ## Saving and deleting -/

theorem Session.read_saveAsset_self (storable : asset.Storable) (s : Session) :
    (s.saveAsset asset).read (.asset asset.id) = .ok (some asset) :=
  read_write_self (c := .asset asset.id) Asset.form_readsBack _ storable

/-- Any other asset reads as before. -/
theorem Session.asset?_saveAsset_of_ne {id : AssetId} (other : id ≠ asset.id) (s : Session) :
    (s.saveAsset asset).asset? id = s.asset? id := by
  have apart : Cell.asset id ≠ .asset asset.id := by simpa using other
  exact (read_write_of_ne apart _ _).trans
    (read_write_of_ne (c := .assetName asset.name) (by simp) s asset.id)

theorem Session.assetNameExists_saveAsset (s : Session) (asset : Asset) (name : String) :
    (s.saveAsset asset).assetNameExists name =
      (decide (asset.name = name) || s.assetNameExists name) := by
  have unnumbered : (Cell.assetName name).key ≠ (Cell.asset asset.id).key := by simp
  rw [assetNameExists, holds, contains, saveAsset, get?_write, get?_write, if_neg unnumbered]
  by_cases same : name = asset.name
  · simp [same]
  · simp [same, Ne.symm same, assetNameExists, holds, contains]

theorem Session.assetNameExists_clear (s : Session) (asset : Asset) (name : String) :
    ((s.clear (.assetName asset.name)).clear (.asset asset.id)).assetNameExists name =
      (decide (asset.name ≠ name) && s.assetNameExists name) := by
  have unnumbered : (Cell.assetName name).key ≠ (Cell.asset asset.id).key := by simp
  rw [assetNameExists, holds, contains, get?_clear, if_neg unnumbered, get?_clear]
  by_cases same : name = asset.name
  · simp [same]
  · simp [same, Ne.symm same, assetNameExists, holds, contains]

/-- An asset that can be read is deleted with its name. -/
theorem make_deleteAsset {id : AssetId} (held : s.read (.asset id) = .ok (some asset)) :
    (Change.deleteAsset id).make s =
      .done ((s.clear (.assetName asset.name)).clear (.asset id)) := by
  simp only [make, Session.deleteAsset, Session.asset?, held, Except.map, Written.ofExcept]

/-! ## The registry -/

/-- The ledger answers every question about assets from the list, in which numbers from one on and
names stand for one asset each. -/
structure Session.Registers (s : Session) (assets : List Asset) : Prop where
  found : ∀ id, s.asset? id = .ok (assets.find? fun asset => asset.id = id)
  named : ∀ name, s.assetNameExists name = assets.any fun asset => asset.name = name
  numbers : ∀ asset ∈ assets, 1 ≤ asset.id
  ids : (assets.map Asset.id).Nodup
  names : (assets.map Asset.name).Nodup

namespace Session.Registers

theorem empty : OrderedMap.empty.session.Registers [] where
  found _ := rfl
  named _ := rfl
  numbers _ member := by cases member
  ids := List.nodup_nil
  names := List.nodup_nil

theorem congr (registers : s.Registers assets) (same : s.SameAssets t) : t.Registers assets where
  found id := same.asset? ▸ registers.found id
  named name := same.assetNameExists ▸ registers.named name
  numbers := registers.numbers
  ids := registers.ids
  names := registers.names

/-- **What is found under a number** is the asset on the list that has it. -/
theorem asset?_eq_some_iff (registers : s.Registers assets) {id : AssetId} :
    s.asset? id = .ok (some asset) ↔ asset ∈ assets ∧ asset.id = id := by
  rw [registers.found, Except.ok.injEq, find?_eq_some_iff_of_nodup registers.ids]

/-- No asset on the list has a number under which there is no row. -/
theorem ne_of_not_holds (registers : s.Registers assets) {id : AssetId}
    (empty : s.holds (.asset id) = false) (member : asset ∈ assets) : asset.id ≠ id := by
  intro same
  have found := registers.asset?_eq_some_iff.mpr ⟨member, same⟩
  rw [Session.asset?, read_of_not_holds empty] at found
  cases found

/-- Nor has it a name that is not in the index. -/
theorem ne_of_not_named (registers : s.Registers assets) {name : String}
    (unnamed : s.assetNameExists name = false) (member : asset ∈ assets) : asset.name ≠ name := by
  rw [registers.named, List.any_eq_false] at unnamed
  exact fun same => unnamed asset member (decide_eq_true same)

/-- **A new asset is put on the list.** -/
theorem saveAsset (registers : s.Registers assets) (storable : asset.Storable)
    (left : asset.id ≠ nativeAsset) (unissued : s.holds (.asset asset.id) = false)
    (unnamed : s.assetNameExists asset.name = false) :
    (s.saveAsset asset).Registers (asset :: assets) where
  found id := by
    by_cases here : asset.id = id
    · subst here
      rw [List.find?_cons_of_pos (by simp)]
      exact read_saveAsset_self storable s
    · rw [List.find?_cons_of_neg (by simpa using here),
        asset?_saveAsset_of_ne (Ne.symm here), registers.found]
  named name := by rw [assetNameExists_saveAsset, registers.named, List.any_cons]
  numbers := by
    refine List.forall_mem_cons.mpr ⟨?_, registers.numbers⟩
    have positive : asset.id.toNat ≠ nativeAsset.toNat :=
      fun same => left (UInt64.toNat_inj.mp same)
    exact UInt64.le_iff_toNat_le.mpr (Nat.one_le_iff_ne_zero.mpr positive)
  ids := by
    refine List.nodup_cons.mpr ⟨fun member => ?_, registers.ids⟩
    obtain ⟨other, there, same⟩ := List.mem_map.mp member
    exact registers.ne_of_not_holds unissued there same
  names := by
    refine List.nodup_cons.mpr ⟨fun member => ?_, registers.names⟩
    obtain ⟨other, there, same⟩ := List.mem_map.mp member
    exact registers.ne_of_not_named unnamed there same

/-- **Without its rows an asset is off the list**, wherever it was on it. -/
theorem clear (registers : s.Registers (front ++ asset :: back)) :
    ((s.clear (.assetName asset.name)).clear (.asset asset.id)).Registers (front ++ back) := by
  have fewer : (front ++ back).Sublist (front ++ asset :: back) :=
    (List.sublist_cons_self asset back).append_left front
  have otherIds := ne_of_nodup_middle registers.ids
  have otherNames := ne_of_nodup_middle registers.names
  constructor
  case found =>
    intro id
    by_cases here : id = asset.id
    · have nothing : (front ++ back).find? (fun other => other.id = id) = none :=
        List.find?_eq_none.mpr fun other member => by simpa [here] using otherIds other member
      rw [nothing, here]
      exact read_clear_self _ (.asset asset.id)
    · have apart : Cell.asset id ≠ .asset asset.id := by simpa using here
      have kept := registers.found id
      rw [List.find?_append, List.find?_cons_of_neg (by simpa using Ne.symm here),
        ← List.find?_append] at kept
      exact (read_clear_of_ne apart _).trans ((read_clear_of_ne (by simp) s).trans kept)
  case named =>
    intro name
    rw [assetNameExists_clear, registers.named]
    by_cases here : asset.name = name
    · have nothing : (front ++ back).any (fun other => other.name = name) = false :=
        List.any_eq_false.mpr fun other member => by simpa [← here] using otherNames other member
      rw [nothing, decide_eq_false (not_not.mpr here), Bool.false_and]
    · rw [decide_eq_true here, Bool.true_and, List.any_append, List.any_cons,
        decide_eq_false here, Bool.false_or, List.any_append]
  case numbers => exact fun other member => registers.numbers other (fewer.subset member)
  case ids => exact registers.ids.sublist (fewer.map Asset.id)
  case names => exact registers.names.sublist (fewer.map Asset.name)

end Session.Registers

end ChainLedger

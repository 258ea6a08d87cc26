import ChainLedger.Text.WhiteSpace
import Mathlib.Data.List.DropRight

/-!
# What trimming leaves

Cutting off the longest front or back of one kind leaves what begins or ends otherwise,
and nothing else is so split off. A text is therefore trimmed to one thing only: what
stands between white space and neither begins nor ends with any.
-/

namespace ChainLedger

variable {α : Type} {p : α → Bool} {items core : List α}

theorem dropWhile_eq_iff : items.dropWhile p = core ↔
    (∃ front, items = front ++ core ∧ ∀ a ∈ front, p a = true) ∧
      ∀ a ∈ core.head?, p a = false := by
  constructor
  · rintro rfl
    refine ⟨⟨items.takeWhile p, (List.takeWhile_append_dropWhile ..).symm,
      fun _ => List.mem_takeWhile_imp⟩, fun a first => ?_⟩
    have stopped := List.head?_dropWhile_not p items
    rwa [Option.mem_def.mp first] at stopped
  · rintro ⟨⟨front, rfl, cut⟩, first⟩
    rw [List.dropWhile_append_of_pos cut]
    cases core with
    | nil => rfl
    | cons a rest => exact List.dropWhile_cons_of_neg (by simp [first a rfl])

theorem rdropWhile_eq_iff : items.rdropWhile p = core ↔
    (∃ back, items = core ++ back ∧ ∀ a ∈ back, p a = true) ∧
      ∀ a ∈ core.getLast?, p a = false := by
  rw [List.rdropWhile, List.reverse_eq_iff, dropWhile_eq_iff, List.head?_reverse]
  refine and_congr_left fun _ => ⟨?_, ?_⟩
  · rintro ⟨front, split, cut⟩
    refine ⟨front.reverse, ?_, by simpa using cut⟩
    rw [← List.reverse_reverse items, split, List.reverse_append, List.reverse_reverse]
  · rintro ⟨back, rfl, cut⟩
    exact ⟨back.reverse, List.reverse_append .., by simpa using cut⟩

namespace Text

/-- What is left of a text between the white space at its ends. -/
structure IsTrimmedTo (chars core : List Char) : Prop where
  between : ∃ front back, chars = front ++ core ++ back ∧
    ∀ c ∈ front ++ back, isWhiteSpace c = true
  first : ∀ c ∈ core.head?, isWhiteSpace c = false
  last : ∀ c ∈ core.getLast?, isWhiteSpace c = false

theorem trimmed_eq_iff {chars core : List Char} :
    trimmed chars = core ↔ IsTrimmedTo chars core := by
  change (chars.dropWhile isWhiteSpace).rdropWhile isWhiteSpace = core ↔ _
  rw [rdropWhile_eq_iff]
  constructor
  · rintro ⟨⟨back, cut, whiteBack⟩, last⟩
    obtain ⟨⟨front, rfl, whiteFront⟩, first⟩ := dropWhile_eq_iff.mp cut
    refine ⟨⟨front, back, (List.append_assoc ..).symm, ?_⟩, fun c head => ?_, last⟩
    · exact List.forall_mem_append.mpr ⟨whiteFront, whiteBack⟩
    · exact first c (by rw [List.head?_append, Option.mem_def.mp head]; rfl)
  · rintro ⟨⟨front, back, rfl, white⟩, first, last⟩
    obtain ⟨whiteFront, whiteBack⟩ := List.forall_mem_append.mp white
    refine ⟨?_, last⟩
    cases core with
    | nil =>
      -- All is white space, and the front takes it.
      refine ⟨[], ?_, by simp⟩
      rw [List.append_nil, List.append_nil, List.dropWhile_eq_nil_iff]
      exact white
    | cons c rest =>
      refine ⟨back, dropWhile_eq_iff.mpr ⟨⟨front, List.append_assoc .., whiteFront⟩, ?_⟩, whiteBack⟩
      exact first

/-- Text without white space stays as it is. -/
theorem trimmed_of_forall {chars : List Char}
    (plain : ∀ c ∈ chars, isWhiteSpace c = false) : trimmed chars = chars :=
  trimmed_eq_iff.mpr
    { between := ⟨[], [], by simp, by simp⟩
      first := fun c head => plain c (List.mem_of_head? head)
      last := fun c final => plain c (List.mem_of_getLast? final) }

end Text

end ChainLedger

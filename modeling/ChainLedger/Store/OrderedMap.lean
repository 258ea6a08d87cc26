import ChainLedger.Bytes

/-!
# Maps in key order

A map from byte strings to values is the list of its entries in strictly ascending
order of their keys. Looking a key up after an insertion or a removal depends on
that key alone.
-/

namespace ChainLedger

/-- A map whose entries are listed in the order of their keys. -/
structure OrderedMap (β : Type) where
  entries : List (Bytes × β)
  ascending : entries.Pairwise fun a b => a.1 < b.1

namespace OrderedMap

variable {β : Type}

/-- The map without entries. -/
def empty : OrderedMap β := ⟨[], .nil⟩

instance : Inhabited (OrderedMap β) := ⟨empty⟩

@[ext] theorem ext {m n : OrderedMap β} (entries : m.entries = n.entries) : m = n := by
  cases m; cases n; simp_all

def isEmpty (m : OrderedMap β) : Bool := m.entries.isEmpty

/-- The number of entries. -/
def size (m : OrderedMap β) : Nat := m.entries.length

/-- The value of a key. -/
def get? (m : OrderedMap β) (key : Bytes) : Option β := m.entries.lookup key

def contains (m : OrderedMap β) (key : Bytes) : Bool := (m.get? key).isSome

/-! ## Insertion and removal -/

/-- Puts an entry in its place, instead of one with the same key. -/
def insertEntry (key : Bytes) (value : β) : List (Bytes × β) → List (Bytes × β)
  | [] => [(key, value)]
  | entry :: rest =>
    if key < entry.1 then (key, value) :: entry :: rest
    else if key = entry.1 then (key, value) :: rest
    else entry :: insertEntry key value rest

theorem mem_insertEntry {key : Bytes} {value : β} {entries : List (Bytes × β)} {entry : Bytes × β}
    (member : entry ∈ insertEntry key value entries) :
    entry = (key, value) ∨ entry ∈ entries := by
  induction entries with
  | nil => simpa [insertEntry] using member
  | cons head rest ih =>
    simp only [insertEntry] at member
    split at member
    · simpa using member
    · split at member
      · rcases List.mem_cons.mp member with here | there
        · exact .inl here
        · exact .inr (List.mem_cons_of_mem _ there)
      · rcases List.mem_cons.mp member with here | there
        · exact .inr (here ▸ List.mem_cons_self)
        · exact (ih there).imp_right (List.mem_cons_of_mem _)

theorem lt_of_not_lt_of_ne {a b : Bytes} (notLess : ¬a < b) (different : a ≠ b) : b < a := by
  rcases Decidable.em (b < a) with greater | notGreater
  · exact greater
  · exact absurd (List.le_antisymm (List.not_lt.mp notGreater) (List.not_lt.mp notLess)) different

theorem ascending_insertEntry {key : Bytes} {value : β} {entries : List (Bytes × β)}
    (ascending : entries.Pairwise fun a b => a.1 < b.1) :
    (insertEntry key value entries).Pairwise fun a b => a.1 < b.1 := by
  induction entries with
  | nil => simp [insertEntry]
  | cons head rest ih =>
    obtain ⟨below, ascending⟩ := List.pairwise_cons.mp ascending
    simp only [insertEntry]
    split
    next less =>
      refine .cons (fun entry member => ?_) (.cons below ascending)
      rcases List.mem_cons.mp member with rfl | there
      · exact less
      · exact List.lt_trans less (below _ there)
    next notLess =>
      split
      next same => exact .cons (fun entry member => same ▸ below _ member) ascending
      next different =>
        refine .cons (fun entry member => ?_) (ih ascending)
        rcases mem_insertEntry member with rfl | there
        · exact lt_of_not_lt_of_ne notLess different
        · exact below _ there

/-- The map with a value for a key. -/
def insert (m : OrderedMap β) (key : Bytes) (value : β) : OrderedMap β :=
  ⟨insertEntry key value m.entries, ascending_insertEntry m.ascending⟩

/-- The entries whose keys pass a test. -/
def restrict (m : OrderedMap β) (keep : Bytes → Bool) : OrderedMap β :=
  ⟨m.entries.filter fun entry => keep entry.1, m.ascending.filter _⟩

/-- The map without a key. -/
def erase (m : OrderedMap β) (key : Bytes) : OrderedMap β := m.restrict (· != key)

/-- The map with a value for a key, or without the key. -/
def assign (m : OrderedMap β) (key : Bytes) : Option β → OrderedMap β
  | some value => m.insert key value
  | none => m.erase key

/-- The map that holds the given entries, the last one of each key. -/
def ofList (entries : List (Bytes × β)) : OrderedMap β :=
  entries.foldl (fun m entry => m.insert entry.1 entry.2) empty

/-! ## Looking keys up -/

theorem lookup_cons_of_ne {key other : Bytes} (different : other ≠ key) (value : β)
    (rest : List (Bytes × β)) : ((key, value) :: rest).lookup other = rest.lookup other := by
  have unequal : (other == key) = false := beq_eq_false_iff_ne.mpr different
  simp [List.lookup_cons, unequal]

theorem lookup_insertEntry (key other : Bytes) (value : β) (entries : List (Bytes × β)) :
    (insertEntry key value entries).lookup other =
      if other = key then some value else entries.lookup other := by
  induction entries with
  | nil =>
    by_cases same : other = key
    · subst same
      simp [insertEntry]
    · simp [insertEntry, lookup_cons_of_ne same, same]
  | cons head rest ih =>
    obtain ⟨front, held⟩ := head
    simp only [insertEntry]
    split
    · by_cases same : other = key
      · subst same
        simp
      · simp [lookup_cons_of_ne same, same]
    · split
      next equal =>
        subst equal
        by_cases same : other = key
        · subst same
          simp
        · simp [lookup_cons_of_ne same, same]
      next different =>
        by_cases first : other = front
        · subst first
          simp [Ne.symm different]
        · simp [lookup_cons_of_ne first, ih]

theorem get?_insert (m : OrderedMap β) (key other : Bytes) (value : β) :
    (m.insert key value).get? other = if other = key then some value else m.get? other :=
  lookup_insertEntry key other value m.entries

theorem get?_restrict (m : OrderedMap β) (keep : Bytes → Bool) (key : Bytes) :
    (m.restrict keep).get? key = if keep key then m.get? key else none := by
  simp only [get?, restrict]
  induction m.entries with
  | nil => simp
  | cons head rest ih =>
    obtain ⟨front, held⟩ := head
    by_cases first : key = front
    · subst first
      cases kept : keep key <;> simp [kept] at ih ⊢
      exact ih
    · cases kept : keep front <;> simp [kept, lookup_cons_of_ne first, ih]

theorem get?_erase (m : OrderedMap β) (key other : Bytes) :
    (m.erase key).get? other = if other = key then none else m.get? other := by
  by_cases same : other = key <;> simp [erase, get?_restrict, same]

theorem get?_assign (m : OrderedMap β) (key other : Bytes) (value : Option β) :
    (m.assign key value).get? other = if other = key then value else m.get? other := by
  cases value with
  | none => exact get?_erase m key other
  | some value => exact get?_insert m key other value

end OrderedMap

end ChainLedger

import ChainLedger.Store.Session

/-!
# What a scan lists

A scan goes through the pending writes in key order and cuts out those below a common
front. Keys with a common front stand together in that order, so nothing is missed: a
row is listed exactly when its key has the front and the session reads it.
-/

namespace ChainLedger

/-! ## Entries and look-ups -/

namespace OrderedMap

variable {β : Type}

/-- A key below all keys of some entries is not among them. -/
theorem lookup_eq_none_of_lt {key : Bytes} {entries : List (Bytes × β)}
    (below : ∀ entry ∈ entries, key < entry.1) : entries.lookup key = none := by
  rw [List.lookup_eq_none_iff]
  intro entry member
  have less := below entry member
  have different : key ≠ entry.1 := by
    intro same
    rw [← same] at less
    exact List.lt_irrefl _ less
  exact bne_iff_ne.mpr different

/-- In key order every entry is the one that a look-up finds. -/
theorem mem_iff_lookup {entries : List (Bytes × β)}
    (ascending : entries.Pairwise fun a b => a.1 < b.1) (key : Bytes) (value : β) :
    (key, value) ∈ entries ↔ entries.lookup key = some value := by
  induction entries with
  | nil => simp
  | cons head rest ih =>
    obtain ⟨front, held⟩ := head
    rcases List.pairwise_cons.mp ascending with ⟨below, ascending⟩
    by_cases first : key = front
    · subst first
      have absent : (key, value) ∉ rest := by
        intro member
        have less : key < key := below (key, value) member
        exact List.lt_irrefl _ less
      simp [absent, eq_comm]
    · simp [lookup_cons_of_ne first, first, ih ascending]

theorem mem_entries_iff (m : OrderedMap β) (key : Bytes) (value : β) :
    (key, value) ∈ m.entries ↔ m.get? key = some value :=
  mem_iff_lookup m.ascending key value

end OrderedMap

/-! ## Overlays -/

/-- Over rows laid, a write hides the row of its key and no other. -/
theorem Session.get?_overlay {writes : List (Bytes × Option Bytes)}
    (ascending : writes.Pairwise fun a b => a.1 < b.1) (rows : Ledger) (key : Bytes) :
    (Session.overlay rows writes).get? key = (writes.lookup key).getD (rows.get? key) := by
  induction writes generalizing rows with
  | nil => rfl
  | cons head rest ih =>
    obtain ⟨front, written⟩ := head
    rcases List.pairwise_cons.mp ascending with ⟨below, ascending⟩
    have later := ih ascending (rows.assign front written)
    rw [OrderedMap.get?_assign] at later
    rw [show Session.overlay rows ((front, written) :: rest) =
      Session.overlay (rows.assign front written) rest from rfl, later]
    by_cases first : key = front
    · subst first
      rw [OrderedMap.lookup_eq_none_of_lt below]
      simp
    · rw [OrderedMap.lookup_cons_of_ne first, if_neg first]

/-- Committing a session's writes changes no row that is read. -/
theorem Session.get?_commit (s : Session) (key : Bytes) :
    s.commit.session.get? key = s.get? key := by
  have written : s.pending.entries.lookup key = s.pending.get? key := rfl
  change s.commit.get? key = _
  rw [commit, get?_overlay s.pending.ascending, written, get?]
  cases s.pending.get? key <;> rfl

/-! ## Keys with a common front -/

/-- Nothing with a front comes before that front. -/
theorem not_lt_of_isPrefix {front key : Bytes} (leads : front <+: key) : ¬key < front := by
  obtain ⟨rest, rfl⟩ := leads
  induction front with
  | nil => exact List.not_lt_nil _
  | cons byte front ih =>
    rw [List.cons_append, List.cons_lt_cons_iff, not_or, not_and]
    exact ⟨Nat.lt_irrefl _, fun _ => ih⟩

/-- What stands between a front and a key with it has the front too. -/
theorem isPrefix_of_between {front key between : Bytes} (leads : front <+: key)
    (after : ¬between < front) (before : between < key) : front <+: between := by
  induction front generalizing key between with
  | nil => exact List.nil_prefix
  | cons byte front ih =>
    obtain ⟨rest, rfl⟩ := leads
    cases between with
    | nil => exact absurd (List.nil_lt_cons byte front) after
    | cons first between =>
      rw [List.cons_lt_cons_iff, not_or, not_and] at after
      rw [List.cons_append, List.cons_lt_cons_iff] at before
      rcases before with less | ⟨rfl, before⟩
      · exact absurd less after.1
      · exact List.cons_prefix_cons.mpr ⟨rfl, ih ⟨rest, rfl⟩ (after.2 rfl) before⟩

section Cut

variable {β : Type} {front key : Bytes} {entries : List (Bytes × β)}

/-- Entries before a front are of no account to a key with it. -/
theorem lookup_dropWhile (leads : front <+: key) :
    (entries.dropWhile fun entry => entry.1 < front).lookup key = entries.lookup key := by
  induction entries with
  | nil => rfl
  | cons head rest ih =>
    obtain ⟨first, value⟩ := head
    rw [List.dropWhile_cons]
    split
    next less =>
      have different : key ≠ first := by
        rintro rfl
        exact not_lt_of_isPrefix leads (of_decide_eq_true less)
      rw [ih, OrderedMap.lookup_cons_of_ne different]
    next => rfl

/-- Past the entries with a front there are no more of them. -/
theorem lookup_takeWhile (ascending : entries.Pairwise fun a b => a.1 < b.1)
    (after : ∀ entry ∈ entries, ¬entry.1 < front) (leads : front <+: key) :
    (entries.takeWhile fun entry => front.isPrefixOf entry.1).lookup key = entries.lookup key := by
  induction entries with
  | nil => rfl
  | cons head rest ih =>
    obtain ⟨first, value⟩ := head
    rcases List.pairwise_cons.mp ascending with ⟨below, ascending⟩
    rw [List.takeWhile_cons]
    split
    next =>
      have later := ih ascending fun entry member => after entry (List.mem_cons_of_mem _ member)
      rw [List.lookup_cons, List.lookup_cons, later]
    next stopped =>
      have unled : ¬front <+: first := fun led => stopped (List.isPrefixOf_iff_prefix.mpr led)
      have different : key ≠ first := fun same => unled (same ▸ leads)
      rw [OrderedMap.lookup_cons_of_ne different]
      cases found : rest.lookup key with
      | none => rfl
      | some held =>
        have member := (OrderedMap.mem_iff_lookup ascending key held).mpr found
        have between := isPrefix_of_between leads (after _ List.mem_cons_self) (below _ member)
        exact absurd between unled

/-- In key order nothing that is left once the entries before a front are dropped is before it. -/
theorem not_lt_of_mem_dropWhile (ascending : entries.Pairwise fun a b => a.1 < b.1)
    {entry : Bytes × β} (member : entry ∈ entries.dropWhile fun entry => entry.1 < front) :
    ¬entry.1 < front := by
  induction entries with
  | nil => cases member
  | cons head rest ih =>
    rcases List.pairwise_cons.mp ascending with ⟨below, ascending⟩
    rw [List.dropWhile_cons] at member
    split at member
    next => exact ih ascending member
    next kept =>
      have first : ¬head.1 < front := by simpa using kept
      rcases List.mem_cons.mp member with rfl | later
      · exact first
      · exact fun less => first (List.lt_trans (below _ later) less)

end Cut

/-! ## Scans -/

namespace Session

/-- The pending writes that a scan lays over the committed rows. -/
theorem lookup_scanned (s : Session) (front key : Bytes) :
    ((s.pending.entries.dropWhile fun write => write.1 < front).takeWhile
        fun write => front.isPrefixOf write.1).lookup key =
      if front <+: key then s.pending.get? key else none := by
  have ascending := s.pending.ascending.sublist
    (List.dropWhile_sublist fun write => decide (write.1 < front))
  split
  next leads =>
    have after : ∀ write ∈ s.pending.entries.dropWhile fun write => write.1 < front,
        ¬write.1 < front :=
      fun _ member => not_lt_of_mem_dropWhile s.pending.ascending member
    rw [lookup_takeWhile ascending after leads, lookup_dropWhile leads, OrderedMap.get?]
  next unled =>
    rw [List.lookup_eq_none_iff]
    intro write member
    have led := List.all_eq_true.mp List.all_takeWhile write member
    have different : key ≠ write.1 := by
      rintro rfl
      exact unled (List.isPrefixOf_iff_prefix.mp led)
    exact bne_iff_ne.mpr different

/-- A scan lists its rows in the order of their keys. -/
theorem scan_ascending (s : Session) (front : Bytes) :
    (s.scan front).Pairwise fun a b => a.1 < b.1 :=
  (overlay _ _).ascending

/-- **A scan lists what is there.** Its rows are those that the session reads under keys with
the front. -/
theorem mem_scan {s : Session} {front key row : Bytes} :
    (key, row) ∈ s.scan front ↔ front <+: key ∧ s.get? key = some row := by
  have ascending := (s.pending.ascending.sublist
    (List.dropWhile_sublist fun write => decide (write.1 < front))).sublist
    (List.takeWhile_sublist fun write => front.isPrefixOf write.1)
  have found := get?_overlay ascending (s.committed.restrict front.isPrefixOf) key
  rw [lookup_scanned, OrderedMap.get?_restrict] at found
  rw [scan, OrderedMap.mem_entries_iff, found]
  by_cases leads : front <+: key
  · have passes : front.isPrefixOf key = true := List.isPrefixOf_iff_prefix.mpr leads
    simp only [leads, passes, if_true, true_and, get?]
    cases s.pending.get? key <;> simp
  · have fails : front.isPrefixOf key = false := by
      rw [Bool.eq_false_iff]
      exact fun passes => leads (List.isPrefixOf_iff_prefix.mp passes)
    simp [leads, fails]

end Session

end ChainLedger

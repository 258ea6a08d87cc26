import ChainLedger.Store.OrderedMap

/-!
# Sessions

A ledger is a map from keys to rows. A session reads it through an overlay of
pending writes, in which a key without a row is one to be removed. Nothing of a
session is in the ledger before its writes are committed, all at once.
-/

namespace ChainLedger

/-- The rows of a ledger, under their keys. -/
abbrev Ledger := OrderedMap Bytes

/-- Committed rows under a layer of pending writes. -/
structure Session where
  committed : Ledger
  pending : OrderedMap (Option Bytes)

/-- A session without writes. -/
def OrderedMap.session (ledger : Ledger) : Session := ⟨ledger, .empty⟩

namespace Session

/-- The row under a key: a pending write hides what is committed. -/
def get? (s : Session) (key : Bytes) : Option Bytes :=
  match s.pending.get? key with
  | some written => written
  | none => s.committed.get? key

def contains (s : Session) (key : Bytes) : Bool := (s.get? key).isSome

/-- Writes a row. -/
def put (s : Session) (key row : Bytes) : Session :=
  { s with pending := s.pending.insert key (some row) }

/-- Removes a row. -/
def remove (s : Session) (key : Bytes) : Session :=
  { s with pending := s.pending.insert key none }

/-- Removes several rows. -/
def removeAll (s : Session) (keys : List Bytes) : Session := keys.foldl remove s

theorem get?_put (s : Session) (key row other : Bytes) :
    (s.put key row).get? other = if other = key then some row else s.get? other := by
  simp only [get?, put, OrderedMap.get?_insert]
  by_cases same : other = key <;> simp [same]

theorem get?_remove (s : Session) (key other : Bytes) :
    (s.remove key).get? other = if other = key then none else s.get? other := by
  simp only [get?, remove, OrderedMap.get?_insert]
  by_cases same : other = key <;> simp [same]

/-- The keys written or removed so far. -/
def pendingWrites (s : Session) : Nat := s.pending.size

/-- Lays writes over rows. -/
def overlay (rows : Ledger) (writes : List (Bytes × Option Bytes)) : Ledger :=
  writes.foldl (fun rows write => rows.assign write.1 write.2) rows

/-- The rows whose keys begin with the given bytes, in the order of their keys. -/
def scan (s : Session) (front : Bytes) : List (Bytes × Bytes) :=
  let below := s.committed.restrict front.isPrefixOf
  let above := s.pending.entries.dropWhile fun write => write.1 < front
  (overlay below (above.takeWhile fun write => front.isPrefixOf write.1)).entries

/-- The ledger once every pending write is applied to it. -/
def commit (s : Session) : Ledger := overlay s.committed s.pending.entries

end Session

end ChainLedger

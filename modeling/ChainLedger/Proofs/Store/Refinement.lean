import ChainLedger.Proofs.Store.Scan
import ChainLedger.Store.Database
import Mathlib.Data.List.Sort

/-!
# A session is its plain map

A ledger is told by what its keys look up. So the ledger that a session would commit is
all there is to know of the session: looking keys up and scanning give what that map
gives, and one more write is one more assignment to it. By induction on the requests,
a session reads what its own writes make of the committed rows, whatever the other
sessions on the database write in between.
-/

namespace ChainLedger

namespace OrderedMap

variable {β : Type}

/-- Maps in key order that look every key up alike are the same map. -/
theorem ext_get? {m n : OrderedMap β} (same : ∀ key, m.get? key = n.get? key) : m = n := by
  have irreflexive : Std.Irrefl fun a b : Bytes × β => a.1 < b.1 := ⟨fun _ => List.lt_irrefl _⟩
  refine ext (m.ascending.eq_of_mem_iff n.ascending fun entry => ?_)
  rw [mem_entries_iff, mem_entries_iff, same]

end OrderedMap

/-! ## One session -/

namespace Session

theorem get?_assign (s : Session) (key other : Bytes) (row : Option Bytes) :
    (s.assign key row).get? other = if other = key then row else s.get? other := by
  cases row with
  | none => exact get?_remove s key other
  | some row => exact get?_put s key row other

/-- What a session reads under a key stands in the ledger that it would commit. -/
theorem get?_eq_get?_commit (s : Session) (key : Bytes) : s.get? key = s.commit.get? key :=
  (s.get?_commit key).symm

theorem contains_eq_contains_commit (s : Session) (key : Bytes) :
    s.contains key = s.commit.contains key := by
  rw [contains, get?_eq_get?_commit, OrderedMap.contains]

/-- A scan lists the ledger that would be committed, as far as the keys have the front. -/
theorem scan_eq (s : Session) (front : Bytes) :
    s.scan front = (s.commit.restrict front.isPrefixOf).entries := by
  have listed (key row : Bytes) :
      (key, row) ∈ s.scan front ↔ (key, row) ∈ (s.commit.restrict front.isPrefixOf).entries := by
    rw [mem_scan, OrderedMap.mem_entries_iff, OrderedMap.get?_restrict, ← get?_eq_get?_commit,
      ← List.isPrefixOf_iff_prefix]
    split
    next leads => simp [leads]
    next leads => simp [leads]
  refine congrArg OrderedMap.entries (OrderedMap.ext_get? fun key => Option.ext fun row => ?_)
  rw [← OrderedMap.mem_entries_iff, ← OrderedMap.mem_entries_iff]
  exact listed key row

/-- Sessions that read alike commit the same ledger. -/
theorem commit_eq {s t : Session} (same : ∀ key, s.get? key = t.get? key) :
    s.commit = t.commit := by
  refine OrderedMap.ext_get? fun key => ?_
  rw [← get?_eq_get?_commit, ← get?_eq_get?_commit, same]

/-- One write more to a session is one assignment more to the ledger that it would commit. -/
theorem commit_assign (s : Session) (key : Bytes) (row : Option Bytes) :
    (s.assign key row).commit = s.commit.assign key row := by
  refine OrderedMap.ext_get? fun other => ?_
  rw [← get?_eq_get?_commit, get?_assign, OrderedMap.get?_assign, get?_eq_get?_commit]

/-- **Writes to a session are writes to the ledger that it would commit.** -/
theorem commit_assignAll (s : Session) (writes : List (Bytes × Option Bytes)) :
    (s.assignAll writes).commit = overlay s.commit writes := by
  induction writes generalizing s with
  | nil => rfl
  | cons write rest ih =>
    have later := ih (s.assign write.1 write.2)
    rw [commit_assign] at later
    exact later

end Session

/-! ## Several sessions on one ledger -/

namespace Database

variable (db : Database) (n : Nat)

@[simp] theorem session_discard : (db.discard n).session n = db.committed.session := by
  simp [session, discard, OrderedMap.session]

theorem session_assign (key : Bytes) (row : Option Bytes) :
    (db.session n).assign key row =
      ⟨db.committed, ((db.session n).assign key row).pending⟩ := by
  cases row <;> rfl

/-- A request reaches the session that makes it, and no other. -/
theorem session_serve (request : Request) :
    (db.serve request).session n =
      if request.session = n then (db.session n).assign request.key request.row
      else db.session n := by
  split
  next own =>
    subst own
    rw [session_assign]
    simp [serve, session]
  next foreign =>
    have other : n ≠ request.session := Ne.symm foreign
    simp [serve, session, other]

/-- **A session sees its own writes only**, among all that are made on the database. -/
theorem session_serveAll (requests : List Request) :
    (db.serveAll requests).session n =
      (db.session n).assignAll (Request.writesOf n requests) := by
  induction requests generalizing db with
  | nil => rfl
  | cons request rest ih =>
    have later := ih (db.serve request)
    rw [session_serve] at later
    refine later.trans ?_
    by_cases own : request.session = n <;> simp [own, Request.writesOf, Session.assignAll]

/-- Requests leave the ledger itself alone. -/
theorem committed_serveAll (requests : List Request) :
    (db.serveAll requests).committed = db.committed := by
  induction requests generalizing db with
  | nil => rfl
  | cons request rest ih => exact ih (db.serve request)

/-- What other sessions ask for is no part of what a session writes. -/
theorem writesOf_filter {m n : Nat} (other : m ≠ n) (requests : List Request) :
    Request.writesOf m (requests.filter (·.session != n)) = Request.writesOf m requests := by
  rw [Request.writesOf, Request.writesOf, List.filter_filter]
  congr 1
  refine List.filter_congr fun request _ => ?_
  by_cases own : request.session = m <;> simp [own, other]

/-- **A session is its plain map.** Whatever the sessions on a database write, in any order,
one that began with nothing pending looks keys up and scans as the committed rows do once its
own writes are applied to them in order. Committing it makes the ledger that map, and giving
it up leaves the ledger as it was. Until then the others see what they would without it. -/
theorem session_refines (requests : List Request) :
    let written := (db.discard n).serveAll requests
    let plain := Session.overlay db.committed (Request.writesOf n requests)
    (∀ key, (written.session n).get? key = plain.get? key) ∧
    (∀ key, (written.session n).contains key = plain.contains key) ∧
    (∀ front, (written.session n).scan front = (plain.restrict front.isPrefixOf).entries) ∧
    (written.commit n).committed = plain ∧
    (written.discard n).committed = db.committed ∧
    written.committed = db.committed ∧
    ∀ m ≠ n, written.session m =
      ((db.discard n).serveAll (requests.filter (·.session != n))).session m := by
  intro written plain
  have view : (written.session n).commit = plain := by
    rw [session_serveAll, session_discard, Session.commit_assignAll]
    rfl
  refine ⟨fun key => ?_, fun key => ?_, fun front => ?_, view, ?_, ?_, fun m other => ?_⟩
  · rw [Session.get?_eq_get?_commit, view]
  · rw [Session.contains_eq_contains_commit, view]
  · rw [Session.scan_eq, view]
  · exact committed_serveAll _ requests
  · exact committed_serveAll _ requests
  · rw [session_serveAll, session_serveAll, writesOf_filter other]

end Database

end ChainLedger

import ChainLedger.Store.Session
import Mathlib.Logic.Function.Basic

/-!
# Databases

A database is a ledger on which several sessions are open at a time. All of them read the
same committed rows, each through the writes that are pending in it alone.
-/

namespace ChainLedger

/-- Writes a row under a key, or removes what is there. -/
def Session.assign (s : Session) (key : Bytes) : Option Bytes → Session
  | some row => s.put key row
  | none => s.remove key

/-- Writes and removes rows in the order given. -/
def Session.assignAll (s : Session) (writes : List (Bytes × Option Bytes)) : Session :=
  writes.foldl (fun s write => s.assign write.1 write.2) s

/-- A row that a numbered session writes under a key, or that it removes. -/
structure Request where
  session : Nat
  key : Bytes
  row : Option Bytes

/-- What one session asks for, in order. -/
def Request.writesOf (n : Nat) (requests : List Request) : List (Bytes × Option Bytes) :=
  (requests.filter (·.session == n)).map fun request => (request.key, request.row)

/-- A ledger, and the pending writes of each session on it. -/
structure Database where
  committed : Ledger
  pending : Nat → OrderedMap (Option Bytes)

namespace Database

/-- What a session reads. -/
def session (db : Database) (n : Nat) : Session := ⟨db.committed, db.pending n⟩

/-- Nothing is pending in a session that is opened, rolled back or dropped. -/
def discard (db : Database) (n : Nat) : Database :=
  { db with pending := Function.update db.pending n .empty }

/-- A session writes or removes a row. -/
def serve (db : Database) (request : Request) : Database :=
  let written := (db.session request.session).assign request.key request.row
  { db with pending := Function.update db.pending request.session written.pending }

/-- The sessions' requests, one after the other. -/
def serveAll (db : Database) (requests : List Request) : Database := requests.foldl serve db

/-- A session's writes become rows of the ledger, and it ends. -/
def commit (db : Database) (n : Nat) : Database :=
  { committed := (db.session n).commit, pending := Function.update db.pending n .empty }

end Database

end ChainLedger

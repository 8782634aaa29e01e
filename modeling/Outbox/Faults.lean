import Outbox.Store.Walk
import Outbox.Store.Put
import Outbox.Store.Removal
import Outbox.Store.Recount

namespace Outbox

/-!
# Stores that misbehave

* `Faults` — which operations on a store fail, die, do nothing or tell a wrong number.
* `Faults.none` — the store is as it should be.
* `Faults.scan`, `Faults.put`, `Faults.remove`, … — the operations on a store with these faults.

An operation that fails on account of a fault does not reach the store.
-/

/-- What goes wrong with a store. A text is what the failing operation reports. -/
structure Faults where
  opening : Option String
  putting : Option String
  /-- A put kills the thread that it runs on. -/
  putDies : Bool
  scanning : Option String
  removing : Option String
  /-- A removal leaves everything as it is. -/
  removesNothing : Bool
  walking : Option String
  recounting : Option String
  closing : Option String
  /-- How many entries the count tells too many. -/
  overstated : Nat
  /-- Why a transaction that removes something cannot be committed. -/
  committing : Option EngineFault
  /-- Why a put cannot be committed. -/
  landing : Option EngineFault
  /-- Why the files cannot be flushed when the store is closed. -/
  syncing : Option EngineFault
  deriving DecidableEq

namespace Faults

/-- Nothing goes wrong. -/
def none : Faults :=
  ⟨.none, .none, false, .none, .none, false, .none, .none, .none, 0, .none, .none, .none⟩

/-- What a failing operation reports. -/
def report {α : Type} (text : String) : Except StoreFault α := .error (.reported text)

/-- The first entries. -/
def scan (f : Faults) (s : Store) (limit : Nat) : Except StoreFault (List Entry) :=
  match f.scanning with
  | some text => report text
  | .none => s.scan limit

/-- The number of entries, as it is told. -/
def count (f : Faults) (s : Store) : Nat :=
  s.count + f.overstated

/-- A put before its first step. -/
def put (f : Faults) (key value : Bytes) : PutOp :=
  match f.putting with
  | some text => .done (report text)
  | .none => .entering key value

/-- A removal before its first step. -/
def remove (f : Faults) (keys : List Bytes) : RemovalOp :=
  match f.removing with
  | some text => .done (report text)
  | .none => if f.removesNothing then .done (.ok 0) else .entering keys

/-- A locked walk before its first step. -/
def walk (f : Faults) : WalkOp :=
  match f.walking with
  | some text => .done (report text)
  | .none => .entering

/-- A recount before its first step. -/
def recount (f : Faults) : RecountOp :=
  match f.recounting with
  | some text => .done (report text)
  | .none => .entering

/-- Closes the store, which is closed even if its files cannot be flushed; a store that is closed
    already has nothing to flush. -/
def close (f : Faults) (s : Store) : Except StoreFault Unit × Store :=
  match f.closing with
  | some text => (report text, s)
  | .none =>
    (match f.syncing with
      | some fault => if s.closed then .ok () else .error (.engine fault)
      | .none => .ok (), s.close)

@[simp] theorem scan_none (s : Store) (limit : Nat) : none.scan s limit = s.scan limit := rfl

@[simp] theorem count_none (s : Store) : none.count s = s.count := rfl

@[simp] theorem put_none (key value : Bytes) : none.put key value = .entering key value := rfl

@[simp] theorem remove_none (keys : List Bytes) : none.remove keys = .entering keys := rfl

@[simp] theorem walk_none : none.walk = .entering := rfl

@[simp] theorem recount_none : none.recount = .entering := rfl

@[simp] theorem close_none (s : Store) : none.close s = (.ok (), s.close) := rfl

end Faults

end Outbox

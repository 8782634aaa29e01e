import Outbox.Journal
import Outbox.Store.Basic

namespace Outbox

/-!
# Removals

* `RemovalOp` — how far the removal of some keys has come.
* `RemovalOp.step` — its next step, unless it is done or waits for the lock.
* `Store.remove` — a whole removal, where nothing comes between its steps.

The counters follow a commit: the count is lowered by the number of removed entries, but not below
zero, and the deletes are raised by it.
-/

/-- How far a removal has come. -/
inductive RemovalOp where
  /-- About to see whether the store is open and there is a key at all. -/
  | entering (keys : List Bytes)
  /-- About to take the lock. -/
  | locking (keys : List Bytes)
  /-- About to delete the keys. -/
  | erasing (keys : List Bytes)
  /-- About to commit. -/
  | committing (removed : Nat)
  /-- About to lower the count. -/
  | releasing (removed : Nat)
  /-- About to raise the deletes. -/
  | tallying (removed : Nat)
  | done (result : Except StoreFault Nat)

namespace RemovalOp

/-- A table without some keys, the number of entries that are gone, and the incidents. -/
def eraseKeys : (keys : List Bytes) → Table → Table × Nat × Journal
  | [], t => (t, 0, [])
  | key :: keys, t =>
    if key = [] then
      let (t, removed, journal) := eraseKeys keys t
      (t, removed, .incident (.keyNotDeleted key .badValueSize) :: journal)
    else if t.contains key then
      let (t, removed, journal) := eraseKeys keys (t.erase key)
      (t, removed + 1, journal)
    else eraseKeys keys t

/-- The next step, with what it reports; `failure` says why a commit would fail. -/
def step (failure : Option EngineFault) : RemovalOp → Store → Option (RemovalOp × Store × Journal)
  | entering keys, s =>
    if s.closed then some (done (.error .closed), s, [])
    else if keys.isEmpty then some (done (.ok 0), s, [])
    else some (locking keys, s, [])
  | locking keys, s => s.lock.map fun s => (erasing keys, s, [])
  | erasing keys, s =>
    let (t, removed, journal) := eraseKeys keys s.working
    some (committing removed, { s with writer := some t }, journal)
  | committing removed, s =>
    match failure with
    | some fault => some (done (.error (.engine fault)), s.failCommit, [])
    | none =>
      some (if removed = 0 then done (.ok 0) else releasing removed, s.commit, [])
  | releasing removed, s => some (tallying removed, s.release removed, [])
  | tallying removed, s =>
    some (done (.ok removed), { s with deletes := s.deletes + removed }, [])
  | done _, _ => none

/-- The result of a removal that is done. -/
def result? : RemovalOp → Option (Except StoreFault Nat)
  | done r => some r
  | _ => none

end RemovalOp

/-- Removes the entries of some keys and gives their number. -/
def Store.remove (s : Store) (keys : List Bytes) :
    Option (Except StoreFault Nat) × Store × Journal :=
  let (op, s, journal) := Store.iterate
    (fun (op, s, journal) =>
      (RemovalOp.step none op s).map fun (op, s, more) => (op, s, journal ++ more))
    6 (.entering keys, s, ([] : Journal))
  (op.result?, s, journal)

end Outbox

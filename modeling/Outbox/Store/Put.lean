import Outbox.Store.Basic

namespace Outbox

/-!
# Puts

* `PutOp` — how far a put has come.
* `PutOp.step` — the next step of a put, unless it is done or waits for the lock.
* `Store.put` — a whole put, where nothing comes between its steps.

A put looks its key up, writes, counts a new key, and commits. Where the commit fails, the lock is
free, and only then is the counting taken back; a recount that comes in between overwrites the
counter without the entry, and what is taken back is then missing.
-/

/-- How far a put has come. -/
inductive PutOp where
  /-- About to see whether the store is open. -/
  | entering (key value : Bytes)
  /-- About to take the lock. -/
  | locking (key value : Bytes)
  /-- About to look the key up and write the entry. -/
  | writing (key value : Bytes)
  /-- About to count the entry, if its key is new. -/
  | counting (isNew : Bool)
  /-- About to commit. -/
  | committing (isNew : Bool)
  /-- About to count the put. -/
  | tallying
  /-- About to take the counting of the entry back, for the commit has failed. -/
  | retracting (isNew : Bool) (fault : EngineFault)
  /-- About to count the failed commit. -/
  | failing (fault : EngineFault)
  | done (result : Except StoreFault Unit)

namespace PutOp

/-- Why an entry cannot be written. -/
def refusal? (key value : Bytes) (mapSize : Nat) : Option EngineFault :=
  if key = [] ∨ Store.maxKeySize < key.length then some .badValueSize
  else if mapSize < value.length then some .mapFull
  else none

/-- The next step; `failure` says why a commit would fail. -/
def step (failure : Option EngineFault) : PutOp → Store → Option (PutOp × Store)
  | entering key value, s =>
    if s.closed then some (done (.error .closed), s) else some (locking key value, s)
  | locking key value, s => s.lock.map fun s => (writing key value, s)
  | writing key value, s =>
    match refusal? key value s.mapSize with
    | some fault => some (done (.error (.engine fault)), s.abort)
    | none =>
      some (counting (!s.working.contains key),
        { s with writer := some (s.working.insert key value) })
  | counting isNew, s => some (committing isNew, if isNew then s.bump else s)
  | committing isNew, s =>
    match failure with
    | none => some (tallying, s.commit)
    | some fault => some (retracting isNew fault, s.abort)
  | tallying, s => some (done (.ok ()), { s with puts := s.puts + 1 })
  | retracting isNew fault, s => some (failing fault, if isNew then s.retract else s)
  | failing fault, s =>
    some (done (.error (.engine fault)), { s with failedCommits := s.failedCommits + 1 })
  | done _, _ => none

/-- The result of a put that is done. -/
def result? : PutOp → Option (Except StoreFault Unit)
  | done r => some r
  | _ => none

end PutOp

/-- Sets a key to a value. A put that finds the lock taken has no result. -/
def Store.put (s : Store) (key value : Bytes) : Option (Except StoreFault Unit) × Store :=
  let (op, s) := Store.iterate (fun (op, s) => PutOp.step none op s) 8 (.entering key value, s)
  (op.result?, s)

end Outbox

import Outbox.Store.Basic

namespace Outbox

/-!
# Recounts

* `RecountOp` — how far a recount of the entries has come.
* `RecountOp.step` — its next step, unless it is done or waits for the lock.
* `Store.recount` — a whole recount, where nothing comes between its steps.

The lock keeps puts out while the entries are counted and the counter is overwritten; all but those
whose commit has failed and that are about to take their counting back, which need no lock for it.
-/

/-- How far a recount has come. -/
inductive RecountOp where
  /-- About to see whether the store is open. -/
  | entering
  /-- About to take the lock. -/
  | locking
  /-- About to count the entries. -/
  | recounting
  /-- About to overwrite the counter. -/
  | storing (actual : Nat)
  /-- About to let go of the lock. -/
  | unlocking (actual : Nat)
  | done (result : Except StoreFault Nat)

namespace RecountOp

/-- The next step. -/
def step : RecountOp → Store → Option (RecountOp × Store)
  | entering, s => some (if s.closed then done (.error .closed) else locking, s)
  | locking, s => s.lock.map fun s => (recounting, s)
  | recounting, s => some (storing s.working.size, s)
  | storing actual, s => some (unlocking actual, s.recounted actual)
  | unlocking actual, s => some (done (.ok actual), s.abort)
  | done _, _ => none

/-- The result of a recount that is done. -/
def result? : RecountOp → Option (Except StoreFault Nat)
  | done r => some r
  | _ => none

end RecountOp

/-- Sets the counter to the number of entries. -/
def Store.recount (s : Store) : Option (Except StoreFault Nat) × Store :=
  let (op, s) := Store.iterate (fun (op, s) => RecountOp.step op s) 5 (.entering, s)
  (op.result?, s)

end Outbox

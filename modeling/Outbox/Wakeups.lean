namespace Outbox

/-!
# Wake-ups

What a parked forwarder is woken by:

* `Wakeups` — wake-ups that nobody has taken yet, and a count of the rings of its bell.
* `push`, `pushShutdown` — every wake-up rings the bell, also one that is not queued.
* `take`, `clear` — take all wake-ups, and give the oldest or nothing.
-/

/-- Why the forwarder is woken. -/
inductive Wake where
  /-- An entry was committed. -/
  | committed
  /-- The queue is shut down. -/
  | shutdown
  deriving DecidableEq, Repr

/-- Wake-ups, the oldest first. -/
structure Wakeups where
  pending : List Wake
  /-- How often the bell has rung. One who sleeps until the bell rings remembers the number. -/
  rings : Nat
  deriving DecidableEq, Repr

namespace Wakeups

/-- No wake-ups. -/
def empty : Wakeups := ⟨[], 0⟩

/-- The number of wake-ups. -/
def size (q : Wakeups) : Nat := q.pending.length

/-- Whether there is no wake-up. -/
def isEmpty (q : Wakeups) : Bool := q.pending.isEmpty

/-- Queues a wake-up and rings the bell. -/
def push (q : Wakeups) (w : Wake) : Wakeups :=
  ⟨q.pending ++ [w], q.rings + 1⟩

/-- Rings the bell, and queues a wake-up if there is none. -/
def pushShutdown (q : Wakeups) : Wakeups :=
  ⟨if q.pending.isEmpty then [.shutdown] else q.pending, q.rings + 1⟩

/-- Drops all wake-ups. -/
def clear (q : Wakeups) : Wakeups :=
  { q with pending := [] }

/-- Takes all wake-ups and gives the oldest. -/
def take (q : Wakeups) : Option Wake × Wakeups :=
  (q.pending.head?, q.clear)

/-- Whether one who waits for a wake-up until a deadline goes on. -/
def releases (q : Wakeups) (deadline now : Nat) : Bool :=
  !q.isEmpty || deadline ≤ now

@[simp] theorem pending_clear (q : Wakeups) : q.clear.pending = [] := rfl

@[simp] theorem pending_push (q : Wakeups) (w : Wake) :
    (q.push w).pending = q.pending ++ [w] := rfl

theorem isEmpty_push (q : Wakeups) (w : Wake) : (q.push w).isEmpty = false := by
  simp [isEmpty]

theorem isEmpty_pushShutdown (q : Wakeups) : q.pushShutdown.isEmpty = false := by
  unfold pushShutdown isEmpty
  split <;> simp_all

end Wakeups

end Outbox

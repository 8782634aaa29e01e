import Outbox.Error
import Outbox.StoreStats
import Outbox.Table

namespace Outbox

/-!
# Open stores

* `Store` — an open store: the committed entries, the working copy of the write transaction that
  holds the write lock, and counters beside them.
* `Store.lock`, `Store.commit`, `Store.abort` — write transactions.
* `Store.count`, `Store.bump`, `Store.retract`, `Store.release`, `Store.recounted` — the counter of
  the entries.
* `Store.scan`, `Store.stats`, `Store.close` — the operations that take no write lock.
* `Store.iterate` — takes the steps of an operation as long as there is one.

The operations that take the lock are given step by step in the modules `Outbox.Store.Put`,
`Outbox.Store.Removal`, `Outbox.Store.Walk` and `Outbox.Store.Recount`.
-/

/-- An open store. -/
structure Store where
  /-- What is committed; readers see this and nothing else. -/
  table : Table
  /-- What the write transaction that holds the lock has made of the table. -/
  writer : Option Table
  /-- How many entries are counted. The counter is raised before a commit and lowered after one; it
      is a word of 64 bits, and below zero it stands for one that has been counted down past its
      end. -/
  counter : Int
  puts : Nat
  deletes : Nat
  failedCommits : Nat
  closed : Bool
  /-- No value may be longer than this. -/
  mapSize : Nat
  deriving DecidableEq

namespace Store

/-- A store that has just been opened. -/
def ofTable (t : Table) (mapSize : Nat) : Store :=
  ⟨t, none, t.size, 0, 0, 0, false, mapSize⟩

/-- The greatest number of bytes in a key. -/
def maxKeySize : Nat := 511

/-! ### Write transactions -/

/-- Begins a write transaction, if there is none. -/
def lock (s : Store) : Option Store :=
  match s.writer with
  | none => some { s with writer := some s.table }
  | some _ => none

/-- Ends the write transaction and keeps what it did. -/
def commit (s : Store) : Store :=
  { s with table := s.writer.getD s.table, writer := none }

/-- Ends the write transaction and forgets what it did. -/
def abort (s : Store) : Store :=
  { s with writer := none }

/-- Ends a write transaction that could not be committed. -/
def failCommit (s : Store) : Store :=
  { s.abort with failedCommits := s.failedCommits + 1 }

/-- The table as the write transaction sees it. -/
def working (s : Store) : Table :=
  s.writer.getD s.table

/-! ### The counter -/

/-- What the counter shows. Past its end, a word goes on from the top. No memory holds so many
    entries that it is counted up to the top. -/
def count (s : Store) : Nat :=
  (if s.counter < 0 then UInt64.size + s.counter else s.counter).toNat

/-- Counts one entry more. -/
def bump (s : Store) : Store :=
  { s with counter := s.counter + 1 }

/-- Takes the counting of an entry back, past the end of the counter if need be. -/
def retract (s : Store) : Store :=
  { s with counter := s.counter - 1 }

/-- Counts some entries less, but not less than none. -/
def release (s : Store) (n : Nat) : Store :=
  { s with counter := if n ≤ s.count then s.counter - n else 0 }

/-- Overwrites the counter. -/
def recounted (s : Store) (n : Nat) : Store :=
  { s with counter := n }

/-! ### Reading -/

/-- The first entries in the order of their keys. -/
def scan (s : Store) (limit : Nat) : Except StoreFault (List Entry) :=
  if s.closed then .error .closed else .ok (s.table.toList.take limit)

/-- The counters. -/
def stats (s : Store) : StoreStats :=
  ⟨.ofNat s.count, .ofNat s.puts, .ofNat s.deletes, .ofNat s.failedCommits⟩

/-- Refuses all further work. -/
def close (s : Store) : Store :=
  { s with closed := true }

/-! ### Operations step by step -/

/-- Takes steps as long as there is one, at most `fuel` of them. -/
def iterate {α : Type} (step : α → Option α) : (fuel : Nat) → α → α
  | 0, a => a
  | fuel + 1, a =>
    match step a with
    | none => a
    | some b => iterate step fuel b

/-! ### What the operations keep -/

@[simp] theorem table_abort (s : Store) : s.abort.table = s.table := rfl

@[simp] theorem count_abort (s : Store) : s.abort.count = s.count := rfl

/-- A counter that is not below zero shows itself. -/
theorem count_of_eq {s : Store} {n : Nat} (h : s.counter = n) : s.count = n := by
  unfold count
  rw [h, if_neg (by omega)]
  rfl

@[simp] theorem count_recounted (s : Store) (n : Nat) : (s.recounted n).count = n :=
  count_of_eq rfl

@[simp] theorem release_zero (s : Store) : s.release 0 = s := by
  simp [release]

/-- A subtraction is cut short where the counter shows too little. -/
@[simp] theorem count_release (s : Store) (n : Nat) : (s.release n).count = s.count - n := by
  unfold release
  split
  · next hle =>
    unfold count at hle ⊢
    dsimp only
    split at hle <;> split <;> omega
  · next hlt =>
    rw [count_of_eq (n := 0) rfl]
    omega

/-- What the counter shows can be subtracted. -/
theorem counter_release {s : Store} {n : Nat} (h : n ≤ s.count) :
    (s.release n).counter = s.counter - n :=
  if_pos h

@[simp] theorem writer_abort (s : Store) : s.abort.writer = none := rfl

@[simp] theorem table_close (s : Store) : s.close.table = s.table := rfl

theorem lock_eq_some_iff {s t : Store} :
    s.lock = some t ↔ s.writer = none ∧ t = { s with writer := some s.table } := by
  unfold lock
  cases s.writer <;> simp [eq_comm]

end Store

end Outbox

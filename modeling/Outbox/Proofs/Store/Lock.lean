import Outbox.Proofs.Store.Steps
import Outbox.Proofs.Table

namespace Outbox

/-!
# The write lock

What the steps of an operation may do to what others see of a store:

* `Files` — the committed entries and the working copy; the open stores of the same files share
  them.
* `PutOp.holds`, `RemovalOp.holds`, `WalkOp.holds`, `RecountOp.holds` — whether an operation holds
  the lock.
* `Files.Turn` — a step leaves the files alone, unless it takes the lock, holds it, or lets go of
  it.
* `PutOp.turn`, `RemovalOp.turn`, `WalkOp.turn`, `RecountOp.turn` — every step is of this kind.
-/

/-! ### Files -/

/-- What the open stores of the same files share. -/
structure Files where
  /-- What is committed. -/
  table : Table
  /-- What the write transaction that holds the lock has made of the table. -/
  writer : Option Table

/-- The files of an open store. -/
def Store.files (s : Store) : Files := ⟨s.table, s.writer⟩

/-- An open store over files that others may have changed. -/
def Store.over (s : Store) (f : Files) : Store := { s with table := f.table, writer := f.writer }

/-- The holder of the lock sees the working copy. -/
theorem Store.working_eq {s : Store} {w : Table} (h : s.files.writer = some w) : s.working = w := by
  show s.writer.getD s.table = w
  rw [show s.writer = some w from h, Option.getD_some]

/-! ### Who holds the lock -/

/-- Whether a put holds the lock. -/
def PutOp.holds : PutOp → Bool
  | writing _ _ | counting _ | committing _ => true
  | _ => false

/-- Whether a removal holds the lock. -/
def RemovalOp.holds : RemovalOp → Bool
  | erasing _ | committing _ => true
  | _ => false

/-- Whether a walk holds the lock. -/
def WalkOp.holds : WalkOp → Bool
  | walking _ _ _ | committing _ _ => true
  | _ => false

/-- Whether a recount holds the lock. -/
def RecountOp.holds : RecountOp → Bool
  | recounting | storing _ | unlocking _ => true
  | _ => false

/-- What a step does to files, by whether the lock is held before it and after it. -/
inductive Files.Turn (f : Files) : (before after : Bool) → Files → Prop
  /-- Others see no change. -/
  | stay {b : Bool} {g : Files} (same : g = f) : Turn f b b g
  /-- The lock was free and is taken. -/
  | take {g : Files} (free : f.writer = none) (table : g.table = f.table) : Turn f false true g
  /-- The working copy may change. -/
  | work {g : Files} (table : g.table = f.table) : Turn f true true g
  /-- The lock is let go of, and the working copy may become the committed entries. -/
  | leave {g : Files} : Turn f true false g

namespace Files.Turn

variable {f g : Files} {before after : Bool}

/-- Whoever does not hold a lock that is taken cannot change anything. -/
theorem eq_of_locked (h : Turn f before after g) (hb : before = false) (hw : f.writer ≠ none) :
    g = f := by
  cases h with
  | stay same => exact same
  | take free _ => exact absurd free hw
  | work => cases hb
  | leave => cases hb

/-- Only its holder changes the committed entries. -/
theorem table_eq (h : Turn f before after g) (hb : before = false) : g.table = f.table := by
  cases h with
  | stay same => rw [same]
  | take _ table => exact table
  | work => cases hb
  | leave => cases hb

/-- Whoever holds the lock after a step held it before or found it free. -/
theorem free_of_holds (h : Turn f before after g) (ha : after = true) :
    before = true ∨ f.writer = none := by
  cases h with
  | stay => exact .inl ha
  | take free _ => exact .inr free
  | work => exact .inl rfl
  | leave => cases ha

end Files.Turn

/-! ### Every step is of this kind -/

theorem PutOp.turn {failure : Option EngineFault} {op op' : PutOp} {s s' : Store}
    (h : op.step failure s = some (op', s')) : s.files.Turn op.holds op'.holds s'.files := by
  cases step_cases h with
  | refuse | enter => exact .stay rfl
  | lock free => exact .take free rfl
  | reject => exact .leave
  | write => exact .work rfl
  | countNew | countOld => exact .stay rfl
  | commit | fail => exact .leave
  | tally | retractNew | retractOld | tallyFailure => exact .stay rfl

theorem RemovalOp.turn {failure : Option EngineFault} {op op' : RemovalOp} {s s' : Store}
    {j : Journal} (h : op.step failure s = some (op', s', j)) :
    s.files.Turn op.holds op'.holds s'.files := by
  cases step_cases h with
  | refuse | pass | enter => exact .stay rfl
  | lock free => exact .take free rfl
  | erase => exact .work rfl
  | fail | commitNothing | commit => exact .leave
  | release | tally => exact .stay rfl

theorem WalkOp.turn {failure : Option EngineFault} {op op' : WalkOp} {s s' : Store}
    (h : op.step failure s = some (op', s')) : s.files.Turn op.holds op'.holds s'.files := by
  cases step_cases h with
  | refuse | enter => exact .stay rfl
  | lock free => exact .take free rfl
  | finish => exact .stay rfl
  | fail | commitNothing | commit => exact .leave
  | release | tally => exact .stay rfl

/-- An answer is a step of the walk that it is given to. -/
theorem WalkOp.turn_answer (v : Verdict) (op : WalkOp) (s : Store) :
    s.files.Turn op.holds (op.answer v s).1.holds (op.answer v s).2.files := by
  cases he : op.offered? with
  | none =>
    rw [answer_of_not_offered he]
    exact .stay rfl
  | some e =>
    obtain ⟨rest, visited, deleted, rfl⟩ := offered?_eq_some_iff.1 he
    cases v with
    | delete => exact .work rfl
    | keep => exact .stay rfl
    | stop => exact .stay rfl
    | abort => exact .leave

theorem RecountOp.turn {op op' : RecountOp} {s s' : Store} (h : op.step s = some (op', s')) :
    s.files.Turn op.holds op'.holds s'.files := by
  cases step_cases h with
  | refuse | enter => exact .stay rfl
  | lock free => exact .take free rfl
  | recount | store => exact .stay rfl
  | unlock => exact .leave

end Outbox

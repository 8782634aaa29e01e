import Outbox.Event
import Outbox.Faults
import Outbox.Wakeups

namespace Outbox

/-!
# What the threads of a queue share

* `Commits` — how many submitted commits are still running.
* `SinkStyle` — whether a sink takes a batch in one call or event by event.
* `SinkAnswer` — what comes of a call of the sink.
* `Hub` — the store, the shutdown flag, the wake-ups, the running commits and the journal.
-/

/-! ### Running commits -/

/-- The number of running commits, with a bell that rings when the last one ends. -/
structure Commits where
  running : Nat
  /-- How often the bell has rung. -/
  rings : Nat
  deriving DecidableEq, Repr

namespace Commits

/-- No commit is running. -/
def idle : Commits := ⟨0, 0⟩

/-- One more commit is running. -/
def enter (c : Commits) : Commits := { c with running := c.running + 1 }

/-- One commit less is running. -/
def leave (c : Commits) : Commits := { c with running := c.running - 1 }

/-- Rings the bell. -/
def ring (c : Commits) : Commits := { c with rings := c.rings + 1 }

end Commits

/-! ### Sinks -/

/-- How a sink takes a batch. -/
inductive SinkStyle where
  /-- In one call. -/
  | whole
  /-- In one call for each event, up to the first that is refused. -/
  | each
  deriving DecidableEq, Repr

/-- The calls by which a batch is handed over. -/
def SinkStyle.calls : SinkStyle → List Event → List (List Event)
  | whole, events => [events]
  | each, events => events.map fun e => [e]

/-- What comes of a call of the sink. -/
inductive SinkAnswer where
  /-- The sink has taken the events over. -/
  | accepted
  | refused (e : Error)
  /-- The call kills the thread that it runs on. -/
  | died
  deriving DecidableEq

/-! ### Hubs -/

/-- What the threads of a queue share. -/
structure Hub where
  store : Store
  faults : Faults
  style : SinkStyle
  /-- Whether the queue is to stop. -/
  flag : Bool
  wake : Wakeups
  commits : Commits
  journal : Journal
  deriving DecidableEq

namespace Hub

/-- The hub after something is reported. -/
def report (h : Hub) (j : Journal) : Hub :=
  { h with journal := h.journal ++ j }

/-- The hub after an incident. -/
def incident (h : Hub) (i : Incident) : Hub :=
  h.report [.incident i]

/-- The hub after something is counted. -/
def measure (h : Hub) (m : Measure) : Hub :=
  h.report [.measure m]

/-- The number of entries, as it is told. -/
def count (h : Hub) : Nat := h.faults.count h.store

/-- Tells the threads to stop. -/
def raise (h : Hub) : Hub := { h with flag := true }

@[simp] theorem store_report (h : Hub) (j : Journal) : (h.report j).store = h.store := rfl

@[simp] theorem flag_report (h : Hub) (j : Journal) : (h.report j).flag = h.flag := rfl

@[simp] theorem wake_report (h : Hub) (j : Journal) : (h.report j).wake = h.wake := rfl

@[simp] theorem journal_report (h : Hub) (j : Journal) :
    (h.report j).journal = h.journal ++ j := rfl

end Hub

end Outbox

import Outbox.Error

namespace Outbox

/-!
# The journal

What a queue reports while it runs:

* `Incident` — something that an operator should look at.
* `LogLine` — an incident as it is logged.
* `Measure` — something that is counted.
* `Note` — one of these; `Journal` is a list of notes, the oldest first.
* `Journal.lines` — the log lines of a journal.
* `Journal.totals` — the totals of a journal by name.
-/

/-! ### Incidents -/

/-- Something that an operator should look at. -/
inductive Incident where
  /-- The configured batch size is no batch size. -/
  | invalidBatchSize (configured : Int) (used : Nat)
  /-- No key provider has the configured name. -/
  | unknownKeyProvider (name : String)
  /-- The key provider has no key. -/
  | keyProviderFailed (name : String) (error : Error)
  /-- A key could not be deleted. -/
  | keyNotDeleted (key : Bytes) (fault : EngineFault)
  /-- An entry cannot be read and is removed. -/
  | unreadableEntry (key : Bytes) (error : Error)
  /-- The sink refused a batch. -/
  | batchRefused (count : Nat) (error : Error)
  /-- The sink refused an event. -/
  | eventRefused (key : Bytes) (error : Error)
  /-- Fewer entries were removed than were delivered. -/
  | partlyRemoved (expected removed : Nat)
  /-- No delivered entry was removed. -/
  | notRemoved (count : Nat) (error : Error)
  /-- The store could not be read, and the forwarder ends. -/
  | storeUnreadable (error : Error)
  /-- A producer's wait for its commit was interrupted. -/
  | commitWaitInterrupted (attempt waitMs : Nat)
  /-- A shutdown went on without some commits. -/
  | commitsUnfinished (inFlight : Nat)
  /-- The store could not be closed. -/
  | closeFailed (error : Error)
  /-- The forwarder had not ended in time. -/
  | forwarderLate (timeoutMs : Nat)
  /-- The forwarder died. -/
  | forwarderDied
  deriving DecidableEq

/-- How bad an incident is. -/
inductive Severity where
  | warning
  | error
  deriving DecidableEq

/-- An incident as it is logged. -/
structure LogLine where
  severity : Severity
  message : String
  /-- What the line says about the case, by name. -/
  fields : List (String × String)
  deriving DecidableEq

/-- The line that an incident is logged as. -/
def Incident.line : Incident → LogLine
  | .invalidBatchSize configured used =>
    ⟨.warning, "Invalid batch size, using 1",
      [("configured", toString configured), ("batch_size", toString used)]⟩
  | .unknownKeyProvider name =>
    ⟨.error, "Unable to find key provider, encryption disabled", [("provider", name)]⟩
  | .keyProviderFailed name error =>
    ⟨.error, "Unable to obtain key from provider, encryption disabled",
      [("provider", name), ("error", error.message)]⟩
  | .keyNotDeleted key fault =>
    ⟨.error, "Error deleting key from store",
      [("key", Utf8.lossy key), ("error", fault.message)]⟩
  | .unreadableEntry key error =>
    ⟨.error, "Dropping unreadable queue entry",
      [("key", Utf8.lossy key), ("error", error.message)]⟩
  | .batchRefused count error =>
    ⟨.error, "Unable to deliver batch, will retry",
      [("count", toString count), ("error", error.message)]⟩
  | .eventRefused key error =>
    ⟨.error, "Unable to deliver event, will retry",
      [("key", Utf8.lossy key), ("error", error.message)]⟩
  | .partlyRemoved expected removed =>
    ⟨.warning, "Some delivered entries were not removed",
      [("expected", toString expected), ("removed", toString removed)]⟩
  | .notRemoved count error =>
    ⟨.error, "Unable to remove delivered entries, they will be redelivered",
      [("count", toString count), ("error", error.message)]⟩
  | .storeUnreadable error =>
    ⟨.error, "Unable to read queue store, forwarder stopping", [("error", error.message)]⟩
  | .commitWaitInterrupted attempt waitMs =>
    ⟨.warning, "Interrupted while waiting for event commit",
      [("attempt", toString attempt), ("wait_ms", toString waitMs)]⟩
  | .commitsUnfinished inFlight =>
    ⟨.warning, "Timed out waiting for event commits", [("in_flight", toString inFlight)]⟩
  | .closeFailed error =>
    ⟨.warning, "Unable to cleanly close queue store", [("error", error.message)]⟩
  | .forwarderLate timeoutMs =>
    ⟨.warning, "Forwarder did not stop in time", [("timeout_ms", toString timeoutMs)]⟩
  | .forwarderDied => ⟨.error, "Forwarder thread panicked", []⟩

/-! ### Measures -/

/-- Something that is counted. -/
inductive Measure where
  /-- An event was committed as a value of some bytes. -/
  | enqueued (bytes : Nat)
  /-- A forwarding pass delivered events, or failed. -/
  | passed (delivered : Nat) (ok : Bool)
  /-- A forwarding pass removed unreadable entries. -/
  | dropped (count : Nat)
  /-- The queue was seen to hold some entries. -/
  | depth (count : Nat)
  deriving DecidableEq

/-- How a measure changes the total of a name. -/
inductive Change where
  /-- It adds to the total. -/
  | add (n : Nat)
  /-- It replaces the total. -/
  | set (n : Nat)
  deriving DecidableEq

/-- The totals that a measure changes. -/
def Measure.changes : Measure → List (String × Change)
  | .enqueued bytes =>
    [("spool.enqueue.total", .add 1), ("spool.enqueue.commit_duration_seconds", .add 1),
      ("spool.enqueue.bytes_total", .add bytes)]
  | .passed delivered ok =>
    let outcome := if ok then "ok" else "fail"
    [(s!"spool.forward.passes_total\x7boutcome={outcome}\x7d", .add 1),
      ("spool.forward.pass_duration_seconds", .add 1),
      ("spool.forward.events_delivered_total", .add delivered)]
  | .dropped count => [("spool.forward.events_dropped_total", .add count)]
  | .depth count => [("spool.queue.depth", .set count)]

/-- The total after a change. -/
def Change.apply : Change → Nat → Nat
  | .add n, total => total + n
  | .set n, _ => n

/-- Totals after the total of a name is changed; a new name starts at zero. -/
def changeTotal (name : String) (c : Change) : List (String × Nat) → List (String × Nat)
  | [] => [(name, c.apply 0)]
  | (n, total) :: rest =>
    if n = name then (n, c.apply total) :: rest else (n, total) :: changeTotal name c rest

/-! ### Journals -/

/-- An entry of a journal. -/
inductive Note where
  | incident (i : Incident)
  | measure (m : Measure)
  deriving DecidableEq

/-- Notes, the oldest first. -/
abbrev Journal := List Note

namespace Journal

/-- The incidents of a journal. -/
def incidents (j : Journal) : List Incident :=
  j.filterMap fun
    | .incident i => some i
    | .measure _ => none

/-- The measures of a journal. -/
def measures (j : Journal) : List Measure :=
  j.filterMap fun
    | .measure m => some m
    | .incident _ => none

/-- The log lines of a journal. -/
def lines (j : Journal) : List LogLine :=
  (incidents j).map Incident.line

/-- The totals of a journal by name. -/
def totals (j : Journal) : List (String × Nat) :=
  (measures j).foldl
    (fun totals m => m.changes.foldl (fun t (name, c) => changeTotal name c t) totals) []

end Journal

end Outbox

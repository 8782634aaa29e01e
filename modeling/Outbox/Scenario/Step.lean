import Outbox.Report
import Outbox.Scenario.World

namespace Outbox.Scenario

/-!
# Steps and answers

* `Step` — what a script may do.
* `Answer` — what it is told.
-/

/-! ### Steps -/

/-- A fault that is set or removed. -/
inductive Setting where
  | opening (text : Option String)
  | putting (text : Option String)
  | scanning (text : Option String)
  | removing (text : Option String)
  | walking (text : Option String)
  | recounting (text : Option String)
  | closing (text : Option String)
  | putDies (b : Bool)
  | putDelay (millis : Nat)
  | removesNothing (b : Bool)
  | overstated (n : Nat)
  | raisingRead (n : Option Nat)
  deriving DecidableEq, Repr

/-- What the visitor of a walk does. -/
structure Visitor where
  /-- For the first entries. -/
  visits : List Verdict
  /-- For the entries after them, over and over; the place is the entry's among all. -/
  cycle : List Verdict
  /-- For all other entries. -/
  rest : Verdict
  deriving DecidableEq, Repr

/-- What the visitor does with the entry of a number, counted from zero. -/
def Visitor.visit (v : Visitor) (n : Nat) : Verdict :=
  match v.visits[n]? with
  | some x => x
  | none => (v.cycle[n % v.cycle.length]?).getD v.rest

/-- One of the two gates. -/
inductive Gate where
  | put
  | sink
  deriving DecidableEq, Repr

/-- What a script may do. -/
inductive Step where
  -- The store.
  | openStore (c : StoreConfig)
  | dropStore
  | put (key value : Bytes)
  /-- Numbered keys. -/
  | putMany (label : String) (n start stride : Nat) (value : Bytes)
  | scan (limit : Nat)
  /-- The entries, opened with the script's cipher. -/
  | scanOpened (limit : Nat)
  | keys
  | remove (keys : List Bytes)
  | count
  | recount
  | stats
  | closeStore
  | walk (v : Visitor)
  /-- Another process puts and removes entries; with a number it then begins a walk, deletes so
      many entries, and dies. -/
  | elsewhere (c : StoreConfig) (puts : List (Bytes × Bytes)) (removals : List Bytes)
      (crashAfter : Option Nat)
  | makeFile (path : String) (content : Bytes)
  | makeDirectory (path : String)
  | look (path : String)
  | commandLine (args : List String) (keyEnv : Option String)
  -- Forwarding.
  | setCipher (key : Option SecretKey)
  | putEvent (e : Event) (key : Option Bytes)
  | setSink (targets : Option (List String)) (style : SinkStyle) (rules : Rules)
  | forward (batchSize : Nat)
  | run (batchSize delay : Nat)
  | spawn (batchSize delay : Nat)
  | join (timeout : Nat)
  | deliveries
  | attempts
  | flag (set : Option Bool)
  | logs
  | metrics
  | setFault (s : Setting)
  | setGate (g : Gate) (closed : Bool)
  | waitBlocked (g : Gate) (n : Nat)
  -- Wake-ups.
  | notify (w : Option Wake)
  | waitForWake (millis : Nat) (notifyAfter : Option Nat)
  | sleep (millis : Nat) (flagAfter : Option Nat)
  | clearWakes
  | countWakes
  -- Producers.
  | enlist (commitWait : Nat)
  | send (e : Event)
  /-- The call is given up after a time. -/
  | sendBriefly (e : Event) (cancelAfter : Nat)
  | sendAll (es : List Event)
  | inFlight
  | waitIdle (millis : Nat)
  -- Queues.
  | register (p : KeyProvider)
  | openQueue (c : QueueConfig) (bare : Bool)
  | queueSend (e : Event)
  | queueInfo
  | queueStats
  | queueScan (limit : Nat)
  | queueScanOpened (limit : Nat)
  | pending
  | shutdown
  | dropQueue
  | waitPending (n : Nat)
  | waitAttempts (n : Nat)
  | waitShutdown

/-! ### Answers -/

/-- An entry that a walk has visited, with the count and the number of entries that others saw. -/
structure Seen where
  entry : Entry
  count : Nat
  others : Nat
  deriving DecidableEq, Repr

/-- An entry that is opened: its key, the length of its value, and its event. -/
structure OpenedEntry where
  key : Bytes
  length : Nat
  event : Except Error Event

/-- What a script is told. -/
inductive Answer where
  | done
  | failed (e : Error)
  | died
  | opened (count : Nat) (path : String)
  | released
  | count (n : Nat)
  | entries (es : List Entry)
  | openedEntries (es : List OpenedEntry)
  | keys (ks : List Bytes)
  | removed (n : Nat)
  | recounted (n : Nat)
  | stats (s : StoreStats)
  | walked (pass : WalkSummary) (seen : List Seen)
  | crashed
  | found (there directory : Bool)
  | printed (p : Report.Printed)
  | encrypted (b : Bool)
  | outcome (o : Outcome)
  | ran (flag : Bool) (attempts reads wakes : Nat)
  | joined (ended finished : Bool)
  | groups (gs : List (List Event))
  | attempts (n : Nat)
  | flag (b : Bool)
  | lines (ls : List LogLine)
  | totals (ts : List (String × Nat))
  | wakes (n : Nat)
  | woken (w : Option Wake) (wakes : Nat)
  | slept (fully : Bool) (wakes : Nat)
  | cancelled (b : Bool)
  | results (rs : List (Except Error Unit))
  | inFlight (n : Nat)
  | idle (b : Bool) (inFlight : Nat)
  | providers (n : Nat)
  | info (q : Queue) (flag : Bool)
  | pending (n : Nat)
  | reached (b : Bool)
  /-- There is nothing that the step could work on. -/
  | missing

end Outbox.Scenario

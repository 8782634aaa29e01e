import Outbox.Disk
import Outbox.Forwarder
import Outbox.KeyRing
import Outbox.Submission

namespace Outbox

/-!
# Queues

The life of a queue in front of a sink:

* `Queue` — what an open queue knows of itself.
* `Backend` — a kind of store that a queue can be opened on.
* `Queue.startOn` — opens the store, finds the key, and makes a forwarder.
* `Queue.start` — does so with the stores on a disk.
* `Stop` — how far the end of a queue has come, by a shutdown or by being dropped.
* `Stop.step` — its next step.

A shutdown raises the flag, wakes the forwarder, waits until no commit is running, waits until the
forwarder has ended, and closes the store. A queue that is dropped without one waits for the
forwarder only.
-/

/-! ### Opening -/

/-- What an open queue knows of itself. -/
structure Queue where
  name : String
  batchSize : Nat
  producer : Producer
  /-- In milliseconds. -/
  shutdownTimeout : Nat
  /-- Whether a shutdown has begun. -/
  closed : Bool
  /-- The hold on the forwarder, until a shutdown takes it. -/
  handle : Option Handle
  deriving DecidableEq

/-- A kind of store: how the store of a configuration is opened in a world, and what this makes of
    the world. -/
abbrev Backend (World Opened : Type) : Type :=
  StoreConfig → World → World × Except Failure Opened

/-- What opening a queue makes. -/
structure Started (Opened : Type) where
  queue : Queue
  store : Opened
  forwarder : Forwarder

namespace Queue

/-- The name of a queue, after the targets of its sink and its directory. -/
def nameOf (targets : List String) (directory : String) : String :=
  let joined := ",".intercalate targets
  s!"Spool[{joined}] {directory}"

/-- Whether stored values are encrypted. -/
def isEncrypted (q : Queue) : Bool := q.producer.cipher.isEnabled

/-- The incident of a batch size that is no batch size. -/
def batchSizeIncidents (c : QueueConfig) : Journal :=
  if c.batchSize.toInt = c.effectiveBatchSize then []
  else [.incident (.invalidBatchSize c.batchSize.toInt c.effectiveBatchSize)]

/-- However a store fails to open, the error says that it could not be opened. -/
def openError : Error → Error
  | .storeOpen fault => .storeOpen fault
  | e => .storeOpen (.reported e.message)

/-- Opens a queue on a kind of store. The targets are looked at before anything else is done; a key
    that cannot be had only means that nothing is encrypted. -/
def startOn {World Opened : Type} (backend : Backend World Opened) (c : QueueConfig)
    (targets : List String) (ring : KeyRing) (env : Environment) (w : World) :
    World × Journal × Except Failure (Started Opened) :=
  if targets.isEmpty then (w, [], .error (.error (.config .noTargets)))
  else
    let journal := batchSizeIncidents c
    match backend c.store w with
    | (w, .error .crash) => (w, journal, .error .crash)
    | (w, .error (.error e)) => (w, journal, .error (.error (openError e)))
    | (w, .ok store) =>
      let (key, incidents) := ring.resolve env c.keyProvider
      let cipher : Cipher := ⟨key⟩
      let queue : Queue :=
        ⟨nameOf targets c.store.dataDir, c.effectiveBatchSize,
          ⟨cipher, c.commitWaitMs.toNat⟩, c.shutdownTimeoutMs.toNat, false, some ⟨true⟩⟩
      let settings : Forwarder.Settings :=
        ⟨cipher, c.effectiveBatchSize, c.delayMs.toNat, c.one_le_effectiveBatchSize⟩
      (w, journal ++ incidents, .ok ⟨queue, store, Forwarder.create settings⟩)

/-- The stores on a disk, which may have faults. -/
def openStore (f : Faults) : Backend Disk (Home × Store) := fun c d =>
  match f.opening with
  | some text => (d, .error (.error (.transaction (.reported text))))
  | none => d.openStore c

/-- Opens a queue on a store on a disk. -/
def start (c : QueueConfig) (targets : List String) (ring : KeyRing) (env : Environment)
    (f : Faults) (d : Disk) : Disk × Journal × Except Failure (Started (Home × Store)) :=
  startOn (openStore f) c targets ring env d

end Queue

/-! ### Stopping -/

/-- How far the end of a queue has come. -/
inductive Stop where
  /-- About to see whether there has been a shutdown. -/
  | entering
  /-- About to raise the flag. -/
  | raising
  /-- About to wake the forwarder. -/
  | waking
  /-- Waits for the running commits until a deadline. -/
  | settling (wait : IdleWait) (deadline : Nat)
  /-- Waits for the forwarder until a deadline. -/
  | joining (deadline : Nat)
  /-- About to close the store. -/
  | closing
  | done
  deriving DecidableEq, Repr

namespace Stop

/-- The place from which the forwarder is waited for. -/
def join (q : Queue) (now : Nat) : Stop := .joining (now + q.shutdownTimeout)

/-- The next step at a time. A shutdown is `graceful`, a drop is not; `ended` and `died` say how it
    stands with the forwarder. -/
def step (graceful : Bool) (ended died : Bool) (now : Nat) (q : Queue) (h : Hub) :
    Stop → Option (Stop × Queue × Hub)
  | entering =>
    if q.closed then some (done, q, h) else some (raising, { q with closed := graceful }, h)
  | raising => some (waking, q, h.raise)
  | waking =>
    some (if graceful then settling .listening (now + q.shutdownTimeout) else join q now, q,
      { h with wake := h.wake.pushShutdown })
  | settling wait deadline =>
    match wait.result? with
    | some true => some (join q now, q, h)
    | some false => some (join q now, q, h.incident (.commitsUnfinished h.commits.running))
    | none => (wait.step now deadline h.commits).map fun wait => (settling wait deadline, q, h)
  | joining deadline =>
    let next := if graceful then closing else done
    match q.handle with
    | none => some (next, q, h)
    | some handle =>
      if ended || deadline ≤ now then
        let (_, _, journal) := handle.finish ended died q.shutdownTimeout
        some (next, { q with handle := none }, h.report journal)
      else none
  | closing =>
    match h.faults.close h.store with
    | (.ok (), store) => some (done, q, { h with store })
    | (.error fault, store) =>
      some (done, q, { h with store }.incident (.closeFailed (.transaction fault)))
  | done => none

/-- The time until which the end of the queue waits. -/
def alarm? : Stop → Option Nat
  | settling _ deadline | joining deadline => some deadline
  | _ => none

end Stop

end Outbox

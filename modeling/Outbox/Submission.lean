import Outbox.Envelope
import Outbox.Hub

namespace Outbox

/-!
# Submissions

The way of an event from a producer into the store:

* `CommitTask` — the task that commits the entry and wakes the forwarder.
* `Submission` — a producer's call and its task; the task goes on when the call is given up.
* `Submission.stepCall`, `Submission.stepTask` — the next steps of the two.
* `IdleWait` — the wait until no commit is running.

A call counts itself as running before it reads the flag; so whoever raises the flag and then sees
that nothing is running knows that no further entry is committed.
-/

/-! ### Commit tasks -/

/-- How a commit task ended. -/
inductive CommitEnd where
  | committed
  | refused (e : Error)
  | died
  deriving DecidableEq

/-- How far a commit task has come. -/
inductive CommitTask where
  /-- About to put a value under a key. -/
  | starting (key value : Bytes)
  /-- A put of a value of some bytes is under way. -/
  | putting (op : PutOp) (bytes : Nat)
  /-- About to wake the forwarder. -/
  | waking
  /-- About to count as no longer running. -/
  | leaving (e : CommitEnd)
  /-- The last one that was running is about to ring the bell. -/
  | ringing (e : CommitEnd)
  | ended (e : CommitEnd)

namespace CommitTask

/-- A put is done. -/
def concludePut (bytes : Nat) (h : Hub) : Except StoreFault Unit → CommitTask × Hub
  | .ok () => (waking, h.measure (.enqueued bytes))
  | .error fault => (leaving (.refused (.transaction fault)), h)

/-- Counts as no longer running. -/
def leave (e : CommitEnd) (h : Hub) : CommitTask × Hub :=
  (if h.commits.running = 1 then ringing e else ended e, { h with commits := h.commits.leave })

/-- The next step, unless the task has ended or waits for the lock. -/
def step (h : Hub) : CommitTask → Option (CommitTask × Hub)
  | starting key value =>
    some (if h.faults.putDies then leaving .died
      else putting (h.faults.put key value) value.length, h)
  | putting op bytes =>
    match op.result? with
    | some r => some (concludePut bytes h r)
    | none =>
      (op.step h.faults.landing h.store).map fun (op, store) =>
        (putting op bytes, { h with store })
  | waking => some (leaving .committed, { h with wake := h.wake.push .committed })
  | leaving e => some (leave e h)
  | ringing e => some (ended e, { h with commits := h.commits.ring })
  | ended _ => none

/-- How the task ended. -/
def end? : CommitTask → Option CommitEnd
  | ended e => some e
  | _ => none

end CommitTask

/-! ### Submissions -/

/-- How a producer seals what it submits and how long it waits. -/
structure Producer where
  cipher : Cipher
  /-- In milliseconds. -/
  commitWait : Nat
  deriving DecidableEq

/-- How often a producer waits before it gives up. -/
def Producer.attempts : Nat := 2

/-- How far a producer's call has come. -/
inductive Call where
  /-- About to count itself as running. -/
  | entering (e : Event)
  /-- About to read the flag. -/
  | checking (e : Event)
  /-- About to seal the event and submit the task. -/
  | sealing (e : Event)
  /-- About to count itself as no longer running, without a task. -/
  | leaving (e : Error)
  /-- The last one that was running is about to ring the bell. -/
  | ringing (e : Error)
  /-- Waits for the task until a deadline, for the given time. -/
  | waiting (attempt deadline : Nat)
  | returned (result : Except Error Unit)
  /-- The producer has given the call up. -/
  | dropped

/-- A producer's call and the task that it has submitted. -/
structure Submission where
  producer : Producer
  /-- The nonce to seal the event with. -/
  nonce : Nonce
  call : Call
  task : Option CommitTask

namespace Submission

/-- A call that is about to begin. -/
def ofEvent (p : Producer) (nonce : Nonce) (e : Event) : Submission :=
  ⟨p, nonce, .entering e, none⟩

/-- The key and the value of an event. -/
def entry (c : Cipher) (nonce : Nonce) (e : Event) : Except Error (Bytes × Bytes) :=
  match e.guid? with
  | none => .error (.config .noGuid)
  | some guid => (c.sealEvent nonce e).map fun value => (Utf8.encode guid, value)

/-- What a call returns when its task has ended. -/
def returns : CommitEnd → Except Error Unit
  | .committed => .ok ()
  | .refused e => .error (.deliveryQueue (.refused e.message))
  | .died => .error (.deliveryQueue .taskFailed)

/-- The next step of the call at a time, unless it waits or is over. -/
def stepCall (now : Nat) (s : Submission) (h : Hub) : Option (Submission × Hub) :=
  match s.call with
  | .entering e => some ({ s with call := .checking e }, { h with commits := h.commits.enter })
  | .checking e =>
    some ({ s with call := if h.flag then .leaving .queueUnavailable else .sealing e }, h)
  | .sealing e =>
    match entry s.producer.cipher s.nonce e with
    | .error fault => some ({ s with call := .leaving fault }, h)
    | .ok (key, value) =>
      some ({ s with
        call := .waiting 1 (now + s.producer.commitWait), task := some (.starting key value) }, h)
  | .leaving e =>
    some ({ s with call := if h.commits.running = 1 then .ringing e else .returned (.error e) },
      { h with commits := h.commits.leave })
  | .ringing e =>
    some ({ s with call := .returned (.error e) }, { h with commits := h.commits.ring })
  | .waiting attempt deadline =>
    match s.task.bind CommitTask.end? with
    | some e => some ({ s with call := .returned (returns e) }, h)
    | none =>
      if now < deadline then none
      else
        let h := h.incident (.commitWaitInterrupted attempt s.producer.commitWait)
        if attempt < Producer.attempts then
          some ({ s with call := .waiting (attempt + 1) (now + s.producer.commitWait) }, h)
        else some ({ s with call := .returned (.error (.deliveryQueue .gaveUp)) }, h)
  | .returned _ | .dropped => none

/-- The next step of the task, unless there is none. -/
def stepTask (s : Submission) (h : Hub) : Option (Submission × Hub) :=
  match s.task with
  | none => none
  | some task => (task.step h).map fun (task, h) => ({ s with task := some task }, h)

/-- The producer gives up a call that waits for its task. -/
def drop (s : Submission) : Submission :=
  match s.call with
  | .waiting _ _ => { s with call := .dropped }
  | _ => s

/-- The time until which the call waits. -/
def alarm? (s : Submission) : Option Nat :=
  match s.call with
  | .waiting _ deadline => some deadline
  | _ => none

/-- What the call has returned. -/
def result? (s : Submission) : Option (Except Error Unit) :=
  match s.call with
  | .returned r => some r
  | _ => none

end Submission

/-! ### Waiting for the commits -/

/-- How far a wait for the end of all commits has come. -/
inductive IdleWait where
  /-- About to listen for the bell. -/
  | listening
  /-- Listens since the bell had rung `rings` times; about to read how many are running. -/
  | checking (rings : Nat)
  /-- Parked until the bell rings again. -/
  | parked (rings : Nat)
  /-- Nothing was running. -/
  | idle
  /-- The time was over. -/
  | expired
  deriving DecidableEq, Repr

namespace IdleWait

/-- The next step of a wait with a deadline, unless it is parked or over. -/
def step (now deadline : Nat) (c : Commits) : IdleWait → Option IdleWait
  | listening => some (checking c.rings)
  | checking rings => some (if c.running = 0 then idle else parked rings)
  | parked rings =>
    if c.rings ≠ rings then some listening
    else if deadline ≤ now then some expired
    else none
  | idle | expired => none

/-- Whether nothing was running, when the wait is over. -/
def result? : IdleWait → Option Bool
  | idle => some true
  | expired => some false
  | _ => none

end IdleWait

end Outbox

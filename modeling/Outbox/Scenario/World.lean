import Outbox.Queue
import Outbox.Scenario.Sink

namespace Outbox.Scenario

/-!
# The world of a scenario

Queues, threads and files under a clock that only moves when everybody waits:

* `Site` — which store, flag, wake-ups and running commits a thread works with.
* `Thread`, `Sending` — a forwarder or a single pass, and a producer's call with its task.
* `World` — all of it, with the faults and gates of the script.
* `World.hub?`, `World.putHub` — what the threads at a site share, taken out and put back.
-/

/-! ### Actors -/

/-- The parts of the world that a thread works with, by number. -/
structure Site where
  slot : Nat
  signal : Nat
  counter : Nat
  /-- Whether the store is used without the faults and gates of the script. -/
  bare : Bool
  deriving DecidableEq, Repr

/-- An open store and where it lives. -/
structure Slot where
  home : Home
  store : Store

/-- A flag with the wake-ups that go with it. -/
structure Signal where
  flag : Bool
  wake : Wakeups

/-- What a thread does. -/
inductive Work where
  | loop (f : Forwarder)
  | pass (s : Forwarder.Settings) (p : Pass)

namespace Work

/-- The next step of the work at a time. -/
def step (now : Nat) (h : Hub) : Work → Option (Work × Hub)
  | loop f => (f.step now h).map fun (f, h) => (loop f, h)
  | pass s p => (p.step s h).map fun (p, h) => (pass s p, h)

/-- The events that the sink has been given and has not answered for. -/
def call? : Work → Option (List Event)
  | loop f => f.call?
  | pass _ p => p.call?

/-- What the sink's answer makes of the work. -/
def answer (a : SinkAnswer) (h : Hub) : Work → Work × Hub
  | loop f =>
    let (f, h) := f.answer a h
    (loop f, h)
  | pass s p =>
    let (p, h) := p.answer a h
    (pass s p, h)

/-- Whether the next step scans the store or begins a walk. -/
def isReading : Work → Bool
  | loop ⟨_, _, _, .passing .starting⟩ | pass _ .starting => true
  | _ => false

/-- Whether the work has ended. -/
def hasEnded : Work → Bool
  | loop f => f.hasEnded
  | pass _ (.ended _) | pass _ .died => true
  | _ => false

/-- Whether the thread has been killed. -/
def hasDied : Work → Bool
  | loop f => f.hasDied
  | pass _ .died => true
  | _ => false

/-- The time until which the thread is parked. -/
def alarm? : Work → Option Nat
  | loop f => f.alarm?
  | pass _ _ => none

end Work

/-- A thread that forwards. -/
structure Thread where
  site : Site
  work : Work
  /-- The number of the call that the sink has not answered. -/
  attempt : Option Nat

/-- How far a put has come before it reaches the store. -/
inductive Stage where
  | atGate
  | delayed (deadline : Nat)
  | through
  deriving DecidableEq, Repr

/-- A producer's call and its task. -/
structure Sending where
  site : Site
  submission : Submission
  stage : Stage

/-- Whether something of a call is still to be done. -/
def Sending.isActive (s : Sending) : Bool :=
  match s.submission.call, s.submission.task with
  | .returned _, none | .dropped, none => false
  | .returned _, some t | .dropped, some t => t.end?.isNone
  | _, _ => true

/-- Whether the task waits at the gate for puts. -/
def Sending.isBlocked (s : Sending) : Bool :=
  match s.submission.task with
  | some (.starting _ _) => s.stage = .atGate
  | _ => false

/-- What the script itself is waiting for. -/
inductive Errand where
  | none
  /-- The end of all commits, until a deadline. -/
  | idleWait (site : Site) (wait : IdleWait) (deadline : Nat)
  /-- The end of the open queue. -/
  | stopping (graceful : Bool) (stop : Stop)
  /-- A sleep until a deadline that a raised flag cuts short; parked if the bell's count is known. -/
  | sleeping (deadline : Nat) (rings : Option Nat)
  | awake

/-- Something that happens at a time. -/
inductive Trigger where
  /-- A wake-up for a committed entry. -/
  | notify
  /-- A wake-up, the flag, and the wake-up that goes with it. -/
  | raise
  deriving DecidableEq, Repr

/-- A queue that is open. -/
structure Running where
  queue : Queue
  site : Site
  /-- The number of the forwarder's thread. -/
  thread : Nat

/-! ### Worlds -/

/-- Queues, threads and files. -/
structure World where
  /-- In milliseconds. -/
  now : Nat
  disk : Disk
  slots : List Slot
  /-- The first one is the script's own. -/
  signals : List Signal
  counters : List Commits
  threads : List Thread
  sendings : List Sending
  timers : List (Nat × Trigger)
  errand : Errand
  sink : Sink
  faults : Faults
  putGateClosed : Bool
  /-- How long a put takes before it reaches the store. -/
  putDelay : Nat
  /-- How many scans and walks there have been. -/
  reads : Nat
  /-- Which of them raises the script's flag. -/
  raisingRead : Option Nat
  /-- The newest first. -/
  notes : Journal
  /-- How many notes have been looked at. -/
  seen : Nat
  cipher : Cipher
  ring : KeyRing
  /-- How many nonces have been used. -/
  nonces : Nat
  /-- The number of the script's own store. -/
  store? : Option Nat
  /-- The script's own producer. -/
  producer? : Option (Site × Producer)
  /-- The script's own forwarder, with the number of its thread. -/
  handle? : Option (Handle × Nat)
  queue? : Option Running

namespace World

/-- An empty world. -/
def new : World where
  now := 0
  disk := .empty
  slots := []
  signals := [⟨false, .empty⟩]
  counters := []
  threads := []
  sendings := []
  timers := []
  errand := .none
  sink := .new
  faults := .none
  putGateClosed := false
  putDelay := 0
  reads := 0
  raisingRead := none
  notes := []
  seen := 0
  cipher := .plaintext
  ring := .empty
  nonces := 0
  store? := none
  producer? := none
  handle? := none
  queue? := none

/-- The number of the script's own flag and wake-ups. -/
def ownSignal : Nat := 0

/-- The world after some notes are made. -/
def report (w : World) (j : Journal) : World :=
  { w with notes := j.reverse ++ w.notes }

/-- All notes, the oldest first. -/
def journal (w : World) : Journal := w.notes.reverse

/-- A store of a number, with what is committed on the disk. -/
def slot? (w : World) (n : Nat) : Option Slot :=
  w.slots[n]?.map fun s =>
    { s with store := { s.store with table := (w.disk.table? s.home).getD s.store.table } }

/-- Puts a store back. -/
def putStore (w : World) (n : Nat) (home : Home) (store : Store) : World :=
  { w with slots := w.slots.set n ⟨home, store⟩, disk := w.disk.save home store.table }

/-- The script's own flag and wake-ups. -/
def signal (w : World) : Signal := w.signals[ownSignal]?.getD ⟨false, .empty⟩

/-- Puts the script's own flag and wake-ups back. -/
def putSignal (w : World) (s : Signal) : World :=
  { w with signals := w.signals.set ownSignal s }

/-- What the threads at a site share. -/
def hub? (w : World) (site : Site) : Option Hub := do
  let slot ← w.slot? site.slot
  let signal ← w.signals[site.signal]?
  let commits := w.counters[site.counter]?.getD .idle
  return ⟨slot.store, if site.bare then .none else w.faults, w.sink.style, signal.flag, signal.wake,
    commits, []⟩

/-- Puts back what the threads at a site share. -/
def putHub (w : World) (site : Site) (h : Hub) : World :=
  match w.slots[site.slot]? with
  | none => w
  | some slot =>
    let w := w.putStore site.slot slot.home h.store
    { w with
      signals := w.signals.set site.signal ⟨h.flag, h.wake⟩
      counters := w.counters.set site.counter h.commits }.report h.journal

/-- The world after another scan or walk through a store that the script may spoil. -/
def read (w : World) (bare : Bool) : World :=
  if bare then w
  else
    let w := { w with reads := w.reads + 1 }
    if w.raisingRead = some w.reads then w.putSignal { w.signal with flag := true } else w

/-- A nonce that has not been used. -/
def nonce (w : World) : Nonce × World :=
  (.ofNat w.nonces, { w with nonces := w.nonces + 1 })

/-- The thread of a number. -/
def thread? (w : World) (n : Nat) : Option Thread := w.threads[n]?

/-- Whether the thread of a number has ended. -/
def hasEnded (w : World) (n : Nat) : Bool :=
  match w.thread? n with
  | none => true
  | some t => t.work.hasEnded

/-- Whether the thread of a number has been killed. -/
def hasDied (w : World) (n : Nat) : Bool :=
  match w.thread? n with
  | none => false
  | some t => t.work.hasDied

/-- Starts a thread and gives its number. -/
def spawn (w : World) (site : Site) (work : Work) : Nat × World :=
  (w.threads.length, { w with threads := w.threads ++ [⟨site, work, none⟩] })

end World

end Outbox.Scenario

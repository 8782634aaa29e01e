import Outbox.Forwarder.Pass

namespace Outbox

/-!
# The forwarder

The loop that decides when to run a pass:

* `Forwarder` — the settings, the deadline of the next pass, whether the queue was idle, and the
  place in the loop.
* `Forwarder.step` — the next step at a time.
* `Forwarder.answer` — what the answer of the sink makes of it.
* `Forwarder.alarm?` — the time until which it is parked.

The loop reads the flag and then the count. It parks while there is nothing, and while there is
less than a batch and the deadline has not come; else it clears the wake-ups and runs a pass. The
deadline is a delay after the start of the last pass, or after the first entry that is seen when
the queue was idle. After a refusal it parks for a delay that only the flag cuts short.
-/

namespace Forwarder

/-- A place in the loop. -/
inductive Phase where
  /-- About to set the first deadline. -/
  | starting
  /-- About to read the flag. -/
  | checking
  /-- About to read the count. -/
  | counting
  /-- Parked until a wake-up or a deadline, when there was nothing to forward. -/
  | idling (deadline : Nat)
  /-- Parked until a wake-up or the deadline, when there was less than a batch. -/
  | gathering
  /-- About to clear the wake-ups and run a pass. -/
  | clearing
  | passing (pass : Pass)
  /-- About to park because a pass found nothing. -/
  | emptied
  /-- About to read the flag, after a refusal; parks until a deadline if the flag is down. -/
  | pausing (deadline : Nat)
  /-- Parked until a deadline or until the bell, which had rung `rings` times, rings again. -/
  | paused (deadline rings : Nat)
  /-- The loop has ended. -/
  | stopped
  /-- The sink has killed the thread. -/
  | died

end Forwarder

/-- A forwarder at a place in its loop. Times are in milliseconds. -/
structure Forwarder where
  settings : Forwarder.Settings
  /-- When the next pass is due. -/
  nextPass : Nat
  /-- Whether there was nothing to forward when the count was last read. -/
  idle : Bool
  phase : Forwarder.Phase

namespace Forwarder

/-- A forwarder that is about to start. -/
def create (s : Settings) : Forwarder := ⟨s, 0, true, .starting⟩

/-- The forwarder at another place. -/
def goto (f : Forwarder) (p : Phase) : Forwarder := { f with phase := p }

/-- What the forwarder does when it has read a count at a time. -/
def decide (f : Forwarder) (count now : Nat) : Forwarder :=
  if count = 0 then { f with idle := true, phase := .idling (now + f.settings.delay) }
  else
    let nextPass := if f.idle then now + f.settings.delay else f.nextPass
    if count < f.settings.batchSize ∧ now < nextPass then
      { f with idle := false, nextPass, phase := .gathering }
    else
      { f with idle := false, nextPass := now + f.settings.delay, phase := .clearing }

/-- What the forwarder does when a pass has ended at a time. -/
def conclude (f : Forwarder) (now : Nat) (h : Hub) : Except Error Outcome → Forwarder × Hub
  | .ok (.delivered _ _) => (f.goto .checking, h)
  | .ok .empty => ({ f with idle := true, phase := .emptied }, h)
  | .ok .failed => (f.goto (.pausing (now + f.settings.delay)), h)
  | .error e => (f.goto .stopped, (h.incident (.storeUnreadable e)).raise)

/-- The next step at a time, unless the forwarder is parked, waits for the sink or for the lock,
    or has ended. -/
def step (now : Nat) (f : Forwarder) (h : Hub) : Option (Forwarder × Hub) :=
  match f.phase with
  | .starting => some ({ f with nextPass := now + f.settings.delay, phase := .checking }, h)
  | .checking => some (f.goto (if h.flag then .stopped else .counting), h)
  | .counting => some (f.decide h.count now, h.measure (.depth h.count))
  | .idling deadline =>
    if h.wake.releases deadline now then some (f.goto .checking, { h with wake := h.wake.take.2 })
    else none
  | .gathering =>
    if h.wake.releases f.nextPass now then
      some (f.goto .checking, { h with wake := h.wake.take.2 })
    else none
  | .clearing => some (f.goto (.passing .starting), { h with wake := h.wake.clear })
  | .passing pass =>
    match pass with
    | .ended r => some (f.conclude now h r)
    | .died => some (f.goto .died, h)
    | pass => (pass.step f.settings h).map fun (pass, h) => (f.goto (.passing pass), h)
  | .emptied => some (f.goto (.idling (now + f.settings.delay)), h)
  | .pausing deadline =>
    some (f.goto (if h.flag then .checking else .paused deadline h.wake.rings), h)
  | .paused deadline rings =>
    if h.wake.rings ≠ rings then some (f.goto (.pausing deadline), h)
    else if deadline ≤ now then some (f.goto .checking, h)
    else none
  | .stopped | .died => none

/-- The events that the sink has been given and has not answered for. -/
def call? (f : Forwarder) : Option (List Event) :=
  match f.phase with
  | .passing pass => pass.call?
  | _ => none

/-- What the sink's answer makes of a forwarder. -/
def answer (a : SinkAnswer) (f : Forwarder) (h : Hub) : Forwarder × Hub :=
  match f.phase with
  | .passing pass =>
    let (pass, h) := pass.answer a h
    (f.goto (.passing pass), h)
  | _ => (f, h)

/-- The time until which the forwarder is parked. -/
def alarm? (f : Forwarder) : Option Nat :=
  match f.phase with
  | .idling deadline | .paused deadline _ => some deadline
  | .gathering => some f.nextPass
  | _ => none

/-- Whether the thread has ended. -/
def hasEnded (f : Forwarder) : Bool :=
  match f.phase with
  | .stopped | .died => true
  | _ => false

/-- Whether the thread has been killed. -/
def hasDied (f : Forwarder) : Bool :=
  match f.phase with
  | .died => true
  | _ => false

end Forwarder

/-! ### Handles -/

/-- What the owner of a forwarder holds; a handle that is detached has let go of the thread. -/
structure Handle where
  attached : Bool
  deriving DecidableEq, Repr

namespace Handle

/-- Whether the thread is taken to have ended. -/
def isFinished (h : Handle) (ended : Bool) : Bool := !h.attached || ended

/-- Lets go of the thread when it has ended or the time for it is over, and says whether it has
    ended. -/
def finish (h : Handle) (ended died : Bool) (timeout : Nat) : Bool × Handle × Journal :=
  if !h.attached then (true, h, [])
  else if !ended then (false, ⟨false⟩, [.incident (.forwarderLate timeout)])
  else (true, ⟨false⟩, if died then [.incident .forwarderDied] else [])

end Handle

end Outbox

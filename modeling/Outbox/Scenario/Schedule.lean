import Outbox.Scenario.World

namespace Outbox.Scenario.World

/-!
# Scheduling

* `round` — everybody who can takes one step.
* `nextAlarm?` — the next time at which somebody is woken.
* `await` — lets the world go on until a condition holds. Time passes when nobody can take a step.
* `settle` — lets the world go on until everybody is parked.

Threads move only while the script waits.
-/

/-! ### One step of each -/

/-- Hands the call of a thread to the sink, or gives the thread the sink's answer. -/
def stepCall (w : World) (n : Nat) (t : Thread) (events : List Event) : Option World :=
  match t.attempt with
  | none =>
    let attempt := w.sink.attempts + 1
    some { w with
      sink := { w.sink with attempts := attempt }
      threads := w.threads.set n { t with attempt := some attempt } }
  | some attempt =>
    if w.sink.gateClosed then none
    else
      let w :=
        if w.sink.rules.raises.includes attempt then w.putSignal { w.signal with flag := true }
        else w
      let (answer, sink) := w.sink.respond attempt events
      (w.hub? t.site).map fun h =>
        let (work, h) := t.work.answer answer h
        { w.putHub t.site h with
          sink
          threads := w.threads.set n { t with work, attempt := none } }

/-- A thread takes a step. -/
def stepThread (n : Nat) (w : World) : Option World := do
  let t ← w.thread? n
  match t.work.call? with
  | some events => w.stepCall n t events
  | none =>
    let w := if t.work.isReading then w.read t.site.bare else w
    let h ← w.hub? t.site
    let (work, h) ← t.work.step w.now h
    return { w.putHub t.site h with threads := w.threads.set n { t with work } }

/-- A producer's call takes a step. -/
def stepSend (n : Nat) (w : World) : Option World := do
  let s ← w.sendings[n]?
  let h ← w.hub? s.site
  let (submission, h) ← s.submission.stepCall w.now h
  return { w.putHub s.site h with sendings := w.sendings.set n { s with submission } }

/-- A put comes closer to the store. -/
def stepStage (n : Nat) (w : World) : Option World := do
  let s ← w.sendings[n]?
  if s.site.bare then none
  else
    let goto (stage : Stage) : World :=
      { w with sendings := w.sendings.set n { s with stage } }
    match s.submission.task, s.stage with
    | some (.starting _ _), .atGate =>
      if w.putGateClosed then none
      else some (goto (if w.putDelay = 0 then .through else .delayed (w.now + w.putDelay)))
    | some (.starting _ _), .delayed t => if t ≤ w.now then some (goto .through) else none
    | _, _ => none

/-- Whether the task of a call has reached the store. -/
def mayPut (s : Sending) : Bool :=
  match s.submission.task with
  | some (.starting _ _) => s.site.bare || s.stage = .through
  | _ => true

/-- A commit task takes a step. -/
def stepTask (n : Nat) (w : World) : Option World := do
  let s ← w.sendings[n]?
  if mayPut s then
    let h ← w.hub? s.site
    let (submission, h) ← s.submission.stepTask h
    return { w.putHub s.site h with sendings := w.sendings.set n { s with submission } }
  else none

/-- What is due happens. -/
def stepTimers (w : World) : Option World :=
  match w.timers.partition fun t => t.1 ≤ w.now with
  | ([], _) => none
  | (due, later) =>
    some (due.foldl (fun w t =>
      let s := w.signal
      match t.2 with
      | .notify => w.putSignal { s with wake := s.wake.push .committed }
      | .raise => w.putSignal ⟨true, (s.wake.push .committed).pushShutdown⟩)
      { w with timers := later })

/-- The script's own errand goes on. -/
def stepErrand (w : World) : Option World :=
  match w.errand with
  | .none | .awake => none
  | .idleWait site wait deadline => do
    let wait ← wait.step w.now deadline (w.counters[site.counter]?.getD .idle)
    return { w with errand := .idleWait site wait deadline }
  | .stopping graceful stop => do
    let r ← w.queue?
    let h ← w.hub? r.site
    let (stop, queue, h) ←
      stop.step graceful (w.hasEnded r.thread) (w.hasDied r.thread) w.now r.queue h
    return { w.putHub r.site h with
      queue? := some { r with queue }, errand := .stopping graceful stop }
  | .sleeping deadline rings? =>
    let s := w.signal
    match rings? with
    | none =>
      some { w with errand := if s.flag then .awake else .sleeping deadline (some s.wake.rings) }
    | some rings =>
      if s.wake.rings ≠ rings then some { w with errand := .sleeping deadline none }
      else if deadline ≤ w.now then some { w with errand := .awake }
      else none

/-! ### Rounds -/

/-- Takes a step if it can be taken, and remembers that one was. -/
def attempt (step : World → Option World) (s : World × Bool) : World × Bool :=
  match step s.1 with
  | some w => (w, true)
  | none => s

/-- Everybody who can takes one step; nothing if nobody can. -/
def round (w : World) : Option World :=
  let start := attempt stepTimers (w, false)
  let threads := (List.range w.threads.length).foldl (fun s n => attempt (stepThread n) s) start
  let sendings := (List.range w.sendings.length).foldl
    (fun s n => attempt (stepSend n) (attempt (stepTask n) (attempt (stepStage n) s))) threads
  let (w, moved) := attempt stepErrand sendings
  if moved then some w else none

/-- The times at which somebody is woken. -/
def alarms (w : World) : List Nat :=
  w.threads.filterMap (fun t => t.work.alarm?) ++
    w.sendings.filterMap (fun s => s.submission.alarm?) ++
    w.sendings.filterMap (fun s =>
      match s.stage with
      | .delayed t => some t
      | _ => none) ++
    w.timers.map Prod.fst ++
    match w.errand with
    | .idleWait _ _ deadline | .sleeping deadline _ => [deadline]
    | .stopping _ stop => stop.alarm?.toList
    | .none | .awake => []

/-- The next time at which somebody is woken, or a given one. -/
def nextAlarm? (w : World) (deadline : Option Nat) : Option Nat :=
  ((deadline.toList ++ w.alarms).filter fun t => w.now < t).min?

/-- How many rounds fit into a millisecond. -/
def roundsPerTick : Nat := 2000

/-- How many rounds a script waits at most. -/
def patience : Nat := 150000

/-- Lets the world go on until a condition holds or nothing more can happen. `busy` counts the
    rounds since time last passed. -/
def awaitFor (done : World → Bool) (deadline : Option Nat) : (fuel busy : Nat) → World → World
  | 0, _, w => w
  | fuel + 1, busy, w =>
    if done w then w
    else
      match w.round with
      | some w =>
        if busy < roundsPerTick then awaitFor done deadline fuel (busy + 1) w
        else awaitFor done deadline fuel 0 { w with now := w.now + 1 }
      | none =>
        match w.nextAlarm? deadline with
        | some t => awaitFor done deadline fuel 0 { w with now := t }
        | none => w

/-- Lets everybody go on until they are parked, as long as no time passes. -/
def settle : (fuel : Nat) → World → World
  | 0, w => w
  | fuel + 1, w =>
    match w.round with
    | some w => settle fuel w
    | none => w

/-- Lets the world go on until a condition holds. -/
def await (done : World → Bool) (w : World) : World :=
  awaitFor done none patience 0 w

/-- Lets the world go on until a condition holds or a deadline has come. -/
def awaitUntil (done : World → Bool) (deadline : Nat) (w : World) : World :=
  awaitFor (fun w => done w || deadline ≤ w.now) (some deadline) patience 0 w

end Outbox.Scenario.World

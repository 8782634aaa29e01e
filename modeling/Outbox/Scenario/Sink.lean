import Outbox.Hub

namespace Outbox.Scenario

/-!
# Scripted sinks

* `Occasions` — on which calls something happens.
* `Rules` — which calls a sink refuses, on which it dies, and on which it raises the flag.
* `Sink` — the rules, the number of calls and the accepted groups.
* `Sink.respond` — what comes of a call.
-/

/-- On which calls something happens. Calls are counted from one. -/
inductive Occasions where
  | always
  | on (calls : List Nat)
  deriving DecidableEq, Repr

/-- Whether something happens on a call. -/
def Occasions.includes : Occasions → Nat → Bool
  | always, _ => true
  | on calls, n => calls.contains n

/-- What a sink does. -/
structure Rules where
  raises : Occasions
  dies : Occasions
  refuses : Occasions
  /-- Calls with an event of such a body are refused. -/
  refusedBodies : List Bytes
  deriving DecidableEq, Repr

/-- A sink that accepts everything. -/
def Rules.accepting : Rules := ⟨.on [], .on [], .on [], []⟩

/-- A sink that follows rules. -/
structure Sink where
  targets : List String
  style : SinkStyle
  rules : Rules
  /-- The number of calls so far. -/
  attempts : Nat
  /-- The accepted groups of events, the oldest first. -/
  groups : List (List Event)
  /-- While the gate is closed no call gets an answer. -/
  gateClosed : Bool
  deriving DecidableEq

namespace Sink

/-- A sink that accepts everything. -/
def new : Sink := ⟨["memory"], .whole, .accepting, 0, [], false⟩

/-- What comes of the call of a number. -/
def respond (s : Sink) (n : Nat) (events : List Event) : SinkAnswer × Sink :=
  if s.rules.dies.includes n then (.died, s)
  else if s.rules.refuses.includes n || events.any fun e => s.rules.refusedBodies.contains e.body
  then (.refused (.delivery "sink down"), s)
  else (.accepted, { s with groups := s.groups ++ [events] })

end Sink

end Outbox.Scenario

import Outbox.Bytes
import Outbox.Headers

namespace Outbox

/-!
# Events

* `Event` — a body of bytes with headers.
* `Event.guid?` — the header that identifies an event and becomes its key in the store.
* `Batch` — events that are delivered together.
-/

/-- The name of the header that identifies an event. -/
def guidHeader : String := "guid"

/-- What a producer hands over for delivery. -/
structure Event where
  body : Bytes
  headers : Headers
  deriving DecidableEq, Repr

namespace Event

/-- The event with one more header, or with another value for a header it has. -/
def withHeader (e : Event) (name value : String) : Event :=
  { e with headers := e.headers.add (name, value) }

/-- The identifier that the producer gave to the event. -/
def guid? (e : Event) : Option String :=
  e.headers.get? guidHeader

end Event

/-- Events for one delivery, in the order of the queue. -/
structure Batch where
  events : List Event
  deriving DecidableEq, Repr

namespace Batch

/-- A batch without events. -/
def empty : Batch := ⟨[]⟩

/-- The batch with one more event at its end. -/
def push (b : Batch) (e : Event) : Batch := ⟨b.events ++ [e]⟩

/-- The number of events. -/
def size (b : Batch) : Nat := b.events.length

/-- Whether there is no event. -/
def isEmpty (b : Batch) : Bool := b.events.isEmpty

@[simp] theorem events_empty : empty.events = [] := rfl

@[simp] theorem events_push (b : Batch) (e : Event) : (b.push e).events = b.events ++ [e] := rfl

end Batch

end Outbox

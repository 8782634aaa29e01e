import Outbox.Cipher
import Outbox.Frame

namespace Outbox.Cipher

/-!
# Stored values of events

* `sealEvent` — the value that an event is stored as: its frame, encrypted if there is a key.
* `openEvent` — the event of a stored value, or why the value is unreadable.
-/

/-- The value that an event is stored as. -/
def sealEvent (c : Cipher) (nonce : Nonce) (e : Event) : Except Error Bytes :=
  match Frame.encode e with
  | .error fault => .error (.encode fault)
  | .ok frame => .ok (c.encrypt nonce frame)

/-- The event of a stored value. -/
def openEvent (c : Cipher) (stored : Bytes) : Except Error Event :=
  match c.decrypt stored with
  | .error fault => .error (.cipher fault)
  | .ok frame =>
    match Frame.decode frame with
    | .error fault => .error (.corruptFrame fault)
    | .ok event => .ok event

end Outbox.Cipher

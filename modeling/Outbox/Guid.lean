import Outbox.Event
import Outbox.Text.Hex

namespace Outbox

/-!
# Time-ordered identifiers

Identifiers of 128 bits whose text sorts in the order in which they were made:

* `Guid.Clock` — a time in milliseconds and a count within it; `tick` never repeats a reading.
* `Guid.render` — the text of the identifier for a reading and some noise.
* `Event.fresh` — an event under a new identifier.
-/

namespace Guid

/-- A reading of the clock: milliseconds, and a count of 42 bits that tells apart what is made
    within one of them. -/
structure Clock where
  millis : Nat
  count : Nat
  deriving DecidableEq, Repr

/-- The reading after this one, at a time that is not earlier than the time shown. -/
def Clock.tick (c : Clock) (now : Nat) : Clock :=
  if c.millis < now then ⟨now, 0⟩
  else if c.count + 1 < 1 <<< 42 then ⟨c.millis, c.count + 1⟩
  else ⟨c.millis + 1, 0⟩

/-- The lowest bits of a number. -/
def low (bits n : Nat) : Nat := n % (1 <<< bits)

/-- The number that stands for a reading: 48 bits of time, the version 7, 12 bits of count, the
    variant, 30 bits of count and 32 bits of noise. -/
def number (c : Clock) (noise : Nat) : Nat :=
  low 48 c.millis <<< 80 + 7 <<< 76 + low 12 (c.count >>> 30) <<< 64 + 2 <<< 62 +
    low 30 c.count <<< 32 + low 32 noise

/-- The last `width` hexadecimal digits of a number. -/
def digits (n : Nat) : (width : Nat) → List Char
  | 0 => []
  | width + 1 => digits (n / 16) width ++ [Hex.digit (n % 16)]

/-- Groups of eight, four, four, four and twelve digits, with a dash between two groups. -/
def grouped (ds : List Char) : List Char :=
  ds.take 8 ++ '-' :: (ds.drop 8).take 4 ++ '-' :: (ds.drop 12).take 4 ++
    '-' :: (ds.drop 16).take 4 ++ '-' :: ds.drop 20

/-- The text of the identifier for a reading. -/
def render (c : Clock) (noise : Nat) : String :=
  String.ofList (grouped (digits (number c noise) 32))

end Guid

/-- An event under the identifier of a reading. -/
def Event.fresh (body : Bytes) (c : Guid.Clock) (noise : Nat) : Event :=
  ⟨body, Headers.empty.add (guidHeader, Guid.render c noise)⟩

end Outbox

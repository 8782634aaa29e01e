namespace Outbox

/-!
# Durations

* `Duration` — whole seconds and the nanoseconds beyond them.
* `Duration.toMillis` — the whole milliseconds of a duration, in a word of 64 bits.
* `Duration.ofMillis` — the duration of a number of milliseconds.
-/

/-- A span of time. -/
structure Duration where
  seconds : UInt64
  /-- Below `10 ^ 9`. -/
  nanos : UInt32
  deriving DecidableEq, Repr

namespace Duration

/-- The length of the span in nanoseconds. -/
def totalNanos (d : Duration) : Nat :=
  d.seconds.toNat * 1000000000 + d.nanos.toNat

/-- The whole milliseconds of the span. What does not fit a word of 64 bits is cut off at the
    top. -/
def toMillis (d : Duration) : UInt64 :=
  UInt64.ofNat (d.totalNanos / 1000000)

/-- The span of a number of milliseconds. -/
def ofMillis (ms : UInt64) : Duration :=
  ⟨ms / 1000, (ms % 1000 * 1000000).toUInt32⟩

end Duration

end Outbox

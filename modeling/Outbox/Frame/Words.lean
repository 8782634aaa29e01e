import Outbox.Frame

namespace Outbox.Frame

/-!
# A reader of frames with words

Reading a frame as a machine does it: lengths and places are words of 64 bits, a sum or a difference
may leave their range, a slice or an index may lie outside the bytes, and then the reader dies.

* `Buffer` — bytes in memory.
* `Reading` — what is done step by step, with a `Course` that notes where the reader has been.
* `Reading.take`, `Reading.number`, `Reading.text`, `Reading.headers` — the steps of reading.
* `Reading.frame` — all of it.
-/

/-! ### Buffers and courses -/

/-- Bytes in memory, where no more of them have room than a word counts with a bit to spare: fewer
than `2 ^ 63`. -/
structure Buffer where
  bytes : Bytes
  length_lt : bytes.length < 9223372036854775808

/-- The number of bytes. -/
def Buffer.length (b : Buffer) : UInt64 := .ofNat b.bytes.length

@[simp] theorem Buffer.toNat_length (buf : Buffer) : buf.length.toNat = buf.bytes.length := by
  have := buf.length_lt
  simp only [length, UInt64.toNat_ofNat']
  omega

/-- How far a reading has come, and what has happened on the way. -/
structure Course where
  /-- The place of the reader. -/
  position : UInt64
  /-- Where it has been so far, the last place first. -/
  places : List UInt64
  /-- How many headers are announced and how many bytes are left for them, once that is known. -/
  announced : Option (UInt64 × UInt64)
  /-- For how many headers room has been made. -/
  room : UInt64
  /-- How many headers it has begun to read. -/
  rounds : Nat
  deriving DecidableEq

/-- The reader is at the start of a frame. -/
def Course.start : Course := ⟨0, [0], none, 0, 0⟩

/-- Something that is done on a course. It gives a value, or it fails, which may be by the reader's
    death. -/
abbrev Reading (α : Type) := ExceptT Failure (StateM Course) α

/-! ### Readings -/

namespace Reading

/-- What is done, and the course after it. -/
def on {α : Type} (m : Reading α) (s : Course) : Except Failure α × Course :=
  Id.run (StateT.run (ExceptT.run m) s)

/-- The reader dies. -/
def die {α : Type} : Reading α := throw .crash

/-- The frame is found to be corrupt. -/
def corrupt {α : Type} (fault : FrameFault) : Reading α := throw (.error (.corruptFrame fault))

/-- The difference of two words, which must not be below zero. -/
def minus (a b : UInt64) : Reading UInt64 := if b ≤ a then pure (a - b) else die

/-- The sum of two words, which must be a word. -/
def plus (a b : UInt64) : Reading UInt64 :=
  if a.toNat + b.toNat < UInt64.size then pure (a + b) else die

/-- The bytes from one place to another, which must be places in the buffer and in order. -/
def slice (buf : Buffer) (first last : UInt64) : Reading Bytes :=
  if first ≤ last ∧ last ≤ buf.length then
    pure ((buf.bytes.take last.toNat).drop first.toNat)
  else die

/-- The byte at an index, which must be there. -/
def index (b : Bytes) (i : Nat) : Reading UInt8 :=
  match b[i]? with
  | some x => pure x
  | none => die

/-- The place of the reader. -/
def position : Reading UInt64 := do return (← get).position

/-- Goes to a place. -/
def goTo (place : UInt64) : Reading Unit :=
  modify fun s => { s with position := place, places := place :: s.places }

/-- The number of bytes that have not been read. -/
def remaining (buf : Buffer) : Reading UInt64 := do minus buf.length (← position)

/-- Reads so many bytes. -/
def take (buf : Buffer) (length : UInt64) : Reading Bytes := do
  let left ← remaining buf
  let place ← position
  if left < length then
    corrupt (.outOfBounds length.toNat place.toNat buf.length.toNat)
  else do
    let b ← slice buf place (← plus place length)
    goTo (← plus place length)
    return b

/-- The bytes at so many indices from one on. -/
def indices (b : Bytes) (i : Nat) : Nat → Reading Bytes
  | 0 => return []
  | n + 1 => do
    let x ← index b i
    let rest ← indices b (i + 1) n
    return x :: rest

/-- Reads a number of `width` bytes. -/
def number (buf : Buffer) (width : Nat) : Reading UInt64 := do
  let b ← take buf (.ofNat width)
  let b ← indices b 0 width
  return .ofNat (ofBE b)

/-- Reads a length and the text of that length. -/
def text (buf : Buffer) : Reading String := do
  let length ← number buf 2
  let b ← take buf length
  match Utf8.decode b with
  | .ok s => return s
  | .error fault => corrupt (.notUtf8 fault)

/-- Makes room for the headers that are announced, as many as the bytes that are left can hold. -/
def reserve (count left : UInt64) : Reading Headers := do
  let capacity := min count (left / 4)
  modify fun s => { s with announced := some (count, left), room := capacity }
  return Headers.withCapacity capacity.toNat

/-- Reads so many headers and inserts them in order. -/
def headers (buf : Buffer) : Nat → Headers → Reading Headers
  | 0, h => return h
  | count + 1, h => do
    modify fun s => { s with rounds := s.rounds + 1 }
    let name ← text buf
    let value ← text buf
    headers buf count (h.add (name, value))

/-- Reads a frame. -/
def frame (buf : Buffer) : Reading Event := do
  let length ← number buf 4
  let body ← take buf length
  let count ← number buf 4
  let room ← reserve count (← remaining buf)
  let h ← headers buf count.toNat room
  let left ← remaining buf
  if left ≠ 0 then corrupt (.trailing left.toNat) else return ⟨body, h⟩

end Reading

end Outbox.Frame

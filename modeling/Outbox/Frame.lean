import Outbox.Error
import Outbox.Event

namespace Outbox.Frame

/-!
# Frames

The bytes that stand for an event in the store. All lengths are written most significant byte
first:

* four bytes with the length of the body, and the body;
* four bytes with the number of headers;
* for each header, two bytes with the length of its name, the name, two bytes with the length of
  its value, and the value.

`encode` writes a frame and `decode` reads one. `Reader` is a place in a frame that is being read;
it carries the proof that the place is within the frame.
-/

/-! ### Writing -/

/-- A header's name or value after its length. -/
def encodeText (s : String) : Except EncodeFault Bytes :=
  let b := Utf8.encode s
  let length := b.length
  if length < 65536 then .ok (be16 length ++ b) else .error (.fieldTooLong length)

/-- Headers one after another. -/
def encodeHeaders : List (String × String) → Except EncodeFault Bytes
  | [] => .ok []
  | (name, value) :: rest => do
    let n ← encodeText name
    let v ← encodeText value
    return n ++ (v ++ (← encodeHeaders rest))

/-- The frame of an event. -/
def encode (e : Event) : Except EncodeFault Bytes :=
  let length := e.body.length
  let count := e.headers.size
  if 4294967296 ≤ length then .error (.bodyTooLarge length)
  else if 4294967296 ≤ count then .error .tooManyHeaders
  else do
    let headers ← encodeHeaders e.headers.toList
    return be32 length ++ (e.body ++ (be32 count ++ headers))

/-! ### Reading -/

/-- A place in a frame of `size` bytes: how many bytes have been read, and those that have not. -/
structure Reader (size : Nat) where
  position : Nat
  rest : Bytes
  within : position + rest.length = size

namespace Reader

/-- The start of a frame. -/
def start (frame : Bytes) : Reader frame.length :=
  ⟨0, frame, Nat.zero_add _⟩

/-- The number of bytes that have not been read. -/
def remaining {size : Nat} (r : Reader size) : Nat :=
  size - r.position

theorem remaining_eq {size : Nat} (r : Reader size) : r.remaining = r.rest.length := by
  have := r.within
  unfold remaining
  omega

/-- Reads `length` bytes. -/
def take {size : Nat} (r : Reader size) (length : Nat) :
    Except FrameFault (Bytes × Reader size) :=
  if h : length ≤ r.remaining then
    .ok (r.rest.take length, ⟨r.position + length, r.rest.drop length, by
      rw [remaining_eq] at h
      have := r.within
      simp only [List.length_drop]
      omega⟩)
  else .error (.outOfBounds length r.position size)

/-- Reads a number of `width` bytes. -/
def number {size : Nat} (r : Reader size) (width : Nat) :
    Except FrameFault (Nat × Reader size) := do
  let (b, r) ← r.take width
  return (ofBE b, r)

/-- Reads a length of two bytes and the text of that length. -/
def text {size : Nat} (r : Reader size) : Except FrameFault (String × Reader size) := do
  let (length, r) ← r.number 2
  let (b, r) ← r.take length
  match Utf8.decode b with
  | .ok s => return (s, r)
  | .error fault => throw (.notUtf8 fault)

/-- How many headers to make room for when `count` are announced: no more than the bytes that
    have not been read can hold. -/
def capacity {size : Nat} (r : Reader size) (count : Nat) : Nat :=
  min count (r.remaining / 4)

/-- Reads `count` headers and inserts them in order. -/
def headers {size : Nat} : (count : Nat) → Headers → Reader size →
    Except FrameFault (Headers × Reader size)
  | 0, h, r => .ok (h, r)
  | count + 1, h, r => do
    let (name, r) ← r.text
    let (value, r) ← r.text
    headers count (h.add (name, value)) r

end Reader

/-- The event of a frame. -/
def decode (frame : Bytes) : Except FrameFault Event := do
  let (length, r) ← (Reader.start frame).number 4
  let (body, r) ← r.take length
  let (count, r) ← r.number 4
  let (headers, r) ← r.headers count (Headers.withCapacity (r.capacity count))
  if r.remaining ≠ 0 then throw (.trailing r.remaining)
  return ⟨body, headers⟩

end Outbox.Frame

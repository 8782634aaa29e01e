import Outbox.Bytes
import Outbox.Text.Quoted
import Outbox.Text.Utf8

namespace Outbox.Hex

/-!
# Hexadecimal

* `encode` — two lower-case digits for each byte.
* `decode` — reads digits of either case. An odd number of bytes is reported before anything
  else, then the first byte that is no digit.
-/

/-- The lower-case digit of a number below sixteen. -/
def digit (n : Nat) : Char :=
  if n < 10 then Char.ofNat (48 + n) else Char.ofNat (87 + n)

/-- The digits of a byte string. -/
def encode (b : Bytes) : String :=
  String.ofList (b.flatMap fun x => [digit (x.toNat / 16), digit (x.toNat % 16)])

/-- The value of a digit. -/
def value (b : UInt8) : Option Nat :=
  let n := b.toNat
  if 48 ≤ n ∧ n ≤ 57 then some (n - 48)
  else if 65 ≤ n ∧ n ≤ 70 then some (n - 55)
  else if 97 ≤ n ∧ n ≤ 102 then some (n - 87)
  else none

/-- Why a text is not hexadecimal. -/
inductive Error where
  /-- The number of bytes is odd. -/
  | oddLength
  /-- A byte is no digit. -/
  | notDigit (byte : UInt8) (index : Nat)
  deriving DecidableEq, Repr

/-- The wording of the error. A byte is shown as the character of that code. -/
def Error.message : Error → String
  | .oddLength => "Odd number of digits"
  | .notDigit byte index =>
    s!"Invalid character {Text.quoteChar (Char.ofNat byte.toNat)} at position {index}"

/-- The value of a digit found at an index. -/
def valueAt (index : Nat) (b : UInt8) : Except Error Nat :=
  match value b with
  | some n => .ok n
  | none => .error (.notDigit b index)

/-- The bytes of pairs of digits, the first of which is at an index. -/
def decodePairs (index : Nat) : Bytes → Except Error Bytes
  | hi :: lo :: rest => do
    let h ← valueAt index hi
    let l ← valueAt (index + 1) lo
    return UInt8.ofNat (h * 16 + l) :: (← decodePairs (index + 2) rest)
  | _ => .ok []

/-- The bytes that the digits of a text denote. -/
def decode (s : String) : Except Error Bytes :=
  let b := Utf8.encode s
  if b.length % 2 = 1 then .error .oddLength else decodePairs 0 b

end Outbox.Hex

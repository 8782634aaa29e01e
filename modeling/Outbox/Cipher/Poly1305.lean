import Outbox.Bytes

namespace Outbox.Poly1305

/-!
# Poly1305

The one-time authenticator with a key of 32 bytes and a tag of 16. The message, in chunks of 16
bytes, is the list of coefficients of a polynomial, which is evaluated at a point modulo a prime.
-/

/-- The number that bytes denote, least significant first. -/
def ofLE : Bytes → Nat
  | [] => 0
  | b :: rest => b.toNat + 256 * ofLE rest

/-- The `width` least significant bytes of a number, least significant first. -/
def toLE : (width n : Nat) → Bytes
  | 0, _ => []
  | width + 1, n => UInt8.ofNat n :: toLE width (n / 256)

@[simp] theorem length_toLE (width n : Nat) : (toLE width n).length = width := by
  induction width generalizing n with
  | zero => rfl
  | succ width ih => simp [toLE, ih]

/-- The prime `2 ^ 130 - 5`. -/
def prime : Nat := 1 <<< 130 - 5

/-- The bits of the point that a key may set. -/
def mask : Nat := 0x0ffffffc0ffffffc0ffffffc0fffffff

/-- Takes a message in by chunks: the value so far plus the chunk, with a bit set after its last
    byte, times the point. -/
def absorb (point acc : Nat) (message : Bytes) : Nat :=
  if _h : message = [] then acc
  else
    let chunk := message.take 16
    absorb point ((acc + ofLE chunk + 1 <<< (8 * chunk.length)) * point % prime) (message.drop 16)
termination_by message.length
decreasing_by
  have : 0 < message.length := List.length_pos_iff.2 _h
  simp only [List.length_drop]
  omega

/-- The tag of a message under a key. -/
def tag (key message : Bytes) : Bytes :=
  toLE 16 (absorb (ofLE (key.take 16) &&& mask) 0 message + ofLE ((key.drop 16).take 16))

@[simp] theorem length_tag (key message : Bytes) : (tag key message).length = 16 := by
  simp [tag]

end Outbox.Poly1305

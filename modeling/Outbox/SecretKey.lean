import Outbox.Error

namespace Outbox

/-!
# Secret keys

* `SecretKey` — the 32 bytes of a key.
* `SecretKey.ofBytes` — takes bytes as a key if their number is right.
* `SecretKey.ofHex` — reads a key that is written in hexadecimal.
* `SecretKey.debug` — what may be shown of a key: nothing.
-/

/-- A key of 256 bits. -/
structure SecretKey where
  bytes : Bytes
  length_bytes : bytes.length = 32
  deriving DecidableEq

namespace SecretKey

/-- The number of bytes in a key. -/
def size : Nat := 32

/-- The key of these bytes. -/
def ofBytes (b : Bytes) : Except KeyFault SecretKey :=
  if h : b.length = 32 then .ok ⟨b, h⟩ else .error (.wrongSize size b.length)

/-- The key that a text spells. -/
def ofHex (s : String) : Except KeyFault SecretKey :=
  match Hex.decode s with
  | .error fault => .error (.notHex fault)
  | .ok b => ofBytes b

/-- A key shows nothing of itself. -/
def debug (_ : SecretKey) : String := "SecretKey(..)"

/-- The key made of the first 32 bytes of a source of random bytes. -/
def generate (source : Nat → UInt8) : SecretKey :=
  ⟨(List.range 32).map source, by simp⟩

end SecretKey

end Outbox

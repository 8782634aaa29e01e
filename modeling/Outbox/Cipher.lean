import Outbox.Cipher.ChaCha20
import Outbox.Cipher.Poly1305
import Outbox.SecretKey

namespace Outbox

/-!
# The cipher of stored values

Frames are stored as they are, or encrypted and authenticated under a key:

* `Sealed.tag`, `Sealed.make`, `Sealed.recover?` — authenticated encryption without associated data.
* `Cipher` — the choice of a key or none.
* `Cipher.encrypt` — the value to store: the nonce, the encrypted frame and the tag.
* `Cipher.decrypt` — the frame of a stored value.
-/

/-- The twelve bytes that make two encryptions under one key differ. -/
structure Nonce where
  bytes : Bytes
  length_bytes : bytes.length = 12
  deriving DecidableEq

namespace Nonce

/-- The number of bytes in a nonce. -/
def size : Nat := 12

/-- The nonce that holds a number, least significant byte first. -/
def ofNat (n : Nat) : Nonce :=
  ⟨Poly1305.toLE 12 n, by simp⟩

end Nonce

namespace Sealed

/-- Zero bytes that fill the last chunk of sixteen. -/
def padding (b : Bytes) : Bytes :=
  List.replicate ((16 - b.length % 16) % 16) 0

/-- The tag of encrypted bytes. Its key is the start of the key stream's first block. -/
def tag (key nonce encrypted : Bytes) : Bytes :=
  Poly1305.tag ((ChaCha20.block key nonce 0).take 32)
    (encrypted ++ padding encrypted ++ Poly1305.toLE 8 0 ++ Poly1305.toLE 8 encrypted.length)

/-- Encrypted bytes followed by their tag. -/
def make (key nonce plain : Bytes) : Bytes :=
  let encrypted := ChaCha20.apply key nonce 1 plain
  encrypted ++ tag key nonce encrypted

/-- The bytes that were sealed, if the tag is theirs. -/
def recover? (key nonce sealed : Bytes) : Option Bytes :=
  let length := sealed.length
  if length < 16 then none
  else
    let encrypted := sealed.take (length - 16)
    if sealed.drop (length - 16) = tag key nonce encrypted then
      some (ChaCha20.apply key nonce 1 encrypted)
    else none

end Sealed

/-- How values are stored: under a key, or as they are. -/
structure Cipher where
  key? : Option SecretKey
  deriving DecidableEq

namespace Cipher

/-- Values are stored as they are. -/
def plaintext : Cipher := ⟨none⟩

/-- Whether there is a key. -/
def isEnabled (c : Cipher) : Bool := c.key?.isSome

/-- What may be shown of a cipher. -/
def debug (c : Cipher) : String :=
  s!"PayloadCipher \x7b enabled: {c.isEnabled} \x7d"

/-- The value to store for a frame. -/
def encrypt (c : Cipher) (nonce : Nonce) (plain : Bytes) : Bytes :=
  match c.key? with
  | none => plain
  | some key => nonce.bytes ++ Sealed.make key.bytes nonce.bytes plain

/-- The frame of a stored value. -/
def decrypt (c : Cipher) (stored : Bytes) : Except CipherFault Bytes :=
  match c.key? with
  | none => .ok stored
  | some key =>
    if stored.length < Nonce.size then .error (.shorterThanNonce stored.length)
    else
      match Sealed.recover? key.bytes (stored.take Nonce.size) (stored.drop Nonce.size) with
      | some plain => .ok plain
      | none => .error .unauthentic

@[simp] theorem isEnabled_plaintext : plaintext.isEnabled = false := rfl

@[simp] theorem encrypt_plaintext (nonce : Nonce) (b : Bytes) : plaintext.encrypt nonce b = b := rfl

@[simp] theorem decrypt_plaintext (b : Bytes) : plaintext.decrypt b = .ok b := rfl

end Cipher

end Outbox

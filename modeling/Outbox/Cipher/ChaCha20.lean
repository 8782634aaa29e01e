import Outbox.Bytes

namespace Outbox.ChaCha20

/-!
# ChaCha20

The stream cipher with a key of 32 bytes, a nonce of 12 and blocks of 64:

* `block` — the key stream's block of a number.
* `apply` — data combined with the key stream from a block on; applying it twice gives the data
  back.
-/

/-- Sixteen words of 32 bits. -/
abbrev State := Vector UInt32 16

/-- The word rotated left by `n` bits. -/
def rotate (x n : UInt32) : UInt32 :=
  (x <<< n) ||| (x >>> (32 - n))

/-- A quarter round on four words of the state. -/
def quarter (s : State) (i j k l : Fin 16) : State :=
  let a := s[i] + s[j]
  let d := rotate (s[l] ^^^ a) 16
  let c := s[k] + d
  let b := rotate (s[j] ^^^ c) 12
  let a := a + b
  let d := rotate (d ^^^ a) 8
  let c := c + d
  let b := rotate (b ^^^ c) 7
  (((s.set i a).set j b).set k c).set l d

/-- A round on the columns and a round on the diagonals. -/
def doubleRound (s : State) : State :=
  let s := quarter s 0 4 8 12
  let s := quarter s 1 5 9 13
  let s := quarter s 2 6 10 14
  let s := quarter s 3 7 11 15
  let s := quarter s 0 5 10 15
  let s := quarter s 1 6 11 12
  let s := quarter s 2 7 8 13
  quarter s 3 4 9 14

/-- `n` double rounds. -/
def rounds : (n : Nat) → State → State
  | 0, s => s
  | n + 1, s => rounds n (doubleRound s)

/-- The word in four bytes from an index on, least significant byte first. -/
def word (b : Bytes) (i : Nat) : UInt32 :=
  let at_ (j : Nat) : UInt32 := (b.getD (i + j) 0).toUInt32
  at_ 0 ||| (at_ 1 <<< 8) ||| (at_ 2 <<< 16) ||| (at_ 3 <<< 24)

/-- The four bytes of a word, least significant first. -/
def wordBytes (x : UInt32) : Bytes :=
  [x.toUInt8, (x >>> 8).toUInt8, (x >>> 16).toUInt8, (x >>> 24).toUInt8]

/-- The state from which a block is made: constants, key, block number and nonce. -/
def initial (key nonce : Bytes) (number : Nat) : State :=
  #v[0x61707865, 0x3320646e, 0x79622d32, 0x6b206574,
    word key 0, word key 4, word key 8, word key 12,
    word key 16, word key 20, word key 24, word key 28,
    UInt32.ofNat number, word nonce 0, word nonce 4, word nonce 8]

/-- The block of a number: the initial state added to itself after ten double rounds. -/
def block (key nonce : Bytes) (number : Nat) : Bytes :=
  let s := initial key nonce number
  (s.zipWith (· + ·) (rounds 10 s)).toList.flatMap wordBytes

theorem length_flatMap_wordBytes (ws : List UInt32) :
    (ws.flatMap wordBytes).length = 4 * ws.length := by
  induction ws with
  | nil => rfl
  | cons w ws ih =>
    simp only [List.flatMap_cons, List.length_append, ih, List.length_cons, wordBytes,
      List.length_nil]
    omega

@[simp] theorem length_block (key nonce : Bytes) (number : Nat) :
    (block key nonce number).length = 64 := by
  rw [block, length_flatMap_wordBytes]
  simp

/-- Data combined with the key stream, from the block of a number on. -/
def apply (key nonce : Bytes) (number : Nat) (data : Bytes) : Bytes :=
  if _h : data = [] then []
  else
    (data.take 64).zipWith (· ^^^ ·) (block key nonce number) ++
      apply key nonce (number + 1) (data.drop 64)
termination_by data.length
decreasing_by
  have : 0 < data.length := List.length_pos_iff.2 _h
  simp only [List.length_drop]
  omega

end Outbox.ChaCha20

import Outbox.Bytes

namespace Outbox.Utf8

/-!
# UTF-8

Text as bytes and back:

* `encode` — the bytes of a text.
* `next` — what a byte string starts with: a character, a sequence that is broken after a number
  of bytes, or a sequence cut off by the end.
* `pieces` — a byte string as characters and broken sequences in order.
* `decode` — the text, or the offset of the first broken sequence.
* `lossy` — the text with every broken sequence shown as the replacement character.
-/

/-! ### Writing -/

/-- The bytes of one character. -/
def encodeChar (c : Char) : Bytes :=
  let n := c.toNat
  if n < 0x80 then [UInt8.ofNat n]
  else if n < 0x800 then [UInt8.ofNat (0xC0 + n / 64), UInt8.ofNat (0x80 + n % 64)]
  else if n < 0x10000 then
    [UInt8.ofNat (0xE0 + n / 4096), UInt8.ofNat (0x80 + n / 64 % 64), UInt8.ofNat (0x80 + n % 64)]
  else
    [UInt8.ofNat (0xF0 + n / 262144), UInt8.ofNat (0x80 + n / 4096 % 64),
      UInt8.ofNat (0x80 + n / 64 % 64), UInt8.ofNat (0x80 + n % 64)]

/-- The bytes of a text. -/
def encode (s : String) : Bytes :=
  s.toList.flatMap encodeChar

/-! ### Reading one character -/

/-- What a byte string starts with. -/
inductive Next where
  /-- Nothing: the byte string is empty. -/
  | done
  /-- A character, and the bytes after it. -/
  | char (c : Char) (rest : Bytes)
  /-- A sequence that no character starts with; it breaks after `length` bytes. -/
  | broken (length : Nat)
  /-- The start of a character, cut off by the end of the byte string. -/
  | cut

/-- What a lead byte above `0x7F` announces: how many bytes follow it, the bits that it
    contributes, and the range of the byte right after it. -/
def lead (b : UInt8) : Option (Nat × Nat × UInt8 × UInt8) :=
  let n := b.toNat
  if n < 0xC2 then none
  else if n < 0xE0 then some (1, n - 0xC0, 0x80, 0xBF)
  else if n = 0xE0 then some (2, 0, 0xA0, 0xBF)
  else if n = 0xED then some (2, 0xD, 0x80, 0x9F)
  else if n < 0xF0 then some (2, n - 0xE0, 0x80, 0xBF)
  else if n = 0xF0 then some (3, 0, 0x90, 0xBF)
  else if n < 0xF4 then some (3, n - 0xF0, 0x80, 0xBF)
  else if n = 0xF4 then some (3, 4, 0x80, 0x8F)
  else none

/-- Reads the `owed` bytes that finish a character, the first of them in the range from `lo` to
    `hi`; `acc` holds the bits so far and `seen` the number of bytes. -/
def continueChar : (owed acc seen : Nat) → (lo hi : UInt8) → Bytes → Next
  | 0, acc, _, _, _, rest => .char (Char.ofNat acc) rest
  | _ + 1, _, _, _, _, [] => .cut
  | owed + 1, acc, seen, lo, hi, b :: rest =>
    if lo ≤ b && b ≤ hi then
      continueChar owed (acc * 64 + b.toNat % 64) (seen + 1) 0x80 0xBF rest
    else .broken seen

/-- What a byte string starts with. -/
def next : Bytes → Next
  | [] => .done
  | b :: rest =>
    if b < 0x80 then .char (Char.ofNat b.toNat) rest
    else
      match lead b with
      | none => .broken 1
      | some (owed, bits, lo, hi) => continueChar owed bits 1 lo hi rest

theorem continueChar_char_length {owed acc seen : Nat} {lo hi : UInt8} {b : Bytes} {c : Char}
    {rest : Bytes} (h : continueChar owed acc seen lo hi b = .char c rest) :
    rest.length ≤ b.length := by
  induction owed generalizing acc seen lo hi b with
  | zero => simp only [continueChar, Next.char.injEq] at h; simp [h.2]
  | succ owed ih =>
    cases b with
    | nil => simp [continueChar] at h
    | cons x xs =>
      simp only [continueChar] at h
      split at h
      · exact Nat.le_succ_of_le (ih h)
      · simp at h

theorem next_char_length {b : Bytes} {c : Char} {rest : Bytes} (h : next b = .char c rest) :
    rest.length < b.length := by
  cases b with
  | nil => simp [next] at h
  | cons x xs =>
    simp only [next] at h
    split at h
    · simp only [Next.char.injEq] at h; simp [h.2]
    · split at h
      · simp at h
      · exact Nat.lt_succ_of_le (continueChar_char_length h)

theorem continueChar_broken_pos {owed acc seen : Nat} {lo hi : UInt8} {b : Bytes} {n : Nat}
    (h : continueChar owed acc seen lo hi b = .broken n) : seen ≤ n := by
  induction owed generalizing acc seen lo hi b with
  | zero => simp [continueChar] at h
  | succ owed ih =>
    cases b with
    | nil => simp [continueChar] at h
    | cons x xs =>
      simp only [continueChar] at h
      split at h
      · exact Nat.le_of_succ_le (ih h)
      · simp only [Next.broken.injEq] at h; omega

theorem next_broken_pos {b : Bytes} {n : Nat} (h : next b = .broken n) :
    0 < n ∧ 0 < b.length := by
  cases b with
  | nil => simp [next] at h
  | cons x xs =>
    refine ⟨?_, by simp⟩
    simp only [next] at h
    split at h
    · simp at h
    · split at h
      · simp only [Next.broken.injEq] at h; omega
      · exact continueChar_broken_pos h

/-! ### Pieces -/

/-- A part of a byte string. -/
inductive Piece where
  /-- A character. -/
  | char (c : Char)
  /-- Bytes that no character starts with, or, where `cut` is true, the start of a character that
      the end of the byte string cuts off. -/
  | broken (bytes : Bytes) (cut : Bool)

/-- A byte string as characters and broken sequences in order. -/
def pieces (b : Bytes) : List Piece :=
  match _h : next b with
  | .done => []
  | .char c rest => .char c :: pieces rest
  | .broken n => .broken (b.take n) false :: pieces (b.drop n)
  | .cut => [.broken b true]
termination_by b.length
decreasing_by
  · exact next_char_length _h
  · have := next_broken_pos _h
    simp only [List.length_drop]
    omega

/-! ### Reading a text -/

/-- Where bytes stop being UTF-8. -/
structure Error where
  /-- How many bytes come before the broken sequence. -/
  offset : Nat
  /-- How many bytes the broken sequence has; none when the end cuts it off. -/
  length : Option Nat
  deriving DecidableEq, Repr

/-- The wording of the error. -/
def Error.message (e : Error) : String :=
  match e.length with
  | some n => s!"invalid utf-8 sequence of {n} bytes from index {e.offset}"
  | none => s!"incomplete utf-8 byte sequence from index {e.offset}"

/-- The characters of pieces that start at an offset. -/
def decodePieces (offset : Nat) : List Piece → Except Error (List Char)
  | [] => .ok []
  | .char c :: ps => (decodePieces (offset + (encodeChar c).length) ps).map (c :: ·)
  | .broken bytes cut :: _ => .error ⟨offset, if cut then none else some bytes.length⟩

/-- The text that bytes encode. -/
def decode (b : Bytes) : Except Error String :=
  (decodePieces 0 (pieces b)).map String.ofList

/-- The character that a piece is shown as. -/
def Piece.shown : Piece → Char
  | .char c => c
  | .broken _ _ => '\uFFFD'

/-- The text of bytes, with a replacement character for every broken sequence. -/
def lossy (b : Bytes) : String :=
  String.ofList ((pieces b).map Piece.shown)

end Outbox.Utf8

import Outbox.Text.Unprintable
import Outbox.Text.Utf8

namespace Outbox.Text

/-!
# Quoted text

Text shown between quotes in a message, with everything that would not show as itself written as
an escape:

* `quoteChar` — one character between single quotes.
* `quoteBytes` — a byte string between double quotes. What is UTF-8 in it is shown as text and
  every other byte as `\xNN`.
-/

/-- The escape `\u{…}` of a character, in the fewest lower-case digits. -/
def unicodeEscape (c : Char) : List Char :=
  ['\\', 'u', '{'] ++ Nat.toDigits 16 c.toNat ++ ['}']

/-- How a character is written inside quotes; the characters of `marks` are the quotes that need
    a backslash there. -/
def quotedChar (marks : List Char) (c : Char) : List Char :=
  if c = '\x00' then ['\\', '0']
  else if c = '\t' then ['\\', 't']
  else if c = '\r' then ['\\', 'r']
  else if c = '\n' then ['\\', 'n']
  else if c = '\\' || marks.contains c then ['\\', c]
  else if Unprintable.extending.contains c || Unprintable.ranges.contains c then unicodeEscape c
  else [c]

/-- One character between single quotes. -/
def quoteChar (c : Char) : String :=
  String.ofList ('\'' :: quotedChar ['\''] c ++ ['\''])

/-- A byte as two upper-case digits after `\x`. -/
def byteEscape (b : UInt8) : List Char :=
  let digit (n : Nat) : Char := ("0123456789ABCDEF".toList[n]?).getD '0'
  ['\\', 'x', digit (b.toNat / 16), digit (b.toNat % 16)]

/-- One piece of a byte string as it is written between double quotes. -/
def quotedPiece : Utf8.Piece → List Char
  | .char c => quotedChar ['"', '\''] c
  | .broken bytes _ => bytes.flatMap byteEscape

/-- A byte string between double quotes. -/
def quoteBytes (b : Bytes) : String :=
  String.ofList ('"' :: (Utf8.pieces b).flatMap quotedPiece ++ ['"'])

end Outbox.Text

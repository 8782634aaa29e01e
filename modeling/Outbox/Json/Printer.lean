import Outbox.Json
import Outbox.Text.Hex

namespace Outbox.Json

/-!
# Writing JSON

* `quote` — a string between quotes. Only what must be escaped is.
* `compact` — a value without any space.
* `pretty` — a value with every item and field on a line of its own.
-/

/-- A character inside a string. -/
def quotedChar (c : Char) : List Char :=
  match c with
  | '"' => ['\\', '"']
  | '\\' => ['\\', '\\']
  | '\x08' => ['\\', 'b']
  | '\x0c' => ['\\', 'f']
  | '\n' => ['\\', 'n']
  | '\r' => ['\\', 'r']
  | '\t' => ['\\', 't']
  | c =>
    let n := c.toNat
    if n < 0x20 then ['\\', 'u', '0', '0', Hex.digit (n / 16), Hex.digit (n % 16)] else [c]

/-- A string between quotes. -/
def quote (s : String) : List Char :=
  '"' :: s.toList.flatMap quotedChar ++ ['"']

/-- A number. -/
def Number.chars : Number → List Char
  | .int n => (toString n).toList
  | .literal text => text.toList

mutual

/-- A value without any space. -/
def compactChars : Json → List Char
  | .null => ['n', 'u', 'l', 'l']
  | .bool true => ['t', 'r', 'u', 'e']
  | .bool false => ['f', 'a', 'l', 's', 'e']
  | .number n => n.chars
  | .string s => quote s
  | .array items => '[' :: compactItems items
  | .object fields => '\x7b' :: compactFields fields
  | .unreadable => ['n', 'u', 'l', 'l']

/-- Items separated by commas, and the end of the array. -/
def compactItems : List Json → List Char
  | [] => [']']
  | [v] => compactChars v ++ [']']
  | v :: vs => compactChars v ++ ',' :: compactItems vs

/-- Fields separated by commas, and the end of the object. -/
def compactFields : List (String × Json) → List Char
  | [] => ['\x7d']
  | [(name, v)] => quote name ++ ':' :: compactChars v ++ ['\x7d']
  | (name, v) :: fs => quote name ++ ':' :: compactChars v ++ ',' :: compactFields fs

end

/-- The text of a value without any space. -/
def compact (v : Json) : String :=
  String.ofList (compactChars v)

/-- The start of a line at a depth. -/
def indent (depth : Nat) : List Char :=
  '\n' :: List.replicate (2 * depth) ' '

mutual

/-- A value at a depth, with every item and field of a container on its own line. -/
def prettyChars (depth : Nat) : Json → List Char
  | .array [] => ['[', ']']
  | .array items => '[' :: prettyItems (depth + 1) items
  | .object [] => ['\x7b', '\x7d']
  | .object fields => '\x7b' :: prettyFields (depth + 1) fields
  | .null => compactChars .null
  | .bool b => compactChars (.bool b)
  | .number n => compactChars (.number n)
  | .string s => compactChars (.string s)
  | .unreadable => compactChars .unreadable

/-- Items on their lines, and the end of the array. -/
def prettyItems (depth : Nat) : List Json → List Char
  | [] => indent (depth - 1) ++ [']']
  | [v] => indent depth ++ prettyChars depth v ++ indent (depth - 1) ++ [']']
  | v :: vs => indent depth ++ prettyChars depth v ++ ',' :: prettyItems depth vs

/-- Fields on their lines, and the end of the object. -/
def prettyFields (depth : Nat) : List (String × Json) → List Char
  | [] => indent (depth - 1) ++ ['\x7d']
  | [(name, v)] =>
    indent depth ++ quote name ++ ':' :: ' ' :: prettyChars depth v ++ indent (depth - 1) ++
      ['\x7d']
  | (name, v) :: fs =>
    indent depth ++ quote name ++ ':' :: ' ' :: prettyChars depth v ++ ',' :: prettyFields depth fs

end

/-- The text of a value over several lines. -/
def pretty (v : Json) : String :=
  String.ofList (prettyChars 0 v)

end Outbox.Json

import Outbox.Json.Token

namespace Outbox.Json

/-!
# Reading JSON

Tokens are read one at a time, with the containers that are open kept on a stack:

* `Open` — an array or object whose end has not been read, with what it holds so far.
* `Awaiting` — what may come next.
* `Reading.step` — reads one token.
* `parse?` — the value of a text that holds one value and nothing else.
-/

/-- A container whose end has not been read. What it holds is listed last first. -/
inductive Open where
  | array (items : List Json)
  /-- An object, with the name of the field that is being read. -/
  | object (fields : List (Option String × Json)) (name : Option String)

/-- What may come next. -/
inductive Awaiting where
  /-- A value. -/
  | value
  /-- The first item of an array, or its end. -/
  | firstItem
  /-- The first name of an object, or its end. -/
  | firstName
  /-- A name. -/
  | name
  /-- The colon after a name. -/
  | colon (name : Option String)
  /-- A comma, or the end of the innermost container. -/
  | separator
  /-- Nothing: the value is complete. -/
  | finished (value : Json)

/-- How far a text has been read. -/
structure Reading where
  stack : List Open
  awaiting : Awaiting

/-- An object of fields that are listed last first. -/
def closeFields (fields : List (Option String × Json)) : Json :=
  match fields.reverse.mapM fun (name, value) => name.map (·, value) with
  | some fs => .object fs
  | none => .unreadable

namespace Reading

/-- Nothing has been read. -/
def start : Reading := ⟨[], .value⟩

/-- Takes a complete value into the innermost container. -/
def give (stack : List Open) (v : Json) : Reading :=
  match stack with
  | [] => ⟨[], .finished v⟩
  | .array items :: stack => ⟨.array (v :: items) :: stack, .separator⟩
  | .object fields name :: stack => ⟨.object ((name, v) :: fields) name :: stack, .separator⟩

/-- Reads the first token of a value. -/
def stepValue (stack : List Open) : Token → Option Reading
  | .null => some (give stack .null)
  | .bool b => some (give stack (.bool b))
  | .number n => some (give stack (.number n))
  | .string (some s) => some (give stack (.string s))
  | .string none => some (give stack .unreadable)
  | .openArray => some ⟨.array [] :: stack, .firstItem⟩
  | .openObject => some ⟨.object [] none :: stack, .firstName⟩
  | _ => none

/-- Reads a token. -/
def step (r : Reading) (t : Token) : Option Reading :=
  match r.awaiting, t, r.stack with
  | .value, t, stack => stepValue stack t
  | .firstItem, .closeArray, .array _ :: stack => some (give stack (.array []))
  | .firstItem, t, stack => stepValue stack t
  | .firstName, .closeObject, .object _ _ :: stack => some (give stack (.object []))
  | .firstName, .string name, stack => some ⟨stack, .colon name⟩
  | .name, .string name, stack => some ⟨stack, .colon name⟩
  | .colon name, .colon, .object fields _ :: stack => some ⟨.object fields name :: stack, .value⟩
  | .separator, .comma, .array items :: stack => some ⟨.array items :: stack, .value⟩
  | .separator, .comma, .object fields name :: stack => some ⟨.object fields name :: stack, .name⟩
  | .separator, .closeArray, .array items :: stack => some (give stack (.array items.reverse))
  | .separator, .closeObject, .object fields _ :: stack => some (give stack (closeFields fields))
  | _, _, _ => none

/-- Reads tokens. -/
def run : Reading → List Token → Option Reading
  | r, [] => some r
  | r, t :: ts =>
    match r.step t with
    | none => none
    | some r => run r ts

end Reading

/-- The value of a text. -/
def parse? (s : String) : Option Json :=
  match tokens? s.toList with
  | none => none
  | some ts =>
    match Reading.start.run ts with
    | some ⟨_, .finished v⟩ => some v
    | _ => none

end Outbox.Json

import Outbox.Json

namespace Outbox.Json

/-!
# Reading records

Values of known shape out of JSON values:

* `uint64?`, `uint32?`, `byte?`, `int64?`, `text?`, `list?` — values of one kind.
* `record?` — the fields of a record, from an object or from an array in the order of the fields.
* `required`, `orElse` — a field that must be there, or one that has a default.
-/

/-- An integer that is at least `least` and at most `most`. -/
def intBetween? (least most : Int) : Json → Option Int
  | .number (.int n) => if least ≤ n ∧ n ≤ most then some n else none
  | _ => none

/-- An integer of 64 bits without sign. -/
def uint64? (v : Json) : Option UInt64 :=
  (intBetween? 0 18446744073709551615 v).map fun n => UInt64.ofNat n.toNat

/-- An integer of 32 bits without sign. -/
def uint32? (v : Json) : Option UInt32 :=
  (intBetween? 0 4294967295 v).map fun n => UInt32.ofNat n.toNat

/-- An integer of 8 bits without sign. -/
def byte? (v : Json) : Option UInt8 :=
  (intBetween? 0 255 v).map fun n => UInt8.ofNat n.toNat

/-- An integer of 64 bits with sign. -/
def int64? (v : Json) : Option Int64 :=
  (intBetween? (-9223372036854775808) 9223372036854775807 v).map Int64.ofInt

/-- A string. -/
def string? : Json → Option String
  | .string s => some s
  | _ => none

/-- A string, or null for none. -/
def nullable? : Json → Option (Option String)
  | .null => some none
  | .string s => some (some s)
  | _ => none

/-- An array of values that are all read alike. -/
def list? {α : Type} (read : Json → Option α) : Json → Option (List α)
  | .array items => items.mapM read
  | _ => none

/-- An array of two strings. -/
def pair? : Json → Option (String × String)
  | .array [.string a, .string b] => some (a, b)
  | _ => none

/-- The value of a field in the fields of an object. -/
def field? (fields : List (String × Json)) (name : String) : Option Json :=
  fields.lookup name

/-- Whether no field of these names is given twice. -/
def distinct (fields : List (String × Json)) (names : List String) : Bool :=
  names.all fun name => (fields.filter fun f => f.1 == name).length ≤ 1

/-- The fields of a record. An object may give them in any order and may have others, which are
    skipped; an array gives the first ones in order. -/
def record? (names : List String) : Json → Option (List (Option Json))
  | .object fields => if distinct fields names then some (names.map (field? fields)) else none
  | .array items =>
    if items.length ≤ names.length then
      some (items.map some ++ List.replicate (names.length - items.length) none)
    else none
  | _ => none

/-- A field that must be given. -/
def required {α : Type} (read : Json → Option α) : Option Json → Option α
  | none => none
  | some v => read v

/-- A field that has a default. -/
def orElse {α : Type} (read : Json → Option α) (default : α) : Option Json → Option α
  | none => some default
  | some v => read v

end Outbox.Json

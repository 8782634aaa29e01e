namespace Outbox

/-!
# JSON values

* `Json` — a value, with the fields of an object in the order in which they were written.
* `Json.Number` — an integer, or a literal with a fraction, an exponent or a negative zero.
-/

/-- A number. Only integers are read as such; any other literal is kept as it was written. -/
inductive Json.Number where
  | int (n : Int)
  | literal (text : String)
  deriving DecidableEq, Repr

/-- A value. -/
inductive Json where
  | null
  | bool (b : Bool)
  | number (n : Json.Number)
  | string (s : String)
  | array (items : List Json)
  | object (fields : List (String × Json))
  /-- A value that is well formed but may only be skipped: a string, or an object with a name, in
      which an escape stands for half of a character. -/
  | unreadable

namespace Json

/-- An integer that is not negative. -/
def ofNat (n : Nat) : Json := .number (.int n)

/-- An integer. -/
def ofInt (n : Int) : Json := .number (.int n)

end Json

end Outbox

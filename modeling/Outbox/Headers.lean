namespace Outbox

/-!
# Headers

An insertion-ordered map from names to values:

* `Headers.insert` — replaces the value of a name where it stands, or adds the name at the end;
  gives the value that was replaced.
* `Headers.remove` — takes a name out and closes the gap; gives the value that was removed.
* `Headers.get?` — the value of a name.
* `Headers.ofList` — the pairs inserted one after another.
-/

/-- Names with values, in the order in which the names were first inserted. -/
structure Headers where
  toList : List (String × String)
  deriving DecidableEq, Repr

namespace Headers

/-- No headers. -/
def empty : Headers := ⟨[]⟩

/-- No headers, with room for a number of them; the room changes nothing that can be seen. -/
def withCapacity (_ : Nat) : Headers := empty

/-- The number of headers. -/
def size (h : Headers) : Nat := h.toList.length

/-- Whether there is no header. -/
def isEmpty (h : Headers) : Bool := h.toList.isEmpty

/-- The names in order. -/
def names (h : Headers) : List String := h.toList.map Prod.fst

/-- The value of a name in a list of pairs: the first one with that name. -/
def find (name : String) : List (String × String) → Option String
  | [] => none
  | (n, v) :: rest => if n = name then some v else find name rest

/-- The value of a name. -/
def get? (h : Headers) (name : String) : Option String :=
  find name h.toList

/-- Puts a value under a name into a list of pairs, and gives the value that stood there. -/
def put (name value : String) : List (String × String) → Option String × List (String × String)
  | [] => (none, [(name, value)])
  | (n, v) :: rest =>
    if n = name then (some v, (n, value) :: rest)
    else
      let (old, rest') := put name value rest
      (old, (n, v) :: rest')

/-- Replaces the value of a name, or adds the name at the end. -/
def insert (h : Headers) (name value : String) : Option String × Headers :=
  let (old, list) := put name value h.toList
  (old, ⟨list⟩)

/-- Takes the first pair of a name out of a list, and gives its value. -/
def takeOut (name : String) : List (String × String) → Option String × List (String × String)
  | [] => (none, [])
  | (n, v) :: rest =>
    if n = name then (some v, rest)
    else
      let (old, rest') := takeOut name rest
      (old, (n, v) :: rest')

/-- Removes a name. -/
def remove (h : Headers) (name : String) : Option String × Headers :=
  let (old, list) := takeOut name h.toList
  (old, ⟨list⟩)

/-- The headers after another pair is inserted. -/
def add (h : Headers) (pair : String × String) : Headers :=
  (h.insert pair.1 pair.2).2

/-- The pairs of a list inserted in order. -/
def ofList (pairs : List (String × String)) : Headers :=
  pairs.foldl add empty

@[simp] theorem toList_empty : empty.toList = [] := rfl

@[simp] theorem withCapacity_eq (n : Nat) : withCapacity n = empty := rfl

@[simp] theorem get?_empty (name : String) : empty.get? name = none := rfl

@[simp] theorem insert_fst (h : Headers) (name value : String) :
    (h.insert name value).1 = h.get? name := by
  unfold insert get?
  induction h.toList with
  | nil => rfl
  | cons p rest ih =>
    simp only [put, find]
    split
    · rfl
    · exact ih

@[simp] theorem remove_fst (h : Headers) (name : String) :
    (h.remove name).1 = h.get? name := by
  unfold remove get?
  induction h.toList with
  | nil => rfl
  | cons p rest ih =>
    simp only [takeOut, find]
    split
    · rfl
    · exact ih

end Headers

end Outbox

import Outbox.Disk

namespace Outbox.DataFile

/-!
# Data files as bytes

* `image` — the bytes of a data file: a mark, the size of the map, and the databases one after
  another with their entries. All lengths have four bytes.
* `ofImage?` — the data file of its bytes; anything else is refused.
-/

/-- The bytes that every data file starts with. -/
def mark : Bytes := Utf8.encode "outbox data file 1\n"

/-! ### Writing -/

/-- Bytes after their number. -/
def sized (b : Bytes) : Bytes := be32 b.length ++ b

/-- The bytes of an entry. -/
def entryImage (e : Entry) : Bytes := sized e.key ++ sized e.value

/-- The bytes of a database. -/
def tableImage (d : String × Table) : Bytes :=
  sized (Utf8.encode d.1) ++ be32 d.2.size ++ d.2.toList.flatMap entryImage

/-- The bytes of a data file. -/
def image (f : DataFile) : Bytes :=
  mark ++ be32 (f.mapSize / 4294967296) ++ be32 f.mapSize ++ be32 f.databases.length ++
    f.databases.flatMap tableImage

/-! ### Reading -/

/-- The first `n` bytes and the rest. -/
def takeBytes (n : Nat) (b : Bytes) : Option (Bytes × Bytes) :=
  let start := b.take n
  if start.length = n then some (start, b.drop n) else none

/-- A number of four bytes and the rest. -/
def takeNumber (b : Bytes) : Option (Nat × Bytes) :=
  (takeBytes 4 b).map fun (x, rest) => (ofBE x, rest)

/-- Bytes that come after their number, and the rest. -/
def takeSized (b : Bytes) : Option (Bytes × Bytes) :=
  (takeNumber b).bind fun (n, rest) => takeBytes n rest

/-- A table with `n` more entries, and the rest. -/
def takeEntries : (n : Nat) → Table → Bytes → Option (Table × Bytes)
  | 0, t, b => some (t, b)
  | n + 1, t, b => do
    let (key, b) ← takeSized b
    let (value, b) ← takeSized b
    takeEntries n (t.insert key value) b

/-- As many databases as are announced, and the rest. -/
def takeTables : (n : Nat) → Bytes → Option (List (String × Table) × Bytes)
  | 0, b => some ([], b)
  | n + 1, b => do
    let (name, b) ← takeSized b
    let name ← (Utf8.decode name).toOption
    let (count, b) ← takeNumber b
    let (table, b) ← takeEntries count .empty b
    let (tables, b) ← takeTables n b
    return ((name, table) :: tables, b)

/-- The data file of its bytes. -/
def ofImage? (b : Bytes) : Option DataFile := do
  let (start, b) ← takeBytes mark.length b
  if start ≠ mark then none
  let (high, b) ← takeNumber b
  let (low, b) ← takeNumber b
  let (count, b) ← takeNumber b
  let (databases, b) ← takeTables count b
  if b.isEmpty then some ⟨databases, high * 4294967296 + low⟩ else none

end Outbox.DataFile

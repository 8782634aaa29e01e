import Outbox.Config
import Outbox.Store.Basic

namespace Outbox

/-!
# Files

The files that stores live in:

* `Path` — the names that a path is made of.
* `Disk` — directories, plain files and data files by path.
* `Disk.createAll` — makes a directory and those above it.
* `Disk.openStore` — opens the store of a configuration, making what is missing.
* `Home` — where an open store lives; `Disk.table?` and `Disk.save` read and write its entries.
-/

/-! ### Paths -/

/-- The names on the way to a file. A path that starts at the root has `"/"` as its first. -/
abbrev Path := List String

namespace Path

/-- The parts of a text between slashes. -/
def split : List Char → List (List Char)
  | [] => [[]]
  | c :: cs =>
    if c = '/' then [] :: split cs
    else
      match split cs with
      | [] => [[c]]
      | part :: parts => (c :: part) :: parts

/-- The names between slashes. -/
def parts (s : String) : List String :=
  ((split s.toList).map String.ofList).filter fun n => n ≠ ""

/-- The names of a path that is written with slashes, without those that are a dot. -/
def names (s : String) : Path :=
  let names := (parts s).filter fun n => n ≠ "."
  if s.toList.head? = some '/' then "/" :: names else names

/-- The names of a path that is written with slashes. A dot stands for the directory before it; it
    is kept at the end only, where it says that there has to be one. -/
def ofString (s : String) : Path :=
  if (parts s).getLast? = some "." then names s ++ ["."] else names s

/-- How the path of a name in a directory is written. -/
def join (directory name : String) : String :=
  if directory = "" ∨ directory.toList.getLast? = some '/' then directory ++ name
  else directory ++ "/" ++ name

/-- The path of what a path is in. -/
def parent (p : Path) : Path :=
  if p.getLast? = some "." then p.dropLast.dropLast else p.dropLast

/-- The greatest number of bytes in a name. -/
def maxNameSize : Nat := 255

/-- A whole path has fewer bytes than this. -/
def maxSize : Nat := 4096

end Path

/-! ### Disks -/

/-- What a data file holds. -/
structure DataFile where
  /-- Tables by name. -/
  databases : List (String × Table)
  /-- The greatest size that the file was opened with. -/
  mapSize : Nat
  deriving DecidableEq

namespace DataFile

/-- The size of a data file that is made without one. -/
def defaultMapSize : Nat := 1048576

/-- The table of a name. -/
def table? (f : DataFile) (name : String) : Option Table :=
  f.databases.lookup name

/-- The data file with a table under a name. -/
def setTable (f : DataFile) (name : String) (t : Table) : DataFile :=
  { f with databases := (name, t) :: f.databases.filter fun d => d.1 != name }

end DataFile

/-- What is at a path. -/
inductive Node where
  | directory
  | file (content : Bytes)
  | data (file : DataFile)
  deriving DecidableEq

/-- Files by path. -/
structure Disk where
  nodes : List (Path × Node)
  deriving DecidableEq

namespace Disk

/-- No file and no directory. -/
def empty : Disk := ⟨[]⟩

/-- What is at a path. The directory in which paths start is always there. -/
def node? (d : Disk) (p : Path) : Option Node :=
  if p = [] ∨ p = ["/"] then some .directory else d.nodes.lookup p

/-- Puts something at a path. -/
def set (d : Disk) (p : Path) (n : Node) : Disk :=
  ⟨(p, n) :: d.nodes.filter fun x => x.1 != p⟩

/-- Goes from a directory along names, all of which must be there. -/
def follow (d : Disk) (dir : Path) : (names : Path) → Except OsError Path
  | [] => .ok dir
  | name :: names =>
    match d.node? dir with
    | none => .error .notFound
    | some .directory =>
      if name = "." then follow d dir names
      else if name = ".." then follow d dir.dropLast names
      else if Path.maxNameSize < name.utf8ByteSize then .error .nameTooLong
      else if (d.node? (dir ++ [name])).isNone then .error .notFound
      else follow d (dir ++ [name]) names
    | some _ => .error .notDirectory

/-- What a path leads to. -/
def lookup? (d : Disk) (p : Path) : Option Node :=
  match d.follow [] p with
  | .ok place => d.node? place
  | .error _ => none

/-- What a written path leads to. After a slash at its end there has to be a directory. -/
def find? (d : Disk) (path : String) : Option Node :=
  if path = "" ∨ path.toList.contains '\x00' ∨ Path.maxSize ≤ path.utf8ByteSize then none
  else
    match d.lookup? (Path.ofString path) with
    | some .directory => some .directory
    | some n => if path.toList.getLast? = some '/' then none else some n
    | none => none

/-- Whether a path leads to a directory. -/
def isDirectory (d : Disk) (p : Path) : Bool := d.lookup? p = some .directory

/-- Makes one directory. -/
def create (d : Disk) (p : Path) : Except OsError Disk :=
  match p.getLast? with
  | none => .error .alreadyExists
  | some name => do
    let dir ← d.follow [] p.dropLast
    if d.node? dir ≠ some .directory then throw .notDirectory
    if name = "." ∨ name = ".." then throw .alreadyExists
    if Path.maxNameSize < name.utf8ByteSize then throw .nameTooLong
    if (d.node? (dir ++ [name])).isSome then throw .alreadyExists
    return d.set (dir ++ [name]) .directory

/-- Makes a directory unless it is there. -/
def ensure (d : Disk) (p : Path) : Disk × Except OsError Unit :=
  match d.create p with
  | .ok d => (d, .ok ())
  | .error e => (d, if d.isDirectory p then .ok () else .error e)

/-- Makes a directory and those above it that are missing; `depth` bounds how many there are. What
    has been made stays if a later one cannot be made. -/
def createUpTo (d : Disk) (p : Path) : (depth : Nat) → Disk × Except OsError Unit
  | 0 => (d, .error .notFound)
  | depth + 1 =>
    match d.ensure p with
    | (d, .ok ()) => (d, .ok ())
    | (d, .error e) =>
      if e = .notFound then
        match createUpTo d p.parent depth with
        | (d, .ok ()) => d.ensure p
        | (d, .error e) => (d, .error e)
      else (d, .error e)

/-- Makes the directory of a written path and those above it that are missing. -/
def createAll (d : Disk) (path : String) : Disk × Except IoFault Unit :=
  if path.toList.contains '\x00' then (d, .error .nulInPath)
  else if Path.maxSize ≤ path.utf8ByteSize then (d, .error (.os .nameTooLong))
  else
    let p := Path.ofString path
    match d.createUpTo p (p.length + 1) with
    | (d, .ok ()) => (d, .ok ())
    | (d, .error e) => (d, .error (.os e))

/-- Puts a file with some bytes at a path. -/
def write (d : Disk) (p : Path) (content : Bytes) : Disk :=
  d.set p (.file content)

end Disk

/-! ### Stores on a disk -/

/-- Where an open store lives. -/
structure Home where
  directory : Path
  database : String
  deriving DecidableEq, Repr

/-- The name of the data file in a store's directory. -/
def dataFileName : String := "data.mdb"

/-- The name of the lock file in a store's directory. -/
def lockFileName : String := "lock.mdb"

namespace Disk

/-- The data file in a directory. -/
def dataFile? (d : Disk) (dir : Path) : Option DataFile :=
  match d.node? (dir ++ [dataFileName]) with
  | some (.data f) => some f
  | _ => none

/-- The committed entries of a store. -/
def table? (d : Disk) (h : Home) : Option Table :=
  (d.dataFile? h.directory).bind fun f => f.table? h.database

/-- Makes a table the committed entries of a store. -/
def save (d : Disk) (h : Home) (t : Table) : Disk :=
  match d.dataFile? h.directory with
  | none => d
  | some f => d.set (h.directory ++ [dataFileName]) (.data (f.setTable h.database t))

/-- Opens the lock file and the data file in a directory, making what is missing, and gives the
    size that values are limited by. A size of zero stands for that of the file. -/
def openFiles (d : Disk) (dir : Path) (mapSize : Nat) : Disk × Except EngineFault Nat :=
  let lock := dir ++ [lockFileName]
  let data := dir ++ [dataFileName]
  if d.node? lock = some .directory then (d, .error (.os .isDirectory))
  else
    let d := if (d.node? lock).isNone then d.write lock [] else d
    match d.node? data with
    | some .directory => (d, .error (.os .isDirectory))
    | some (.file (_ :: _)) => (d, .error .notDataFile)
    | some (.data f) =>
      (d.set data (.data { f with mapSize := max f.mapSize mapSize }),
        .ok (if mapSize = 0 then f.mapSize else mapSize))
    | none | some (.file []) =>
      let size := if mapSize = 0 then DataFile.defaultMapSize else mapSize
      (d.set data (.data ⟨[], size⟩), .ok size)

/-- Opens the store of a configuration. Its directory, its files and its database are made if they
    are missing, and stay if a later step fails. -/
def openStore (d : Disk) (c : StoreConfig) : Disk × Except Failure (Home × Store) :=
  let path := c.dataDir
  let refuse (f : OpenFault) : Except Failure (Home × Store) := .error (.error (.storeOpen f))
  match d.createAll path with
  | (d, .error fault) => (d, refuse (.directory path fault))
  | (d, .ok ()) =>
    if c.maxReaders = 0 then (d, refuse (.environment path (.os .invalidArgument)))
    else if Path.maxSize ≤ path.utf8ByteSize + 1 + lockFileName.utf8ByteSize then
      (d, refuse (.environment path (.os .nameTooLong)))
    else
      match d.follow [] (Path.ofString path) with
      | .error e => (d, refuse (.environment path (.os e)))
      | .ok dir =>
        match d.openFiles dir c.mapSize.toNat with
        | (d, .error fault) => (d, refuse (.environment path fault))
        | (d, .ok mapSize) =>
          if c.name.toList.contains '\x00' then (d, .error .crash)
          else if c.name = "" ∨ Store.maxKeySize < c.name.utf8ByteSize then
            (d, refuse (.database c.name .badValueSize))
          else
            let home : Home := ⟨dir, c.name⟩
            let table := (d.table? home).getD .empty
            (d.save home table, .ok (home, Store.ofTable table mapSize))

end Disk

end Outbox

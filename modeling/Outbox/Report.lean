import Outbox.Disk
import Outbox.Envelope
import Outbox.Json.Printer
import Outbox.Report.Arguments

namespace Outbox.Report

/-!
# Reports

What an operator sees of a store:

* `Target.openStore` — opens a store that is there; nothing is made where there is none.
* `status`, `statusJson` — how many entries are queued.
* `decoded`, `Row`, `listing` — the first entries, each with what can be read of it.
* `answer` — what a request is answered with.
* `run` — what a command line prints, and the code that it ends with.
-/

/-! ### Opening -/

/-- Why there is no report. -/
inductive Fault where
  /-- The given key is no key. -/
  | badKey (e : Error)
  /-- There is no data file. -/
  | noStore (path : String)
  | notOpened (path : String) (e : Error)
  | notScanned (e : Error)
  deriving DecidableEq

/-- What is printed about a fault: what was attempted, and why it failed. -/
def Fault.parts : Fault → String × Option String
  | .badKey e => ("Invalid --key-hex", some e.message)
  | .noStore path => (s!"No spool store found at {path}", none)
  | .notOpened path e => (s!"Failed to open store at {path}", some e.message)
  | .notScanned e => ("Failed to scan store", some e.message)

/-- A text in which each line after a line break is indented. -/
def indented (s : String) : String :=
  String.ofList (s.toList.flatMap fun c => if c = '\n' then '\n' :: List.replicate 4 ' ' else [c])

/-- The text that is printed about a fault. -/
def Fault.text (f : Fault) : String :=
  match f.parts with
  | (attempt, none) => s!"Error: {attempt}\n"
  | (attempt, some cause) => s!"Error: {attempt}\n\nCaused by:\n    {indented cause}\n"

/-- Opens a store if there is a data file. -/
def Target.openStore (t : Target) (d : Disk) : Disk × Except Failure (Except Fault Store) :=
  if (d.find? (Path.join t.path dataFileName)).isSome then
    match d.openStore { StoreConfig.atPath t.path with name := t.name } with
    | (d, .ok (_, store)) => (d, .ok (.ok store))
    | (d, .error (.error e)) => (d, .ok (.error (.notOpened t.path e)))
    | (d, .error .crash) => (d, .error .crash)
  else (d, .ok (.error (.noStore t.path)))

/-! ### Status -/

/-- The status of a store as text. -/
def status (t : Target) (s : Store) : String :=
  let line := String.ofList (List.replicate 60 '=')
  let outlook :=
    if s.count = 0 then "✓ Queue is empty" else s!"⚠️  {s.count} event(s) awaiting delivery"
  s!"\nSpool Status\n{line}\nPath: {t.path}\nDatabase: {t.name}\nPending Events: {s.count}\n" ++
    s!"\n{outlook}\n"

/-- The status of a store as JSON. -/
def statusJson (t : Target) (s : Store) : Json :=
  .object [("database", .string t.name), ("path", .string t.path), ("pending", .ofNat s.count)]

/-! ### Listings -/

/-- A text filled up with blanks at its end. -/
def padEnd (width : Nat) (s : String) : String :=
  s ++ String.ofList (List.replicate (width - s.length) ' ')

/-- A text filled up with blanks at its start. -/
def padStart (width : Nat) (s : String) : String :=
  String.ofList (List.replicate (width - s.length) ' ') ++ s

/-- Three columns. -/
def columns (guid headers body : String) : String :=
  s!"{padEnd 38 guid} {padStart 8 headers} {padStart 10 body}\n"

/-- An entry as it is listed. -/
structure Row where
  key : Bytes
  /-- The number of headers and the length of the body, if the entry can be read. -/
  sizes : Option (Nat × Nat)
  deriving DecidableEq, Repr

/-- The event of an entry, or why there is none: its value is decrypted, and then decoded. -/
def decoded (c : Cipher) (e : Entry) : Except Error Event := do
  let frame ← (c.decrypt e.value).mapError .cipher
  (Frame.decode frame).mapError .corruptFrame

/-- The row of an entry under a cipher. -/
def Row.ofEntry (c : Cipher) (e : Entry) : Row :=
  ⟨e.key,
    match decoded c e with
    | .ok event => some (event.headers.size, event.body.length)
    | .error _ => none⟩

/-- A row as text. -/
def Row.text (r : Row) : String :=
  match r.sizes with
  | some (headers, body) => columns (Utf8.lossy r.key) (toString headers) (toString body)
  | none => columns (Utf8.lossy r.key) "?" "?"

/-- How many rows are of entries that cannot be read. -/
def unreadable (rows : List Row) : Nat :=
  (rows.filter fun r => r.sizes.isNone).length

/-- The note about entries that cannot be read. -/
def unreadableNote (c : Cipher) (n : Nat) : String :=
  let entries := if n = 1 then "entry" else "entries"
  let hint :=
    if c.isEnabled then " with the given key" else " (encrypted queue? pass --key-hex)"
  if n = 0 then "" else s!"⚠️  {n} {entries} could not be decoded{hint}\n"

/-- Rows as text, out of a number of entries. -/
def listing (c : Cipher) (rows : List Row) (count : Nat) : String :=
  columns "GUID" "HEADERS" "BODY" ++ String.ofList (List.replicate 58 '-') ++ "\n" ++
    String.join (rows.map Row.text) ++
    s!"\nShowing {rows.length} of {count} queued event(s)\n" ++
    unreadableNote c (unreadable rows)

/-- The cipher of a key that is given in hexadecimal. -/
def cipherOf : Option String → Except Fault Cipher
  | none => .ok .plaintext
  | some s =>
    match SecretKey.ofHex s with
    | .ok key => .ok ⟨some key⟩
    | .error fault => .error (.badKey (.keyProvider fault))

/-- The listing of a store. -/
def list (c : Cipher) (limit : Nat) (s : Store) : Except Fault String :=
  match s.scan limit with
  | .error fault => .error (.notScanned (.transaction fault))
  | .ok entries => .ok (listing c (entries.map (Row.ofEntry c)) s.count)

/-! ### Answers -/

/-- The answer to a request. A key is looked at before the store is opened. -/
def answer (r : Request) (d : Disk) : Disk × Except Failure (Except Fault String) :=
  match r.command with
  | .status json =>
    match r.target.openStore d with
    | (d, .ok (.ok s)) =>
      (d, .ok (.ok (if json then (statusJson r.target s).pretty ++ "\n" else status r.target s)))
    | (d, .ok (.error fault)) => (d, .ok (.error fault))
    | (d, .error f) => (d, .error f)
  | .list limit keyHex =>
    match cipherOf keyHex with
    | .error fault => (d, .ok (.error fault))
    | .ok c =>
      match r.target.openStore d with
      | (d, .ok (.ok s)) => (d, .ok (list c limit s))
      | (d, .ok (.error fault)) => (d, .ok (.error fault))
      | (d, .error f) => (d, .error f)

/-- What a run prints, and the code that it ends with. -/
structure Printed where
  code : Nat
  output : String
  errors : String
  deriving DecidableEq, Repr

/-- The help text. -/
def helpText : String :=
  "Usage: spool [--path PATH] [--name NAME] [--verbose] COMMAND\n\nCommands:\n" ++
    "  status [--json]\n  list [--limit N] [--key-hex KEY]\n"

/-- What comes of a command line that asks for no report. -/
def Ending.printed : Ending → Printed
  | .usage => ⟨2, "", helpText⟩
  | .help => ⟨0, helpText, ""⟩
  | .version program => ⟨0, s!"{program} 0.1.0\n", ""⟩

/-- Runs a command line; `keyEnv` is the key in the environment. -/
def run (args : List String) (keyEnv : Option String) (d : Disk) : Disk × Printed :=
  match Request.ofArguments keyEnv args with
  | .error e => (d, e.printed)
  | .ok r =>
    match answer r d with
    | (d, .ok (.ok output)) => (d, ⟨0, output, ""⟩)
    | (d, .ok (.error fault)) => (d, ⟨1, "", fault.text⟩)
    | (d, .error (.error e)) => (d, ⟨1, "", s!"Error: {e.message}\n"⟩)
    | (d, .error .crash) => (d, ⟨101, "", ""⟩)

end Outbox.Report

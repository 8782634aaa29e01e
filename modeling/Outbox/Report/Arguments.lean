import Outbox.Config

namespace Outbox.Report

/-!
# Command lines

* `Request` — what a command line asks for: a store, and its status or a listing.
* `Ending` — why a command line asks for no report.
* `scan` — the options at the start of a command line, and what comes after them.
* `Request.ofArguments` — the request of a command line.

Options come before the command that they do not belong to, or after the one that they do. A value
stands in an argument of its own, after `=`, or right after a short option. No option is given
twice.
-/

/-! ### Requests -/

/-- The store to look at. -/
structure Target where
  path : String
  name : String
  deriving DecidableEq, Repr

/-- What to report of a store. -/
inductive Command where
  | status (json : Bool)
  /-- The first entries, up to a limit; the key is given in hexadecimal. -/
  | list (limit : Nat) (keyHex : Option String)
  deriving DecidableEq, Repr

/-- What a command line asks for. -/
structure Request where
  target : Target
  command : Command
  deriving DecidableEq, Repr

/-- Why a command line asks for no report. -/
inductive Ending where
  /-- It is not understood. -/
  | usage
  /-- It asks for help. -/
  | help
  /-- It asks which version of a program this is. -/
  | version (program : String)
  deriving DecidableEq, Repr

/-! ### Options -/

/-- What an option does. -/
inductive OptionKind where
  /-- It is given or not. -/
  | flag
  /-- It has a value, for which a condition holds. -/
  | valued (accepts : String → Bool)
  /-- It ends the command line. -/
  | ends (e : Ending)

/-- An option by its long and its short name. -/
structure OptionRule where
  long : String
  short : Option Char
  kind : OptionKind

/-- The options that have been given, with their values; a flag has an empty value. -/
abbrev Given := List (String × String)

/-- Adds an option, unless it has been given before. -/
def Given.add (g : Given) (long value : String) : Except Ending Given :=
  if (g.lookup long).isSome then .error .usage else .ok (g ++ [(long, value)])

/-- Adds an option with a value. -/
def OptionRule.give (r : OptionRule) (value : String) (g : Given) : Except Ending Given :=
  match r.kind with
  | .valued accepts => if accepts value then g.add r.long value else .error .usage
  | _ => .error .usage

/-- What the characters after a dash give, and the option whose value is still to come. -/
def scanShort (rules : List OptionRule) : List Char → Given →
    Except Ending (Given × Option OptionRule)
  | [], g => .ok (g, none)
  | c :: cs, g =>
    match rules.find? fun r => r.short = some c with
    | none => .error .usage
    | some r =>
      match r.kind with
      | .ends e => .error e
      | .flag => do scanShort rules cs (← g.add r.long "")
      | .valued _ =>
        match cs with
        | [] => .ok (g, some r)
        | '=' :: value => do return (← r.give (String.ofList value) g, none)
        | value => do return (← r.give (String.ofList value) g, none)

/-- What the characters after two dashes give, and the option whose value is still to come. -/
def scanLong (rules : List OptionRule) (cs : List Char) (g : Given) :
    Except Ending (Given × Option OptionRule) :=
  let name := String.ofList (cs.takeWhile (· ≠ '='))
  match rules.find? fun r => r.long = name with
  | none => .error .usage
  | some r =>
    match r.kind, cs.dropWhile (· ≠ '=') with
    | .ends e, [] => .error e
    | .flag, [] => do return (← g.add r.long "", none)
    | .valued _, [] => .ok (g, some r)
    | .valued _, _ :: value => do return (← r.give (String.ofList value) g, none)
    | _, _ => .error .usage

/-- Reads options up to the first argument that is none. `owed` is the option whose value comes
    next; it is never an argument that looks like an option. After two dashes alone there is no
    option and no command. -/
def scan (rules : List OptionRule) : (owed : Option OptionRule) → List String → Given →
    Except Ending (Given × List String)
  | none, [], g => .ok (g, [])
  | some _, [], _ => .error .usage
  | owed, arg :: args, g =>
    match owed, arg.toList with
    | none, ['-', '-'] => if args.isEmpty then .ok (g, []) else .error .usage
    | none, '-' :: '-' :: cs => do
      let (g, owed) ← scanLong rules cs g
      scan rules owed args g
    | none, '-' :: c :: cs => do
      let (g, owed) ← scanShort rules (c :: cs) g
      scan rules owed args g
    | none, _ => .ok (g, arg :: args)
    | some _, '-' :: _ :: _ => .error .usage
    | some r, _ => do
      let g ← r.give arg g
      scan rules none args g

/-! ### The command lines of this program -/

/-- The digits of a number of 64 bits, perhaps after a plus sign. -/
def limit? (s : String) : Option Nat :=
  let digits :=
    match s.toList with
    | '+' :: cs => cs
    | cs => cs
  if digits.isEmpty || !digits.all Char.isDigit then none
  else
    let n := digits.foldl (fun n c => n * 10 + (c.toNat - 48)) 0
    if n < 18446744073709551616 then some n else none

/-- The options that end a command line of a program. -/
def endings (program : String) : List OptionRule :=
  [⟨"help", some 'h', .ends .help⟩, ⟨"version", some 'V', .ends (.version program)⟩]

/-- The options before the command. -/
def commonRules : List OptionRule :=
  [⟨"path", some 'p', .valued (· ≠ "")⟩, ⟨"name", none, .valued fun _ => true⟩,
    ⟨"verbose", some 'v', .flag⟩] ++ endings "spool"

/-- The options of a status. -/
def statusRules : List OptionRule :=
  [⟨"json", none, .flag⟩] ++ endings "spool-status"

/-- The options of a listing. -/
def listRules : List OptionRule :=
  [⟨"limit", some 'l', .valued fun v => (limit? v).isSome⟩,
    ⟨"key-hex", none, .valued fun _ => true⟩] ++ endings "spool-list"

/-- How many entries a listing shows if no limit is given. -/
def defaultLimit : Nat := 20

/-- Reads the options of a command, after which nothing comes. -/
def scanAll (rules : List OptionRule) (args : List String) : Except Ending Given := do
  let (g, rest) ← scan rules none args []
  if rest.isEmpty then return g else throw .usage

/-- The command of the arguments that are left after the common options. A key that is not among
    them is taken from the environment. -/
def Command.ofArguments (keyEnv : Option String) : List String → Except Ending Command
  | "status" :: args => do
    let g ← scanAll statusRules args
    return .status (g.lookup "json").isSome
  | "list" :: args => do
    let g ← scanAll listRules args
    let limit := ((g.lookup "limit").bind limit?).getD defaultLimit
    return .list limit ((g.lookup "key-hex").or keyEnv)
  | ["help"] | ["help", "status"] | ["help", "list"] | ["help", "help"] => throw .help
  | _ => throw .usage

/-- The request of a command line. -/
def Request.ofArguments (keyEnv : Option String) (args : List String) :
    Except Ending Request := do
  let (g, rest) ← scan commonRules none args []
  let command ← Command.ofArguments keyEnv rest
  return ⟨⟨(g.lookup "path").getD StoreConfig.defaultPath,
    (g.lookup "name").getD StoreConfig.defaultName⟩, command⟩

end Outbox.Report

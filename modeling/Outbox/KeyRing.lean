import Outbox.Journal
import Outbox.SecretKey
import Outbox.Text.Blank
import Outbox.Text.LowerCase

namespace Outbox

/-!
# Key providers

* `Environment` — the environment variables.
* `KeyProvider` — a named source of a key: a fixed one, an environment variable, or one that fails.
* `KeyRing` — providers by name, where names that agree in lower case are one.
* `KeyRing.resolve` — the key of a configured provider, or none and an incident that says why.
-/

/-! ### Environment variables -/

/-- Environment variables with their values. -/
structure Environment where
  bindings : List (String × Bytes)

namespace Environment

/-- No variable is set. -/
def empty : Environment := ⟨[]⟩

/-- Removes a variable. -/
def unset (e : Environment) (name : String) : Environment :=
  ⟨e.bindings.filter fun v => v.1 != name⟩

/-- Gives a variable a value. -/
def set (e : Environment) (name : String) (value : Bytes) : Environment :=
  ⟨(name, value) :: (e.unset name).bindings⟩

/-- The text of a variable. -/
def text (e : Environment) (name : String) : Except VariableFault String :=
  match e.bindings.lookup name with
  | none => .error .unset
  | some value =>
    match Utf8.decode value with
    | .ok s => .ok s
    | .error _ => .error (.notUnicode value)

end Environment

/-! ### Providers -/

/-- Where a provider takes its key from. -/
inductive KeySource where
  | fixed (key : SecretKey)
  /-- The hexadecimal digits in an environment variable, between blanks. -/
  | variable (name : String)
  /-- There is no key, and an error says why. -/
  | failing (error : Error)

/-- A named source of a key. -/
structure KeyProvider where
  name : String
  source : KeySource

/-- The key of a provider. -/
def KeyProvider.secretKey (p : KeyProvider) (e : Environment) : Except Error SecretKey :=
  match p.source with
  | .fixed key => .ok key
  | .failing error => .error error
  | .variable name =>
    match e.text name with
    | .error fault => .error (.keyProvider (.variable name fault))
    | .ok s =>
      match SecretKey.ofHex (Text.trim s) with
      | .ok key => .ok key
      | .error fault => .error (.keyProvider fault)

/-! ### Key rings -/

/-- Providers by their names in lower case. -/
structure KeyRing where
  providers : List (String × KeyProvider)

namespace KeyRing

/-- No provider is registered. -/
def empty : KeyRing := ⟨[]⟩

/-- The number of providers. -/
def size (r : KeyRing) : Nat := r.providers.length

/-- Whether there is no provider. -/
def isEmpty (r : KeyRing) : Bool := r.providers.isEmpty

/-- Registers a provider in place of the one of the same name. -/
def register (r : KeyRing) (p : KeyProvider) : KeyRing :=
  let name := Text.lower p.name
  ⟨(name, p) :: r.providers.filter fun q => q.1 != name⟩

/-- The provider of a name. -/
def get? (r : KeyRing) (name : String) : Option KeyProvider :=
  r.providers.lookup (Text.lower name)

/-- The key for a configured name, with the incident if there is none. -/
def resolve (r : KeyRing) (e : Environment) : Option String → Option SecretKey × Journal
  | none => (none, [])
  | some name =>
    match r.get? name with
    | none => (none, [.incident (.unknownKeyProvider name)])
    | some p =>
      match p.secretKey e with
      | .ok key => (some key, [])
      | .error error => (none, [.incident (.keyProviderFailed p.name error)])

end KeyRing

end Outbox

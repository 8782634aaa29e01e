import Outbox.OsError
import Outbox.Text.Hex
import Outbox.Text.Utf8

namespace Outbox

/-!
# Errors

Every way in which an operation of the queue can fail, by cause:

* `FrameFault`, `EncodeFault`, `CipherFault` — an event cannot be read or written.
* `KeyFault` — a key provider has no key.
* `EngineFault`, `StoreFault`, `OpenFault`, `IoFault` — the store cannot be used.
* `ConfigFault`, `CommitFault` — the queue refuses an event, or could not commit it.
* `Error` — one of these, or a refusal by the sink.
* `Error.message` — the wording of an error.
* `Error.isRetryable` — whether a later attempt may succeed.
* `Failure` — an error, or the death of the caller.

A constructor `reported` carries the words of a party outside the queue, such as a provider or
another store.
-/

/-! ### Events -/

/-- Why bytes are no frame. -/
inductive FrameFault where
  /-- A field of `length` bytes at `offset` runs past the end of a frame of `size` bytes. -/
  | outOfBounds (length offset size : Nat)
  /-- A header is not UTF-8. -/
  | notUtf8 (fault : Utf8.Error)
  /-- Bytes are left over after the last header. -/
  | trailing (count : Nat)
  | reported (text : String)
  deriving DecidableEq

/-- The wording of the fault. -/
def FrameFault.message : FrameFault → String
  | .outOfBounds length offset size =>
    s!"length {length} at offset {offset} exceeds frame of {size} bytes"
  | .notUtf8 fault => s!"header is not UTF-8: {fault.message}"
  | .trailing count => s!"{count} trailing bytes after headers"
  | .reported text => text

/-- Why an event has no frame. -/
inductive EncodeFault where
  /-- The length of the body does not fit its field. -/
  | bodyTooLarge (length : Nat)
  /-- The number of headers does not fit its field. -/
  | tooManyHeaders
  /-- The length of a header's name or value does not fit its field. -/
  | fieldTooLong (length : Nat)
  | reported (text : String)
  deriving DecidableEq

/-- The wording of the fault. -/
def EncodeFault.message : EncodeFault → String
  | .bodyTooLarge length => s!"body too large: {length} bytes"
  | .tooManyHeaders => "too many headers"
  | .fieldTooLong length => s!"header field too long: {length} bytes"
  | .reported text => text

/-- Why a stored value cannot be opened with a key. -/
inductive CipherFault where
  /-- The value ends before its nonce does. -/
  | shorterThanNonce (length : Nat)
  /-- The tag is missing, or is not the tag of the value under the key. -/
  | unauthentic
  | reported (text : String)
  deriving DecidableEq

/-- The wording of the fault. -/
def CipherFault.message : CipherFault → String
  | .shorterThanNonce length => s!"value of {length} bytes is shorter than the nonce"
  | .unauthentic => "aead::Error"
  | .reported text => text

/-! ### Keys -/

/-- Why an environment variable has no text. -/
inductive VariableFault where
  | unset
  /-- The value is not UTF-8. -/
  | notUnicode (value : Bytes)
  deriving DecidableEq

/-- The wording of the fault. -/
def VariableFault.message : VariableFault → String
  | .unset => "environment variable not found"
  | .notUnicode value =>
    s!"environment variable was not valid unicode: {Text.quoteBytes value}"

/-- Why there is no key. -/
inductive KeyFault where
  /-- The text is not hexadecimal. -/
  | notHex (fault : Hex.Error)
  /-- The number of bytes is not that of a key. -/
  | wrongSize (expected length : Nat)
  /-- The environment variable that holds the key cannot be read. -/
  | variable (name : String) (fault : VariableFault)
  | reported (text : String)
  deriving DecidableEq

/-- The wording of the fault. -/
def KeyFault.message : KeyFault → String
  | .notHex fault => fault.message
  | .wrongSize expected length => s!"Invalid key size: expected {expected}, got {length}"
  | .variable name fault => s!"{name}: {fault.message}"
  | .reported text => text

/-! ### The store -/

/-- Why a file operation failed. -/
inductive IoFault where
  | os (error : OsError)
  /-- A path holds a NUL character. -/
  | nulInPath
  | reported (text : String)
  deriving DecidableEq

/-- The wording of the fault. -/
def IoFault.message : IoFault → String
  | .os error => error.message
  | .nulInPath => "file name contained an unexpected NUL byte"
  | .reported text => text

/-- What the storage engine refuses. -/
inductive EngineFault where
  /-- A key, or the name of a database, is empty or too long. -/
  | badValueSize
  /-- The map has no room for a value. -/
  | mapFull
  /-- The data file is not one of the engine's. -/
  | notDataFile
  | os (error : OsError)
  deriving DecidableEq

/-- The wording of the fault. -/
def EngineFault.message : EngineFault → String
  | .badValueSize =>
    "MDB_BAD_VALSIZE: Unsupported size of key/DB name/data, or wrong DUPFIXED size"
  | .mapFull => "MDB_MAP_FULL: Environment mapsize limit reached"
  | .notDataFile => "MDB_INVALID: File is not an LMDB file"
  | .os error => error.describe

/-- Why an operation on an open store failed. -/
inductive StoreFault where
  | closed
  | engine (fault : EngineFault)
  | reported (text : String)
  deriving DecidableEq

/-- The wording of the fault. -/
def StoreFault.message : StoreFault → String
  | .closed => "Store is closed"
  | .engine fault => fault.message
  | .reported text => text

/-- Why a store could not be opened. -/
inductive OpenFault where
  /-- Its directory could not be made. -/
  | directory (path : String) (fault : IoFault)
  /-- The engine could not open the directory. -/
  | environment (path : String) (fault : EngineFault)
  /-- The engine could not open the database in it. -/
  | database (name : String) (fault : EngineFault)
  | reported (text : String)
  deriving DecidableEq

/-- The wording of the fault. -/
def OpenFault.message : OpenFault → String
  | .directory path fault => s!"Failed to create {path}: {fault.message}"
  | .environment path fault => s!"Failed to open {path}: {fault.message}"
  | .database name fault => s!"Failed to open '{name}': {fault.message}"
  | .reported text => text

/-! ### The queue -/

/-- What is wrong with the way in which the queue is set up or used. -/
inductive ConfigFault where
  /-- The sink names no target. -/
  | noTargets
  /-- The event has no guid. -/
  | noGuid
  | reported (text : String)
  deriving DecidableEq

/-- The wording of the fault. -/
def ConfigFault.message : ConfigFault → String
  | .noTargets => "no sink targets configured"
  | .noGuid => "event has no guid header"
  | .reported text => text

/-- Why an event was not seen to be committed. -/
inductive CommitFault where
  /-- The store refused the entry. -/
  | refused (reason : String)
  /-- The task that commits the entry died. -/
  | taskFailed
  /-- The commit took longer than the producer waits. -/
  | gaveUp
  | reported (text : String)
  deriving DecidableEq

/-- The wording of the fault. -/
def CommitFault.message : CommitFault → String
  | .refused reason => reason
  | .taskFailed => "commit task failed"
  | .gaveUp => "gave up waiting for event commit"
  | .reported text => text

/-- Why an operation failed. -/
inductive Error where
  | io (fault : IoFault)
  | config (fault : ConfigFault)
  | storeOpen (fault : OpenFault)
  | transaction (fault : StoreFault)
  | keyProvider (fault : KeyFault)
  | encode (fault : EncodeFault)
  | corruptFrame (fault : FrameFault)
  | cipher (fault : CipherFault)
  /-- The sink did not accept a delivery. -/
  | delivery (text : String)
  /-- The queue is shut down. -/
  | queueUnavailable
  | deliveryQueue (fault : CommitFault)
  | other (text : String)
  deriving DecidableEq

namespace Error

/-- The wording of the error. -/
def message : Error → String
  | .io fault => s!"IO error: {fault.message}"
  | .config fault => s!"Configuration error: {fault.message}"
  | .storeOpen fault => s!"Unable to open store: {fault.message}"
  | .transaction fault => s!"Transaction error: {fault.message}"
  | .keyProvider fault => s!"Key provider error: {fault.message}"
  | .encode fault => s!"Encode error: {fault.message}"
  | .corruptFrame fault => s!"Corrupt frame: {fault.message}"
  | .cipher fault => s!"Cipher error: {fault.message}"
  | .delivery text => s!"Delivery error: {text}"
  | .queueUnavailable => "Unable to record event, queue is shut down"
  | .deliveryQueue fault => s!"Delivery queue error: {fault.message}"
  | .other text => s!"Other error: {text}"

/-- Only a refusal by the sink may turn into an acceptance later. -/
def isRetryable : Error → Bool
  | .delivery _ => true
  | _ => false

end Error

/-- How a call ends that gives no result. -/
inductive Failure where
  | error (e : Error)
  /-- The caller's thread dies. -/
  | crash
  deriving DecidableEq

end Outbox

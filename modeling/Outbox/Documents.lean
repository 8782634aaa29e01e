import Outbox.Config
import Outbox.Event
import Outbox.Json.Parser
import Outbox.Json.Printer
import Outbox.Json.Record
import Outbox.StoreStats

namespace Outbox

/-!
# JSON documents

How headers, events, statistics and configurations are written as JSON, and read back. A field of
a configuration that a document leaves out has its default; the fields of the other records must
all be given.
-/

/-! ### Headers and events -/

/-- Headers are written as an array of pairs. -/
def Headers.toJson (h : Headers) : Json :=
  .array (h.toList.map fun (name, value) => .array [.string name, .string value])

/-- Headers as they are written: a name that is given twice is kept twice. -/
def Headers.ofJson? (v : Json) : Option Headers :=
  (v.list? Json.pair?).map Headers.mk

/-- An event is written as its body, byte by byte, and its headers. -/
def Event.toJson (e : Event) : Json :=
  .object [("body", .array (e.body.map fun b => .ofNat b.toNat)), ("headers", e.headers.toJson)]

/-- An event as it is written. -/
def Event.ofJson? (v : Json) : Option Event :=
  match v.record? ["body", "headers"] with
  | some [body, headers] => do
    let body ← Json.required (Json.list? Json.byte?) body
    let headers ← Json.required Headers.ofJson? headers
    return ⟨body, headers⟩
  | _ => none

/-! ### Statistics -/

/-- Statistics are written counter by counter. -/
def StoreStats.toJson (s : StoreStats) : Json :=
  .object [("entries", .ofNat s.entries.toNat), ("puts", .ofNat s.puts.toNat),
    ("deletes", .ofNat s.deletes.toNat), ("failed_commits", .ofNat s.failedCommits.toNat)]

/-- Statistics as they are written. -/
def StoreStats.ofJson? (v : Json) : Option StoreStats :=
  match v.record? ["entries", "puts", "deletes", "failed_commits"] with
  | some [entries, puts, deletes, failedCommits] => do
    let entries ← Json.required Json.uint64? entries
    let puts ← Json.required Json.uint64? puts
    let deletes ← Json.required Json.uint64? deletes
    let failedCommits ← Json.required Json.uint64? failedCommits
    return ⟨entries, puts, deletes, failedCommits⟩
  | _ => none

/-! ### Configurations -/

/-- A mode is written as its word. -/
def SyncMode.toJson (m : SyncMode) : Json := .string m.word

/-- A mode is its word, or an object with nothing under its word. -/
def SyncMode.ofJson? : Json → Option SyncMode
  | .string word => SyncMode.ofWord? word
  | .object [(word, .null)] => SyncMode.ofWord? word
  | _ => none

/-- A store's configuration is written field by field. -/
def StoreConfig.toJson (c : StoreConfig) : Json :=
  .object [("path", .string c.path), ("name", .string c.name),
    ("map_size", .ofNat c.mapSize.toNat), ("sync_mode", c.syncMode.toJson),
    ("max_readers", .ofNat c.maxReaders.toNat)]

/-- A store's configuration as it is written. -/
def StoreConfig.ofJson? (v : Json) : Option StoreConfig :=
  match v.record? ["path", "name", "map_size", "sync_mode", "max_readers"] with
  | some [path, name, mapSize, syncMode, maxReaders] => do
    let path ← Json.orElse Json.string? defaultPath path
    let name ← Json.orElse Json.string? defaultName name
    let mapSize ← Json.orElse Json.uint64? defaultMapSize mapSize
    let syncMode ← Json.orElse SyncMode.ofJson? .full syncMode
    let maxReaders ← Json.orElse Json.uint32? defaultMaxReaders maxReaders
    return ⟨path, name, mapSize, syncMode, maxReaders⟩
  | _ => none

/-- A queue's configuration is written field by field. -/
def QueueConfig.toJson (c : QueueConfig) : Json :=
  .object [("store", c.store.toJson), ("batch_size", .ofInt c.batchSize.toInt),
    ("delay_ms", .ofNat c.delayMs.toNat),
    ("key_provider", match c.keyProvider with
      | none => .null
      | some name => .string name),
    ("commit_wait_ms", .ofNat c.commitWaitMs.toNat),
    ("shutdown_timeout_ms", .ofNat c.shutdownTimeoutMs.toNat)]

/-- A queue's configuration as it is written. -/
def QueueConfig.ofJson? (v : Json) : Option QueueConfig :=
  match v.record? ["store", "batch_size", "delay_ms", "key_provider", "commit_wait_ms",
      "shutdown_timeout_ms"] with
  | some [store, batchSize, delayMs, keyProvider, commitWaitMs, shutdownTimeoutMs] => do
    let store ← Json.orElse StoreConfig.ofJson? .default store
    let batchSize ← Json.orElse Json.int64? defaultBatchSize batchSize
    let delayMs ← Json.orElse Json.uint64? defaultDelayMs delayMs
    let keyProvider ← Json.orElse Json.nullable? none keyProvider
    let commitWaitMs ← Json.orElse Json.uint64? defaultCommitWaitMs commitWaitMs
    let shutdownTimeoutMs ← Json.orElse Json.uint64? defaultShutdownTimeoutMs shutdownTimeoutMs
    return ⟨store, batchSize, delayMs, keyProvider, commitWaitMs, shutdownTimeoutMs⟩
  | _ => none

end Outbox

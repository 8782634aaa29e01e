import Outbox.Duration

namespace Outbox

/-!
# Configuration

* `StoreConfig` — where a store lies and how it is opened.
* `StoreConfig.dataDir` — the directory of a store, with the default applied.
* `QueueConfig` — a store, and how events are taken in and forwarded.
* `QueueConfig.effectiveBatchSize` — the batch size, at least one.
-/

/-- When a commit has reached the disk. -/
inductive SyncMode where
  /-- Before it is reported. -/
  | full
  /-- Its data before it is reported, the page that makes it current later. -/
  | noMetaSync
  /-- At some later time. -/
  | noSync
  deriving DecidableEq, Repr

/-- The word for a mode in documents. -/
def SyncMode.word : SyncMode → String
  | .full => "Full"
  | .noMetaSync => "NoMetaSync"
  | .noSync => "NoSync"

/-- The mode of a word. -/
def SyncMode.ofWord? : String → Option SyncMode
  | "Full" => some .full
  | "NoMetaSync" => some .noMetaSync
  | "NoSync" => some .noSync
  | _ => none

theorem SyncMode.ofWord?_word (m : SyncMode) : SyncMode.ofWord? m.word = some m := by
  cases m <;> rfl

/-! ### Stores -/

/-- Where a store lies and how it is opened. -/
structure StoreConfig where
  /-- The directory; if it is empty, the default is used. -/
  path : String
  /-- The name of the database in the directory. -/
  name : String
  /-- The greatest size of the data, in bytes. -/
  mapSize : UInt64
  syncMode : SyncMode
  /-- How many may read at once. -/
  maxReaders : UInt32
  deriving DecidableEq, Repr

namespace StoreConfig

/-- The directory that is used when none is given. -/
def defaultPath : String := ".spool/data"

/-- The name that is used when none is given. -/
def defaultName : String := "events"

/-- The size that is used when none is given: one gibibyte. -/
def defaultMapSize : UInt64 := 1073741824

/-- The number of readers that is used when none is given. -/
def defaultMaxReaders : UInt32 := 126

/-- A store at a path, with the defaults for all else. -/
def atPath (path : String) : StoreConfig :=
  ⟨path, defaultName, defaultMapSize, .full, defaultMaxReaders⟩

/-- A store with the defaults. -/
def default : StoreConfig := atPath defaultPath

/-- The directory of the store. -/
def dataDir (c : StoreConfig) : String :=
  if c.path = "" then defaultPath else c.path

end StoreConfig

/-! ### Queues -/

/-- A store, and how events are taken in and forwarded. -/
structure QueueConfig where
  store : StoreConfig
  /-- How many events are delivered together. -/
  batchSize : Int64
  /-- How long an event waits for a batch to fill, and how long the forwarder pauses after a
      refused delivery. -/
  delayMs : UInt64
  /-- The name of the provider of the key; without one values are stored as they are. -/
  keyProvider : Option String
  /-- How long a producer waits for its commit before the wait counts as interrupted. -/
  commitWaitMs : UInt64
  /-- How long each of the two phases of a shutdown may take. -/
  shutdownTimeoutMs : UInt64
  deriving DecidableEq, Repr

namespace QueueConfig

/-- The batch size that is used when none is given. -/
def defaultBatchSize : Int64 := 1

/-- The delay that is used when none is given. -/
def defaultDelayMs : UInt64 := 100

/-- The wait for a commit that is used when none is given. -/
def defaultCommitWaitMs : UInt64 := 30000

/-- The limit of a shutdown's phase that is used when none is given. -/
def defaultShutdownTimeoutMs : UInt64 := 60000

/-- A queue over a store, with the defaults for all else. -/
def onStore (store : StoreConfig) : QueueConfig :=
  ⟨store, defaultBatchSize, defaultDelayMs, none, defaultCommitWaitMs, defaultShutdownTimeoutMs⟩

/-- A queue with the defaults. -/
def default : QueueConfig := onStore StoreConfig.default

/-- The queue with another delay. -/
def withDelay (c : QueueConfig) (d : Duration) : QueueConfig :=
  { c with delayMs := d.toMillis }

/-- The queue with another wait for commits. -/
def withCommitWait (c : QueueConfig) (d : Duration) : QueueConfig :=
  { c with commitWaitMs := d.toMillis }

/-- The queue with another limit for the phases of a shutdown. -/
def withShutdownTimeout (c : QueueConfig) (d : Duration) : QueueConfig :=
  { c with shutdownTimeoutMs := d.toMillis }

/-- The batch size, with one in place of anything below. -/
def effectiveBatchSize (c : QueueConfig) : Nat :=
  if c.batchSize.toInt ≤ 0 then 1 else c.batchSize.toInt.toNat

/-- The delay. -/
def delay (c : QueueConfig) : Duration := .ofMillis c.delayMs

/-- The wait for a commit. -/
def commitWait (c : QueueConfig) : Duration := .ofMillis c.commitWaitMs

/-- The limit of a shutdown's phase. -/
def shutdownTimeout (c : QueueConfig) : Duration := .ofMillis c.shutdownTimeoutMs

theorem one_le_effectiveBatchSize (c : QueueConfig) : 1 ≤ c.effectiveBatchSize := by
  unfold effectiveBatchSize
  split <;> omega

end QueueConfig

end Outbox

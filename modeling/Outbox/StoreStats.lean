namespace Outbox

/-!
# Statistics of a store

`StoreStats` holds the counters of a store as they are reported.
-/

/-- The counters of a store. All but the first count from the time when it was opened. -/
structure StoreStats where
  /-- How many entries are queued. -/
  entries : UInt64
  /-- How many puts were committed. -/
  puts : UInt64
  /-- How many entries were removed. -/
  deletes : UInt64
  /-- How many transactions could not be committed. -/
  failedCommits : UInt64
  deriving DecidableEq, Repr

end Outbox

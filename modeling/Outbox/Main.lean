import Outbox.Disk.Image
import Outbox.Report

/-!
# The command line

Reads the files of the store that the arguments name, runs the report, writes back the files that
it has changed, and prints what it says.
-/

namespace Outbox.Main

/-- What is at a path of the file system. -/
def readNode (path : String) : IO (Option Node) := do
  try
    let content := (← IO.FS.readBinFile path).toList
    return some (match DataFile.ofImage? content with
      | some file => .data file
      | none => .file content)
  catch
    | .noFileOrDirectory .. => return none
    | .inappropriateType .. => return some .directory
    | e => throw e

/-- Writes what a path is to lead to. -/
def writeNode (path : String) : Node → IO Unit
  | .directory => IO.FS.createDirAll path
  | .file content => IO.FS.writeBinFile path ⟨content.toArray⟩
  | .data file => IO.FS.writeBinFile path ⟨file.image.toArray⟩

/-- The files of a store in a directory. -/
def fileNames : List String := [dataFileName, lockFileName]

/-- The directories on the way to a path. -/
def ancestors (p : Path) : List Path :=
  (List.range p.length).map fun n => p.take (n + 1)

/-- The part of the file system that a store in a directory lies in. -/
def readDisk (directory : String) : IO Disk := do
  let p := Path.ofString directory
  let mut d := Disk.empty
  for name in fileNames do
    if let some node ← readNode (directory ++ "/" ++ name) then
      for dir in ancestors p do d := d.set dir .directory
      d := d.set (p ++ [name]) node
  return d

/-- Writes the files of a store in a directory that have changed. -/
def writeDisk (directory : String) (before after : Disk) : IO Unit := do
  let p := Path.ofString directory
  for name in fileNames do
    let node := after.node? (p ++ [name])
    if node ≠ before.node? (p ++ [name]) then
      if let some node := node then writeNode (directory ++ "/" ++ name) node

/-- The directory that the arguments name. -/
def directoryOf (args : List String) : String :=
  match Report.Request.ofArguments none args with
  | .ok r => r.target.path
  | .error _ => StoreConfig.defaultPath

end Outbox.Main

/-- Runs the command line of the queue's operator. -/
def main (args : List String) : IO UInt32 := do
  let keyEnv ← IO.getEnv "SPOOL_KEY_HEX"
  let directory := Outbox.Main.directoryOf args
  let before ← Outbox.Main.readDisk directory
  let (after, printed) := Outbox.Report.run args keyEnv before
  Outbox.Main.writeDisk directory before after
  IO.print printed.output
  IO.eprint printed.errors
  return UInt32.ofNat printed.code

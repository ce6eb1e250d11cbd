import SnapshotStaging.Cli
import Std.Time.DateTime.Timestamp

/-!
# The program

Reads the files that a command asks for, runs the command, prints what it says and writes its log to
the error stream and to the file of the log. Databases last as long as the program.
-/

namespace SnapshotStaging

/-- The file at a path; none when it cannot be read. -/
def readFile? (path : String) : IO (Option (List UInt8)) := do
  try return some (← IO.FS.readBinFile path).toList
  catch _ => return none

/-- The files of a directory by name; none when it cannot be read. -/
def readDirectory (path : String) : IO (List (String × List UInt8)) := do
  try
    let entries ← (← IO.FS.realPath path).readDir
    entries.toList.filterMapM fun entry => do
      if ← entry.path.isDir then return none
      return some (entry.fileName, (← IO.FS.readBinFile entry.path).toList)
  catch _ => return []

/-- The variables of the environment that are set. -/
def readEnvironment : IO (List (String × String)) :=
  Settings.variableNames.filterMapM fun name => do
    return (← IO.getEnv name).map fun value => (name, value)

/-- Writes lines of the log to one of its places. -/
def writeLog (lines : List String) : Log.Handler → IO Unit
  | .console => lines.forM IO.eprintln
  | .file path => do
    let handle ← IO.FS.Handle.mk path .append
    lines.forM handle.putStrLn

end SnapshotStaging

open SnapshotStaging

def main (arguments : List String) : IO UInt32 := do
  let environment ← readEnvironment
  let (directories, files) := Cli.sources environment arguments
  let stores ← directories.mapM fun path => return (path, ← readDirectory path)
  let contents ← files.mapM fun path => return (path, ← readFile? path)
  let moment := (← Std.Time.Timestamp.now).toMillisecondsSinceUnixEpoch.toInt.toNat
  let surroundings : Cli.Surroundings := {
    environment := environment
    storeAt := fun path => ⟨path, (stores.lookup path).getD [], true⟩
    fileAt := fun path => (contents.lookup path).join
    canMake := fun _ => true
    now := Cli.timeText moment }
  let outcome := Cli.run surroundings [] arguments
  IO.print outcome.output
  match outcome.setup with
  | some setup => setup.handlers.forM (writeLog (outcome.logLines moment))
  | none => pure ()
  match outcome.ending with
  | .status n => return n.toUInt32
  | .badArguments => return 2
  | .failed _ | .badSettings _ => return 1

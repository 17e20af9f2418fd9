import TestBench.FileTree.Fixture
import TestBench.Program

/-!
# The command line

The words, the variables and the configuration go to the program, and what it wrote goes to the
two outputs. The program works on a tree that holds nothing but the configuration, and the tools
of the system are out of its reach: what comes before the first tool is done as it is to be, and
a dry run is complete.
-/

open TestBench

namespace TestBench.Main

/-- How the program is called. -/
def usage : String :=
  "Usage: cscaffold [-c|--config FILE] [-v|--verbose] [--log-format compact|json] [--dry-run]"

/-- The content of a file, if it can be read. -/
def content? (path : String) : IO (Option (List UInt8)) := do
  try
    return some (← IO.FS.readBinFile path).toList
  catch _ =>
    return none

/-- The tree that holds the file at a path, if there is one. -/
def tree (path : String) (content : Option (List UInt8)) : FileTree :=
  match content with
  | some bytes => FileTree.empty.addFile (.ofText path) bytes
  | none => FileTree.empty

/-- The values of variables that are set. -/
def valuesOf (names : List String) : IO Variables :=
  names.filterMapM fun name => do
    return (← IO.getEnv name).map fun value => (name, value)

/-- Writes what the program wrote to its output. -/
def write (format : LogFormat) : Printed → IO Unit
  | .line text => IO.println text
  | .event e => do
    IO.println (Log.line format (toString (← IO.monoMsNow)) e)

/-- Runs the program on arguments. -/
def perform (a : Arguments) : IO UInt32 := do
  let content ← content? a.configuration
  let names := Variables.references (Utf8.lossy (content.getD [])).toList
  let values ← valuesOf (Program.filterName :: names)
  let outcome := Program.run a values (tree a.configuration content)
  outcome.printed.forM (write a.logFormat)
  IO.eprint outcome.errors
  return outcome.status.toUInt32

end TestBench.Main

/-- Runs the program on the words of a command line. -/
def main (words : List String) : IO UInt32 := do
  match Arguments.read words with
  | .ok a => TestBench.Main.perform a
  | .error .help =>
    IO.println TestBench.Main.usage
    return 0
  | .error fault =>
    IO.eprintln TestBench.Main.usage
    return fault.status.toUInt32

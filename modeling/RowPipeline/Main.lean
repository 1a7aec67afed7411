import RowPipeline.Command
import RowPipeline.Stock.Plugin
import RowPipeline.Yaml.Printer

/-!
# The program

Runs the command line of the process with the stock plugins.
-/

namespace RowPipeline.Main

/-- The name of the program. -/
def program : String := "rowpipeline"

/-- What the file at a path holds. -/
def readEntry (path : String) : IO FileEntry := do
  try return .text (← IO.FS.readFile path)
  catch _ => return .missing

/-- The surroundings of a process, with the one file that its command line reads. -/
def surroundings (args : List String) : IO Command.Surroundings := do
  let level ← IO.getEnv Settings.levelVariable
  let mode ← IO.getEnv Settings.modeVariable
  let entry ← match Command.wantedFile? args with
    | some path => readEntry path
    | none => pure .missing
  return {
    registry := Stock.registry "stock"
    environment := fun name =>
      if name = Settings.levelVariable then level
      else if name = Settings.modeVariable then mode else none
    file := fun _ => entry }

/-- Writes lines to a stream, in color if it is a terminal. -/
def write (stream : IO.FS.Stream) (lines : List OutputLine) : IO Unit := do
  let colored ← stream.isTty
  for l in lines do stream.putStr (l.render colored)

/-- Writes what a command ends with, and gives its status. -/
def finish (outcome : Outcome) : IO UInt32 := do
  let out ← IO.getStdout
  let err ← IO.getStderr
  match outcome with
  | .misused =>
    err.putStrLn ("Usage: " ++ program ++ " [OPTIONS] COMMAND [ARGS]...")
    return 2
  | .escaped failure =>
    err.putStrLn failure.message
    return 1
  | .lines status output errors =>
    write err errors
    write out output
    return status.toUInt32
  | .document output errors =>
    write err errors
    out.putStr ((Yaml.print? output).getD "")
    return 0

end RowPipeline.Main

/-- Runs the command line of the process. -/
def main (args : List String) : IO UInt32 := do
  let around ← RowPipeline.Main.surroundings args
  RowPipeline.Main.finish (RowPipeline.Command.ofArguments around RowPipeline.Main.program args)

import CellularAutomata.CommandLine

/-!
# The program

Reads the file that the arguments name, runs the simulation that it describes and prints
the summary.
-/

namespace CellularAutomata.CommandLine

/-- The text of a file, or nothing if it cannot be read. -/
def readText (path : String) : IO (Option String) := do
  try
    let text ← IO.FS.readFile path
    return some text
  catch _ => return none

end CellularAutomata.CommandLine

open CellularAutomata.CommandLine

/-- Exit code 0 after a run, 2 for wrong arguments, and otherwise that of the failure. -/
def main (arguments : List String) : IO UInt32 := do
  match request? arguments with
  | none =>
    IO.eprintln "usage: cellular-automata CONFIG [--num-ticks NUM_TICKS]"
    return 2
  | some request =>
    match perform request (← readText request.path) with
    | .ok text =>
      IO.print text
      return 0
    | .error failure =>
      IO.eprintln failure.report
      return failure.exitCode

import CellularAutomata.Json.Parser
import CellularAutomata.Json.Printer
import CellularAutomata.Json.RunForm

/-!
# The command line

A run as it is started from a shell: the path of a configuration, and a number of ticks
in place of the configured one if the option `--num-ticks` is given. The summary of the
run is printed in JSON.
-/

namespace CellularAutomata.CommandLine

/-- What the arguments ask for. -/
structure Request where
  /-- Where the configuration is. -/
  path : String
  /-- How many ticks to run, if that is not left to the configuration. -/
  ticks : Option Nat
  deriving DecidableEq, Repr

/-- The arguments that have been read so far. -/
structure Progress where
  /-- The path, once there is one. -/
  path : Option String
  /-- The number of ticks, once there is one. -/
  ticks : Option Nat

/-- The name of the option. -/
def ticksOption : String := "--num-ticks"

/-- Reads a number of ticks: an optional plus sign and digits, below `2 ^ 64`. -/
def ticks? (text : String) : Option Nat :=
  let digits :=
    match text.toList with
    | '+' :: rest => rest
    | cs => cs
  (Numeral.natural? digits).filter fun n => decide (n < Nat.pow 2 64)

/-- Takes a number of ticks, which may be given once. -/
def Progress.withTicks (p : Progress) (text : String) : Option Progress :=
  match p.ticks, ticks? text with
  | none, some n => some { p with ticks := some n }
  | _, _ => none

/-- Takes a path, which is not empty and given once. -/
def Progress.withPath (p : Progress) (text : String) : Option Progress :=
  if text.isEmpty || p.path.isSome then none else some { p with path := some text }

/-- What follows `--num-ticks=` in an argument. -/
def attachedTicks? (argument : String) : Option String :=
  let start := (ticksOption ++ "=").toList
  let cs := argument.toList
  if start.isPrefixOf cs then some (String.ofList (cs.drop start.length)) else none

/-- Takes the arguments as paths, whatever they look like. -/
def readPaths : Progress → List String → Option Progress
  | p, [] => some p
  | p, argument :: rest =>
    match p.withPath argument with
    | none => none
    | some p => readPaths p rest

/-- Takes the arguments one after the other. All arguments after `--` are paths. -/
def readArguments : Progress → List String → Option Progress
  | p, [] => some p
  | p, argument :: rest =>
    if argument = "--" then readPaths p rest
    else if argument = ticksOption then
      match rest with
      | [] => none
      | text :: rest =>
        match p.withTicks text with
        | none => none
        | some p => readArguments p rest
    else
      match attachedTicks? argument with
      | some text =>
        match p.withTicks text with
        | none => none
        | some p => readArguments p rest
      | none =>
        if argument.toList.head? = some '-' ∧ argument ≠ "-" then none
        else
          match p.withPath argument with
          | none => none
          | some p => readArguments p rest

/-- Reads the arguments. -/
def request? (arguments : List String) : Option Request :=
  match readArguments ⟨none, none⟩ arguments with
  | some ⟨some path, ticks⟩ => some ⟨path, ticks⟩
  | _ => none

/-- Why a run did not take place, or was not completed. -/
inductive Failure where
  /-- There is no text at the path. -/
  | notRead (path : String)
  /-- The text is not a configuration. -/
  | notParsed (path : String)
  /-- The configuration describes no world. -/
  | rejected (fault : Fault)
  /-- A number came up in the run that does not fit. -/
  | overflowed
  deriving DecidableEq, Repr

/-- A message with every line but the first indented like it. -/
def continued (message : String) : String :=
  String.ofList (message.toList.flatMap fun c =>
    if c = '\n' then ['\n', ' ', ' ', ' ', ' '] else [c])

/-- What is printed instead of a summary. -/
def Failure.report : Failure → String
  | notRead path => "Error: failed to read " ++ path
  | notParsed path => "Error: failed to parse " ++ path
  | rejected fault =>
    "Error: invalid run configuration\n\nCaused by:\n    " ++ continued fault.message
  | overflowed => "Error: a number is out of range"

/-- The exit code when a run did not take place or stopped on its way. -/
def Failure.exitCode : Failure → UInt32
  | overflowed => 101
  | _ => 1

/-- The summary of the run of a configuration. -/
def summarize (request : Request) (c : Configuration) : Except Failure Summary :=
  match Simulation.ofConfiguration c with
  | .error fault => .error (.rejected fault)
  | .ok s =>
    match s.run? (request.ticks.getD c.ticks) with
    | none => .error .overflowed
    | some (s, _) => .ok s.summary

/-- Carries out a request, given the text at its path if there is one. The result is what is
printed. -/
def perform (request : Request) (text : Option String) : Except Failure String :=
  match text with
  | none => .error (.notRead request.path)
  | some text =>
    match (Json.parse text).bind Json.configuration? with
    | none => .error (.notParsed request.path)
    | some c =>
      match summarize request c with
      | .error failure => .error failure
      | .ok summary => .ok ((Json.ofSummary summary).pretty ++ "\n")

end CellularAutomata.CommandLine

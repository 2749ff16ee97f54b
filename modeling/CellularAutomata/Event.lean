import CellularAutomata.Darwin.Settings
import CellularAutomata.Edge

/-!
# Events

What a run reports while it goes on. An event is what happened; level, message and
fields are put into words here and nowhere else.
-/

namespace CellularAutomata

/-- How important an event is. -/
inductive EventLevel where
  /-- A detail. -/
  | trace
  /-- Of use when looking for a cause. -/
  | debug
  /-- The normal course. -/
  | info
  /-- Something is probably wrong. -/
  | warn
  deriving DecidableEq, Repr

/-- Something that happened. -/
inductive Event where
  /-- An update found no cell. -/
  | updateIgnored (location : Location)
  /-- An agent wanted to move and there was no vacancy left. -/
  | noVacancy (location : Location)
  /-- A shark ran out of energy. -/
  | sharkStarved (location : Location)
  /-- The program of a species could fail. -/
  | programSuspect (species : Nat) (fault : ProgramFault)
  /-- The rules of a Darwin world were set up. -/
  | darwinReady (species : Nat) (settings : Darwin.Settings)
  /-- An individual reverted to an earlier species. -/
  | infectionWoreOff (location : Location) (species : Nat)
  /-- There is no instruction where an individual is in its program. -/
  | nothingToRun (location : Location) (species : Nat)
  /-- An instruction has no known operation. -/
  | instructionSkipped (location : Location) (fault : InstructionFault)
  /-- An instruction could not be carried out. -/
  | instructionFailed (location : Location) (species : Nat) (instruction : Instruction)
    (fault : InstructionFault)
  /-- An individual was converted. -/
  | infected (source target : Location) (species previousSpecies : Nat)
  /-- A world was set up. -/
  | created (automaton : String) (rows cols : Int) (edge : Edge)
  /-- A tick was completed. -/
  | tickComplete (tick updates : Nat)
  /-- The cells were counted by state. -/
  | populationCounted (tick : Nat) (population : List (Nat × Nat))
  /-- A run of some ticks started. -/
  | runStarted (ticks : Nat)
  /-- A run was completed. -/
  | runComplete (ticks updates : Nat)
  deriving DecidableEq, Repr

namespace Event

/-- How important the event is. -/
def level : Event → EventLevel
  | updateIgnored _ | noVacancy _ | sharkStarved _ | infectionWoreOff _ _ | infected _ _ _ _ =>
    .trace
  | darwinReady _ _ | nothingToRun _ _ | tickComplete _ _ => .debug
  | programSuspect _ _ | instructionSkipped _ _ | instructionFailed _ _ _ _ => .warn
  | created _ _ _ _ | populationCounted _ _ | runStarted _ | runComplete _ _ => .info

/-- What happened, in words. -/
def message : Event → String
  | updateIgnored _ => "ignoring update for unpopulated position"
  | noVacancy _ => "no vacancy left for unsatisfied agent"
  | sharkStarved _ => "shark starved"
  | programSuspect _ _ => "species program will fail at runtime"
  | darwinReady _ _ => "darwin rules ready"
  | infectionWoreOff _ _ => "infection wore off"
  | nothingToRun _ _ => "no instruction to run"
  | instructionSkipped _ _ => "skipping instruction"
  | instructionFailed _ _ _ _ => "instruction failed"
  | infected _ _ _ _ => "infected"
  | created _ _ _ _ => "Simulation created"
  | tickComplete _ _ => "tick complete"
  | populationCounted _ _ => "Population metrics snapshot"
  | runStarted ticks => "Starting simulation for " ++ Numeral.natural ticks ++ " ticks"
  | runComplete _ _ => "Simulation complete"

/-- The counts of a population in an event. -/
def populationText (population : List (Nat × Nat)) : String :=
  "\x7b" ++ Text.joined ", " (population.map fun entry =>
    Numeral.natural entry.1 ++ ": " ++ Numeral.natural entry.2) ++ "\x7d"

/-- The details, by name. -/
def fields : Event → List (String × String)
  | updateIgnored location | noVacancy location | sharkStarved location =>
    [("location", location.text)]
  | programSuspect species fault =>
    [("species", Numeral.natural species), ("error", (Fault.program fault).message)]
  | darwinReady species settings =>
    [("species", Numeral.natural species), ("settings", settings.text)]
  | infectionWoreOff location species | nothingToRun location species =>
    [("location", location.text), ("species", Numeral.natural species)]
  | instructionSkipped location fault =>
    [("location", location.text), ("error", fault.message)]
  | instructionFailed location species instruction fault =>
    [("location", location.text), ("species", Numeral.natural species),
      ("instruction", instruction.text), ("error", fault.message)]
  | infected source target species previousSpecies =>
    [("from", source.text), ("target", target.text), ("species", Numeral.natural species),
      ("previous_species", Numeral.natural previousSpecies)]
  | created automaton rows cols edge =>
    [("simulation", automaton), ("rows", Numeral.integer rows), ("cols", Numeral.integer cols),
      ("edge", edge.name)]
  | tickComplete tick updates =>
    [("tick", Numeral.natural tick), ("updates", Numeral.natural updates)]
  | populationCounted tick population =>
    [("event", "population_metrics"), ("tick", Numeral.natural tick),
      ("population", populationText population)]
  | runStarted _ => []
  | runComplete ticks updates =>
    [("event", "run_summary"), ("total_ticks", Numeral.natural ticks),
      ("updates_applied", Numeral.natural updates)]

end Event

end CellularAutomata

import CellularAutomata.Edge
import CellularAutomata.Parameters

/-!
# Configurations

The description of one run: which automaton, on which grid, with which initial states,
for how long.
-/

namespace CellularAutomata

/-- The description of a run. -/
structure Configuration where
  /-- The name of the automaton. -/
  automaton : String
  /-- How many rows there are. -/
  rows : Int
  /-- How many columns there are. -/
  cols : Int
  /-- What happens beyond the edge. -/
  edge : Edge
  /-- How many ticks to run. -/
  ticks : Nat
  /-- Decides the course of chance unless a parameter does. -/
  seed : Nat
  /-- After how many ticks the cells are counted, or zero for never. -/
  metricsInterval : Nat
  /-- The parameters of the rules. -/
  parameters : Parameters
  /-- Initial states by row and column. -/
  states : List (List Nat)
  /-- The texts of species programs. -/
  species : Std.ExtTreeMap Nat String

namespace Configuration

/-- What holds for everything that a description leaves out. -/
def default : Configuration :=
  ⟨"life", 32, 32, .fixed, 100, 0, 10, .empty, [], ∅⟩

/-- The first row of states with more than `cols` entries: its index and its length. -/
def firstTooLong (cols : Int) : Nat → List (List Nat) → Option (Nat × Nat)
  | _, [] => none
  | index, row :: rest =>
    if cols < row.length then some (index, row.length) else firstTooLong cols (index + 1) rest

/-- Checks dimensions and initial states against each other. -/
def validate (c : Configuration) : Except Fault Unit :=
  if c.rows ≤ 0 ∨ c.cols ≤ 0 then .error (.world (.badDimensions c.rows c.cols))
  else if c.rows < c.states.length then .error (.world (.tooManyRows c.states.length c.rows))
  else
    match firstTooLong c.cols 0 c.states with
    | some (index, given) => .error (.world (.tooManyStates index given c.cols))
    | none => .ok ()

/-- The initial state at a row and a column; zero where none is given. -/
def initialState (c : Configuration) (row col : Nat) : Nat :=
  ((c.states[row]?).bind fun states => states[col]?).getD 0

end Configuration

end CellularAutomata

import CellularAutomata.Neighborhood.Policy
import CellularAutomata.Tick

/-!
# Fire

Trees grow in empty cells by chance, catch fire from a burning neighbor or by chance,
and burn for one tick.
-/

namespace CellularAutomata.Fire

/-- The state of an empty cell. -/
def bare : Nat := 0

/-- The state of a cell with a tree. -/
def tree : Nat := 1

/-- The state of a cell with a burning tree. -/
def burning : Nat := 2

/-- The rules of one automaton. -/
structure Rules where
  /-- How likely a tree grows in an empty cell. -/
  growth : Binary64
  /-- How likely a tree without a burning neighbor catches fire. -/
  ignition : Binary64
  /-- Which cells are neighbors. -/
  policy : NeighborPolicy
  /-- Decides the course of chance. -/
  seed : Int
  deriving DecidableEq, Repr

/-- Reads the rules. -/
def Rules.ofParameters (p : Parameters) : Except Fault Rules := do
  let growth ← p.probability "growInEmptyCell" none
  let ignition ← p.probability "ignitionWithoutNeighbors" none
  let policy ← NeighborPolicy.ofParameters p .square4
  let seed ← Seed.ofParameters p
  return ⟨growth, ignition, policy, seed⟩

/-- The parameters that the rules are read from. -/
def Rules.parameters (r : Rules) : Parameters :=
  Seed.describe r.seed (r.policy.describe
    ((Parameters.empty.insert "growInEmptyCell" (.number r.growth)).insert
      "ignitionWithoutNeighbors" (.number r.ignition)))

/-- The next state of a cell. Empty cells draw once, trees only when no neighbor burns. -/
def Rules.nextState {ρ : Type} [WordSource ρ] (r : Rules) (g : Grid) (c : Cell) (source : ρ) :
    Nat × ρ :=
  if c.state = burning then (bare, source)
  else if c.state = bare then
    let (draw, source) := WordSource.unitInterval source
    (if draw.less r.growth then tree else bare, source)
  else if c.state = tree then
    if 0 < r.policy.countInState g c.location burning then (burning, source)
    else
      let (draw, source) := WordSource.unitInterval source
      (if draw.less r.ignition then burning else tree, source)
  else (c.state, source)

end CellularAutomata.Fire

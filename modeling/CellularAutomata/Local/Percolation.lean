import CellularAutomata.Neighborhood.Policy
import CellularAutomata.Tick

/-!
# Percolation

A fluid enters open cells of the top row and spreads to open cells with a filled
neighbor. The grid percolates when the fluid has reached the bottom row.
-/

namespace CellularAutomata.Percolation

/-- The state of a cell that lets nothing through. -/
def blocked : Nat := 0

/-- The state of an open cell. -/
def opened : Nat := 1

/-- The state of a cell that the fluid has reached. -/
def filled : Nat := 2

/-- The rules of one automaton. -/
structure Rules where
  /-- Which cells are neighbors. -/
  policy : NeighborPolicy
  deriving DecidableEq, Repr

/-- Reads the rules. -/
def Rules.ofParameters (p : Parameters) : Except Fault Rules := do
  let policy ← NeighborPolicy.ofParameters p .square4
  return ⟨policy⟩

/-- The parameters that the rules are read from. -/
def Rules.parameters (r : Rules) : Parameters := r.policy.describe Parameters.empty

/-- The next state of a cell. -/
def Rules.nextState (r : Rules) (g : Grid) (c : Cell) : Nat :=
  if c.state = opened ∧ (c.location.row = 0 ∨ 0 < r.policy.countInState g c.location filled) then
    filled
  else c.state

/-- Whether the fluid has reached the bottom row. -/
def percolates (g : Grid) : Bool :=
  g.cellList.any fun c => c.location.row == g.rows - 1 && c.state == filled

end CellularAutomata.Percolation

import CellularAutomata.Neighborhood.Policy
import CellularAutomata.Tick

/-!
# Cyclic dominance

Every state is beaten by the next one and the last state by the first. A cell is
converted when enough neighbors beat it.
-/

namespace CellularAutomata.Dominance

/-- The rules of one automaton. -/
structure Rules where
  /-- How many states there are. -/
  states : Nat
  /-- How many neighbors have to beat a cell to convert it. -/
  threshold : Nat
  /-- Which cells are neighbors. -/
  policy : NeighborPolicy
  deriving DecidableEq, Repr

/-- Reads the rules. -/
def Rules.ofParameters (p : Parameters) : Except Fault Rules := do
  let states ← p.integerWithin "numStates" 2 10 (some 3)
  let threshold ← p.integerWithin "threshold" 1 96 (some 3)
  let policy ← NeighborPolicy.ofParameters p .square8
  return ⟨states.toNat, threshold.toNat, policy⟩

/-- The parameters that the rules are read from. -/
def Rules.parameters (r : Rules) : Parameters :=
  r.policy.describe ((Parameters.empty.insert "numStates" (.ofInt r.states)).insert
    "threshold" (.ofInt r.threshold))

/-- The state that beats a state. -/
def Rules.predator (r : Rules) (state : Nat) : Nat := (state + 1) % r.states

/-- Whether the state after a state is an unsigned 32-bit number. -/
def successorFits (state : Nat) : Bool := decide (state + 1 < Nat.pow 2 32)

/-- The next state of a cell. -/
def Rules.nextState (r : Rules) (g : Grid) (c : Cell) : Nat :=
  let predator := r.predator c.state
  if r.threshold ≤ r.policy.countInState g c.location predator then predator else c.state

end CellularAutomata.Dominance

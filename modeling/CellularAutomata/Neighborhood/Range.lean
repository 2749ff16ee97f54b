import CellularAutomata.Grid.Range
import CellularAutomata.Neighborhood.Policy

/-!
# The range of neighborhoods

The numbers that finding the neighbors of a location comes upon. If one of them does not fit,
there are no neighbors to work with.
-/

namespace CellularAutomata

/-- The numbers that finding out the steps from a cell comes upon. Triangles point up or down
depending on the sum of the coordinates. -/
def Topology.directionNumbers (t : Topology) (row col : Int) : List Int :=
  match t with
  | triangle => [row + col]
  | square4 | square8 | hex => []

namespace NeighborPolicy

/-- The numbers that taking steps in one layer comes upon. Under truncation it ends with the first
step that leaves the grid. -/
def stepNumbers (n : NeighborPolicy) (g : Grid) (l : Location) (layer : Nat) :
    List (Int × Int) → List Int
  | [] => []
  | direction :: rest =>
    g.probeNumbers l direction layer ++
      if n.truncates && (g.resolve (l.step direction layer)).isNone then []
      else stepNumbers n g l layer rest

/-- The numbers that finding the neighbors of a location comes upon. -/
def numbers (n : NeighborPolicy) (g : Grid) (l : Location) : List Int :=
  n.topology.directionNumbers l.row l.col ++
    (List.range n.rounds).flatMap fun index =>
      n.stepNumbers g l (index + 1) (n.topology.directions l.row l.col)

/-- The positions around a location, layer by layer, if all numbers fit that finding them comes
upon. -/
def neighborLocations? (n : NeighborPolicy) (g : Grid) (l : Location) : Option (List Location) :=
  if (n.numbers g l).all Numeral.fitsInt32 then some (n.neighborLocations g l) else none

end NeighborPolicy

end CellularAutomata

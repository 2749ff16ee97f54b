import CellularAutomata.Fault

/-!
# Topologies

Which steps lead from a cell to its neighbors. Cells are squares, hexagons in columns of
which every odd one is shifted half a cell down, or triangles that point up and down by
turns; the steps of the latter two depend on where the cell is.
-/

namespace CellularAutomata

/-- A shape of cells with the steps to the neighbors. -/
inductive Topology where
  /-- Squares that share a side. -/
  | square4
  /-- Squares that share a side or a corner. -/
  | square8
  /-- Hexagons that share a side. -/
  | hex
  /-- Triangles that share a side or a corner. -/
  | triangle
  deriving DecidableEq, Repr

namespace Topology

/-- The name under which a topology is written. -/
def name : Topology → String
  | square4 => "square4"
  | square8 => "square8"
  | hex => "hex"
  | triangle => "triangle"

/-- Reads a topology from one of its names in any letter case. -/
def ofText (text : String) : Except Fault Topology :=
  match Text.lower text with
  | "square4" | "vonneumann" | "4" => .ok square4
  | "square8" | "square" | "moore" | "8" => .ok square8
  | "hex" | "hexagon" => .ok hex
  | "triangle" => .ok triangle
  | other => .error (.parameter "neighborhood" (.unknownNeighborhood other))

/-- The steps to the squares that share a side. -/
def sideSteps : List (Int × Int) := [(-1, 0), (0, -1), (0, 1), (1, 0)]

/-- The steps to the squares that share a side or a corner. -/
def cornerSteps : List (Int × Int) :=
  [(-1, -1), (-1, 0), (-1, 1), (0, -1), (0, 1), (1, -1), (1, 0), (1, 1)]

/-- The steps from a hexagon of an even column. -/
def evenColumnSteps : List (Int × Int) :=
  [(-1, 0), (-1, -1), (-1, 1), (0, -1), (0, 1), (1, 0)]

/-- The steps from a hexagon of an odd column. -/
def oddColumnSteps : List (Int × Int) :=
  [(-1, 0), (0, -1), (0, 1), (1, -1), (1, 1), (1, 0)]

/-- The steps from a triangle that points up: three cells touch it from the row above
and five from the row below. -/
def upwardSteps : List (Int × Int) :=
  [(-1, -1), (-1, 0), (-1, 1), (0, -2), (0, -1), (0, 1), (0, 2),
    (1, -2), (1, -1), (1, 0), (1, 1), (1, 2)]

/-- The steps from a triangle that points down: five cells touch it from the row above
and three from the row below. -/
def downwardSteps : List (Int × Int) :=
  [(-1, -2), (-1, -1), (-1, 0), (-1, 1), (-1, 2), (0, -2), (0, -1), (0, 1), (0, 2),
    (1, -1), (1, 0), (1, 1)]

/-- The steps from the cell at a row and a column. -/
def directions (t : Topology) (row col : Int) : List (Int × Int) :=
  match t with
  | square4 => sideSteps
  | square8 => cornerSteps
  | hex => if col % 2 = 0 then evenColumnSteps else oddColumnSteps
  | triangle => if (row + col) % 2 = 0 then upwardSteps else downwardSteps

end Topology

end CellularAutomata

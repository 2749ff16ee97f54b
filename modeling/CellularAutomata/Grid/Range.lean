import CellularAutomata.Grid

/-!
# The range of coordinates

Coordinates are signed 32-bit numbers. Whoever comes upon a number beyond that range stops. Here
the numbers are listed that looking up a location comes upon, in the order in which it does.
-/

namespace CellularAutomata

/-- Whether a number is a signed 32-bit number. -/
def Numeral.fitsInt32 (n : Int) : Bool := decide (leastInt32 ≤ n) && decide (n ≤ mostInt32)

/-- The numbers that taking a step `distance` times comes upon. -/
def Location.stepNumbers (l : Location) (direction : Int × Int) (distance : Int) : List Int :=
  [direction.1 * distance, direction.2 * distance,
    l.row + direction.1 * distance, l.col + direction.2 * distance]

namespace Edge

/-- The numbers that one reflection comes upon. -/
def reflectNumbers (coordinate size : Int) : List Int :=
  if coordinate < 0 then [-coordinate]
  else if size ≤ coordinate then [2 * size, 2 * size - coordinate, 2 * size - coordinate - 2]
  else []

/-- The numbers that wrapping comes upon: a remainder with the sign of the coordinate is
raised by the size before the remainder is taken once more. -/
def wrapNumbers (coordinate size : Int) : List Int :=
  let rest := coordinate.tmod size
  [rest, rest + size, (rest + size).tmod size]

/-- The numbers that finding out where a location is looked up comes upon. -/
def adjustNumbers (edge : Edge) (rows cols : Int) (l : Location) : List Int :=
  match edge with
  | fixed => []
  | toroidal => wrapNumbers l.row rows ++ wrapNumbers l.col cols
  | mirror => reflectNumbers l.row rows ++ reflectNumbers l.col cols

end Edge

/-- The numbers that looking up the location at a distance comes upon. -/
def Grid.probeNumbers (g : Grid) (origin : Location) (direction : Int × Int) (distance : Nat) :
    List Int :=
  origin.stepNumbers direction distance ++
    g.edge.adjustNumbers g.rows g.cols (origin.step direction distance)

end CellularAutomata

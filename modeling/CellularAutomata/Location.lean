import Std.Data.ExtTreeMap
import CellularAutomata.Numeral.Decimal

/-!
# Locations

Positions of a grid and positions beside it. Locations are ordered by row and then by
column, so a map keyed by locations is walked in row-major order.
-/

namespace CellularAutomata

/-- A row and a column. Both may lie off the grid, so both are integers. -/
structure Location where
  /-- Counted downwards from the top row, which is row 0. -/
  row : Int
  /-- Counted to the right from the leftmost column, which is column 0. -/
  col : Int
  deriving DecidableEq, Repr, Inhabited

namespace Location

/-- Row-major order. -/
instance : Ord Location where
  compare := compareLex (compareOn row) (compareOn col)

theorem compare_eq_compareLex :
    (compare : Location → Location → Ordering) = compareLex (compareOn row) (compareOn col) :=
  rfl

instance : Std.TransOrd Location :=
  inferInstanceAs (Std.TransCmp (compareLex (compareOn row) (compareOn col)))

instance : Std.LawfulEqOrd Location where
  eq_of_compare {a b} h := by
    simp only [compare_eq_compareLex, compareLex, compareOn, Ordering.then_eq_eq] at h
    cases a
    cases b
    simp_all

/-- The location some rows further down and some columns further right. -/
def offset (l : Location) (rows cols : Int) : Location := ⟨l.row + rows, l.col + cols⟩

/-- The location reached by taking one and the same step `distance` times. -/
def step (l : Location) (direction : Int × Int) (distance : Int) : Location :=
  l.offset (direction.1 * distance) (direction.2 * distance)

/-- The text of a location in messages. -/
def text (l : Location) : String :=
  "(" ++ Numeral.integer l.row ++ ", " ++ Numeral.integer l.col ++ ")"

end Location

end CellularAutomata

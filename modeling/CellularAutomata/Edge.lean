import CellularAutomata.Fault

/-!
# Edges of a grid

What happens to a location that lies beyond the edge of a grid. A fixed edge leaves it
where it is, a toroidal one wraps it around, and a mirror reflects it once; a location
further out than one grid length is still outside after the reflection.
-/

namespace CellularAutomata

/-- How a grid treats locations beyond its edge. -/
inductive Edge where
  /-- Locations beyond the edge stay there. -/
  | fixed
  /-- Locations beyond the edge come in again on the opposite side. -/
  | toroidal
  /-- Locations beyond the edge are reflected about the outermost cells. -/
  | mirror
  deriving DecidableEq, Repr

namespace Edge

/-- The name under which an edge is written. -/
def name : Edge → String
  | fixed => "fixed"
  | toroidal => "toroidal"
  | mirror => "mirror"

/-- Reads an edge from one of its names in any letter case. -/
def ofText (text : String) : Except Fault Edge :=
  match Text.lower text with
  | "fixed" | "finite" => .ok fixed
  | "toroidal" | "torus" | "wrap" => .ok toroidal
  | "mirror" | "reflect" => .ok mirror
  | other => .error (.parameter "edge" (.unknownEdge other))

/-- One reflection of a coordinate about the first or the last of `size` cells. -/
def reflect (coordinate size : Int) : Int :=
  if coordinate < 0 then -coordinate
  else if size ≤ coordinate then 2 * size - coordinate - 2
  else coordinate

/-- A coordinate wrapped around `size` cells: the remainder that has the sign of the size. -/
def wrap (coordinate size : Int) : Int := coordinate.fmod size

/-- Around at least one cell, wrapping is the remainder between zero and the size. -/
theorem wrap_eq_emod {size : Int} (h : 0 < size) (coordinate : Int) :
    wrap coordinate size = coordinate % size :=
  Int.fmod_eq_emod_of_nonneg coordinate (Int.le_of_lt h)

/-- A coordinate of a cell is not wrapped. -/
theorem wrap_of_inside {coordinate size : Int} (h : 0 ≤ coordinate ∧ coordinate < size) :
    wrap coordinate size = coordinate := by
  rw [wrap_eq_emod (by omega), Int.emod_eq_of_lt h.1 h.2]

/-- A coordinate of a cell is not reflected. -/
theorem reflect_of_inside {coordinate size : Int} (h : 0 ≤ coordinate ∧ coordinate < size) :
    reflect coordinate size = coordinate := by
  rw [reflect, if_neg (by omega), if_neg (by omega)]

/-- One reflection leads to a cell from less than one size before the first cell, and from less
than one size beyond the last cell; the outermost cells themselves are not repeated. -/
theorem reflect_inside_iff {coordinate size : Int} :
    (0 ≤ reflect coordinate size ∧ reflect coordinate size < size) ↔
      -size < coordinate ∧ coordinate < 2 * size - 1 := by
  unfold reflect
  split
  · omega
  · split <;> omega

/-- Where a location of a `rows` by `cols` grid is looked up. -/
def adjust (edge : Edge) (rows cols : Int) (l : Location) : Location :=
  match edge with
  | fixed => l
  | toroidal => ⟨wrap l.row rows, wrap l.col cols⟩
  | mirror => ⟨reflect l.row rows, reflect l.col cols⟩

end Edge

end CellularAutomata

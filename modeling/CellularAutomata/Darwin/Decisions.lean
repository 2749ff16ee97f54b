import Std.Data.ExtTreeSet
import CellularAutomata.Grid

/-!
# Decisions of a tick

Individuals act one after the other, and each sees what the ones before it have decided:
positions that have their final occupant, and positions that somebody has left. A
position that has been left looks empty and cannot be entered before the next tick.
-/

namespace CellularAutomata.Darwin

/-- How a position came to have its final occupant. -/
inductive ClaimKind where
  /-- The individual there acted and did not move. -/
  | stayed
  /-- An individual moved in. -/
  | arrived
  /-- The individual there was converted. -/
  | infected
  deriving DecidableEq, Repr

/-- The final occupant of a position. -/
structure Claim where
  /-- The occupant. -/
  cell : Cell
  /-- How it came to be there. -/
  kind : ClaimKind
  deriving DecidableEq, Repr

/-- What an individual sees at a position. -/
inductive View where
  /-- No position of the grid, or one without a cell. -/
  | wall
  /-- A position that nobody occupies. -/
  | empty
  /-- A position with an individual. -/
  | occupied (cell : Cell)
  deriving DecidableEq, Repr

/-- What has been decided so far. -/
structure Decisions where
  /-- The final occupants by position. -/
  claims : Std.ExtTreeMap Location Claim
  /-- The positions that have been left. -/
  vacated : Std.ExtTreeSet Location

namespace Decisions

/-- Nothing has been decided. -/
def none : Decisions := ⟨∅, ∅⟩

/-- The claim to a position. -/
def claim? (d : Decisions) (l : Location) : Option Claim := d.claims[l]?

/-- Whether a position has its final occupant. -/
def isFinal (d : Decisions) (l : Location) : Bool := d.claims.contains l

/-- Whether a position has been left. -/
def isVacated (d : Decisions) (l : Location) : Bool := d.vacated.contains l

/-- Whether nobody may move in any more. -/
def isUnavailable (d : Decisions) (l : Location) : Bool := d.isFinal l || d.isVacated l

/-- Makes a cell the final occupant of its location. -/
def occupy (d : Decisions) (cell : Cell) (kind : ClaimKind) : Decisions :=
  { d with claims := d.claims.insert cell.location ⟨cell, kind⟩ }

/-- Notes that a position has been left. -/
def vacate (d : Decisions) (l : Location) : Decisions := { d with vacated := d.vacated.insert l }

/-- The cell at a position: its final occupant, or else the one before the tick. -/
def current (d : Decisions) (g : Grid) (l : Location) : Option Cell :=
  match d.claim? l with
  | some claim => some claim.cell
  | .none => g.cellAt l

/-- What is seen at a location, which may be beyond the edge. -/
def view (d : Decisions) (g : Grid) (l : Location) : View :=
  match g.resolve l with
  | .none => .wall
  | some position =>
    if d.isVacated position && !d.isFinal position then .empty
    else
      match d.current g position with
      | .none => .wall
      | some cell => if cell.isEmpty then .empty else .occupied cell

/-- An empty cell for every position that was left and has no occupant, then the final
occupants. -/
def updates (d : Decisions) : List CellUpdate :=
  ((d.vacated.toList.filter fun l => !d.isFinal l).map fun l =>
      CellUpdate.place l (.empty l)) ++
    d.claims.toList.map fun entry => CellUpdate.place entry.1 entry.2.cell

@[simp] theorem claim?_none (l : Location) : none.claim? l = Option.none := by
  simp [none, claim?]

@[simp] theorem isVacated_none (l : Location) : none.isVacated l = false := by
  simp [none, isVacated]

theorem isFinal_eq_isSome_claim? (d : Decisions) (l : Location) :
    d.isFinal l = (d.claim? l).isSome :=
  Std.ExtTreeMap.contains_eq_isSome_getElem?

/-- The last claim to a position counts. -/
theorem claim?_occupy (d : Decisions) (c : Cell) (kind : ClaimKind) (l : Location) :
    (d.occupy c kind).claim? l = if c.location = l then some ⟨c, kind⟩ else d.claim? l := by
  simp [occupy, claim?, Std.ExtTreeMap.getElem?_insert]

@[simp] theorem isVacated_occupy (d : Decisions) (c : Cell) (kind : ClaimKind) (l : Location) :
    (d.occupy c kind).isVacated l = d.isVacated l := rfl

@[simp] theorem claim?_vacate (d : Decisions) (l l' : Location) :
    (d.vacate l).claim? l' = d.claim? l' := rfl

theorem isVacated_vacate (d : Decisions) (l l' : Location) :
    (d.vacate l).isVacated l' = (decide (l = l') || d.isVacated l') := by
  by_cases h : l = l' <;> simp [vacate, isVacated, Std.ExtTreeSet.contains_insert, h]

end Decisions

end CellularAutomata.Darwin

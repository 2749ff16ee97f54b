import CellularAutomata.Cell.Individual
import CellularAutomata.Location

/-!
# Cells

A cell is a state at a location, with whatever else its automaton needs to know about
it. An update says which cell replaces the one at a location.
-/

namespace CellularAutomata

/-- The state of a cell that nobody occupies. -/
def emptyState : Nat := 0

/-- What a cell carries besides its state. -/
inductive Attributes where
  /-- Nothing. -/
  | plain
  /-- The counters of a creature. -/
  | creature (creature : Creature)
  /-- The execution state of an individual. -/
  | individual (individual : Individual)
  deriving DecidableEq, Repr

/-- A state at a location. -/
structure Cell where
  /-- The state. -/
  state : Nat
  /-- Where the cell is. -/
  location : Location
  /-- What it carries besides its state. -/
  attributes : Attributes
  deriving DecidableEq, Repr

namespace Cell

/-- A cell that carries nothing. -/
def plain (state : Nat) (location : Location) : Cell := ⟨state, location, .plain⟩

/-- An empty cell. -/
def empty (location : Location) : Cell := plain emptyState location

/-- A cell with a creature. -/
def ofCreature (state : Nat) (location : Location) (creature : Creature) : Cell :=
  ⟨state, location, .creature creature⟩

/-- A cell with an individual. -/
def ofIndividual (state : Nat) (location : Location) (individual : Individual) : Cell :=
  ⟨state, location, .individual individual⟩

/-- Whether nobody occupies the cell. -/
def isEmpty (c : Cell) : Bool := c.state == emptyState

/-- The creature of a cell, if it carries one. -/
def creature? (c : Cell) : Option Creature :=
  match c.attributes with
  | .creature creature => some creature
  | _ => none

/-- The individual of a cell, if it carries one. -/
def individual? (c : Cell) : Option Individual :=
  match c.attributes with
  | .individual individual => some individual
  | _ => none

/-- The cell in another state. -/
def withState (c : Cell) (state : Nat) : Cell := { c with state := state }

/-- The cell at another location. -/
def movedTo (c : Cell) (location : Location) : Cell := { c with location := location }

end Cell

/-- The cell that replaces the one at a location. -/
structure CellUpdate where
  /-- Where the replacement takes place. -/
  location : Location
  /-- The cell that is put there. -/
  next : Cell
  deriving DecidableEq, Repr

/-- The update that puts a cell at a location, moving it there first. -/
def CellUpdate.place (location : Location) (cell : Cell) : CellUpdate :=
  ⟨location, cell.movedTo location⟩

end CellularAutomata

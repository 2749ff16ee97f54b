import CellularAutomata.Cell.Heading
import CellularAutomata.Species.Program

/-!
# Individuals

What a cell can carry besides its state: the counters of a creature that hunts and
breeds, or the execution state of an individual that runs a species program.
-/

namespace CellularAutomata

/-- The counters of a creature. -/
structure Creature where
  /-- A hunter starves when this is used up. -/
  energy : Int
  /-- Ticks since the creature last bred. -/
  breedTimer : Nat
  deriving DecidableEq, Repr

/-- An infection that makes an individual run the program of another species. -/
structure Infection where
  /-- Ticks that are left. -/
  countdown : Nat
  /-- The species that the individual reverts to. -/
  previousSpecies : Nat
  deriving DecidableEq, Repr

/-- The execution state of an individual. -/
structure Individual where
  /-- Heading in degrees. -/
  orientation : Int
  /-- The line that is executed next, counted from zero. -/
  programCounter : Nat
  /-- The infection, if there is one. -/
  infection : Option Infection
  /-- The program that the individual runs. -/
  program : Program
  deriving DecidableEq, Repr

namespace Individual

/-- An individual that starts a program; its orientation is brought below a full turn. -/
def start (program : Program) (orientation : Int) : Individual :=
  ⟨orientation % 360, 0, none, program⟩

/-- An individual that starts a program because of an infection. -/
def infected (program : Program) (orientation : Int) (infection : Infection) : Individual :=
  { start program orientation with infection := some infection }

/-- Whether there is an infection. -/
def isInfected (i : Individual) : Bool := i.infection.isSome

/-- The individual turned counter-clockwise. -/
def turn (i : Individual) (degrees : Int) : Individual :=
  { i with orientation := (i.orientation + degrees) % 360 }

/-- The step ahead. -/
def heading (i : Individual) : Int × Int := Heading.ofDegrees i.orientation

end Individual

end CellularAutomata

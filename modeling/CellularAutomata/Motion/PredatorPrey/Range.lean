import CellularAutomata.Motion.PredatorPrey
import CellularAutomata.Neighborhood.Range

/-!
# The range of counters

Breeding counters are unsigned 32-bit numbers and energies are signed ones. A turn that comes upon
a number beyond its range cannot be completed, and then the whole run stops.
-/

namespace CellularAutomata.PredatorPrey

/-- The numbers that the energy of a creature comes upon in its turn: a shark has its meal before
it uses up one unit, and fish have no energy. -/
def Rules.energyNumbers (r : Rules) (a : Act) (k : Creature) : List Int :=
  if a.state = shark then
    match a.prey with
    | none => [k.energy - 1]
    | some _ => [k.energy + r.energyFromFish, k.energy + r.energyFromFish - 1]
  else []

/-- Whether all numbers fit that come up in the turn of a creature. Its breeding counter goes up by
one, its energy changes, and it looks for neighbors. -/
def Rules.actFits (r : Rules) (g : Grid) (a : Act) (k : Creature) : Bool :=
  decide (k.breedTimer + 1 < Nat.pow 2 32) && (r.energyNumbers a k).all Numeral.fitsInt32 &&
    (r.policy.neighborLocations? g a.origin).isSome

/-- Whether all numbers fit that come up in a tick. -/
def Rules.tickFits {ρ : Type} [WordSource ρ] (r : Rules) (g : Grid) (source : ρ) : Bool :=
  (r.pass g source).acts.all fun a =>
    (g.cellAt a.origin).all fun c => r.actFits g a (r.creatureOf c)

end CellularAutomata.PredatorPrey

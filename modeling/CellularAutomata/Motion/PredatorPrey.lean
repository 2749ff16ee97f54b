import Std.Data.ExtTreeSet
import CellularAutomata.Neighborhood.Policy
import CellularAutomata.Tick

/-!
# Predators and prey

Sharks hunt fish, both move to empty neighbors, and whoever has moved with a full
breeding counter leaves a newborn behind. All sharks act before all fish. What each of
them does is recorded as an `Act`, so that meals, deaths and births can be counted.
-/

namespace CellularAutomata.PredatorPrey

/-- The state of an empty cell. -/
def water : Nat := 0

/-- The state of a cell with a fish. -/
def fish : Nat := 1

/-- The state of a cell with a shark. -/
def shark : Nat := 2

/-- The rules of one automaton. -/
structure Rules where
  /-- Ticks after which a fish can breed. -/
  fishBreedTime : Nat
  /-- Ticks after which a shark can breed. -/
  sharkBreedTime : Nat
  /-- The energy of a new shark. -/
  sharkStartEnergy : Int
  /-- The energy that a shark gains from a fish. -/
  energyFromFish : Int
  /-- Which cells are neighbors. -/
  policy : NeighborPolicy
  /-- Decides the course of chance. -/
  seed : Int
  deriving DecidableEq, Repr

/-- Reads the rules. -/
def Rules.ofParameters (p : Parameters) : Except Fault Rules := do
  let fishBreedTime ← p.integerWithin "fishBreedTime" 1 10000 (some 3)
  let sharkBreedTime ← p.integerWithin "sharkBreedTime" 1 10000 (some 10)
  let sharkStartEnergy ← p.integerWithin "sharkStartEnergy" 1 10000 (some 5)
  let energyFromFish ← p.integerWithin "energyFromFish" 0 10000 (some 2)
  let policy ← NeighborPolicy.ofParameters p .square4
  let seed ← Seed.ofParameters p
  return ⟨fishBreedTime.toNat, sharkBreedTime.toNat, sharkStartEnergy, energyFromFish, policy, seed⟩

/-- The parameters that the rules are read from. -/
def Rules.parameters (r : Rules) : Parameters :=
  Seed.describe r.seed (r.policy.describe
    ((((Parameters.empty.insert "fishBreedTime" (.ofInt r.fishBreedTime)).insert
      "sharkBreedTime" (.ofInt r.sharkBreedTime)).insert
      "sharkStartEnergy" (.ofInt r.sharkStartEnergy)).insert
      "energyFromFish" (.ofInt r.energyFromFish)))

/-- The counters of a newborn. -/
def Rules.newborn (r : Rules) (state : Nat) : Creature :=
  ⟨if state = shark then r.sharkStartEnergy else 0, 0⟩

/-- The counters of a cell. One that carries none starts like a newborn. -/
def Rules.creatureOf (r : Rules) (c : Cell) : Creature := c.creature?.getD (r.newborn c.state)

/-- Ticks after which a creature can breed. -/
def Rules.breedTime (r : Rules) (state : Nat) : Nat :=
  if state = shark then r.sharkBreedTime else r.fishBreedTime

/-- The cell with which an automaton of this kind starts. -/
def Rules.start (r : Rules) (state : Nat) (l : Location) : Except Fault Cell :=
  if state = water then .ok (.empty l)
  else if state = fish ∨ state = shark then .ok (.ofCreature state l (r.newborn state))
  else .error (.parameter "state" (.unknownState state "wator" 3))

/-- How the turn of a creature ends. -/
inductive Outcome where
  /-- The creature has run out of energy. -/
  | starved
  /-- The creature is at its destination. -/
  | settled
  /-- The creature is at its destination and has left a newborn behind. -/
  | bred
  deriving DecidableEq, Repr

/-- The turn of a creature. -/
structure Act where
  /-- What kind of creature it is. -/
  state : Nat
  /-- Where it was. -/
  origin : Location
  /-- Where the fish was that it has eaten. -/
  prey : Option Location
  /-- Where it went, or where it was if it stayed. -/
  destination : Location
  /-- How the turn ended. -/
  outcome : Outcome
  deriving DecidableEq, Repr

/-- The work of one tick so far. -/
structure Pass (ρ : Type) where
  /-- The cells as they will be. -/
  next : Std.ExtTreeMap Location Cell
  /-- Positions that somebody has gone to, stayed at or been born at. -/
  claimed : Std.ExtTreeSet Location
  /-- Positions of fish that have been eaten. -/
  eaten : Std.ExtTreeSet Location
  /-- The turns so far, the latest first. -/
  acts : List Act
  /-- The source of random words. -/
  source : ρ

variable {ρ : Type} [WordSource ρ]

/-- The neighbors that were empty before the tick and that nobody has claimed. -/
def Rules.freeNeighbors (r : Rules) (g : Grid) (pass : Pass ρ) (l : Location) : List Location :=
  (r.policy.neighborLocations g l).filter fun n =>
    g.stateAt n == some water && !pass.claimed.contains n

/-- The neighbors with a fish that nobody has eaten and at a place nobody has claimed. -/
def Rules.preyNeighbors (r : Rules) (g : Grid) (pass : Pass ρ) (l : Location) : List Location :=
  (r.policy.neighborLocations g l).filter fun n =>
    g.stateAt n == some fish && !pass.eaten.contains n && !pass.claimed.contains n

/-- Places a creature that survives, and a newborn where it was if it has moved with a
full breeding counter. -/
def Rules.settle (r : Rules) (pass : Pass ρ) (state : Nat) (origin : Location)
    (prey : Option Location) (destination : Location) (creature : Creature) : Pass ρ :=
  if destination ≠ origin ∧ r.breedTime state ≤ creature.breedTimer then
    { pass with
      claimed := pass.claimed.insert origin
      next := (pass.next.insert origin (.ofCreature state origin (r.newborn state))).insert
        destination (.ofCreature state destination { creature with breedTimer := 0 })
      acts := ⟨state, origin, prey, destination, .bred⟩ :: pass.acts }
  else
    let vacated :=
      if destination ≠ origin then pass.next.insert origin (.empty origin) else pass.next
    { pass with
      next := vacated.insert destination (.ofCreature state destination creature)
      acts := ⟨state, origin, prey, destination, .settled⟩ :: pass.acts }

/-- Empties the two places of a shark that has run out of energy. -/
def starve (pass : Pass ρ) (origin : Location) (prey : Option Location)
    (destination : Location) : Pass ρ :=
  { pass with
    next := (pass.next.insert origin (.empty origin)).insert destination (.empty destination)
    acts := ⟨shark, origin, prey, destination, .starved⟩ :: pass.acts }

/-- The turn of a shark: it eats a neighbor if it can and else moves if it can. -/
def Rules.actShark (r : Rules) (g : Grid) (pass : Pass ρ) (c : Cell) : Pass ρ :=
  let origin := c.location
  let creature := r.creatureOf c
  let timer := creature.breedTimer + 1
  let (prey, source) := WordSource.pick (r.preyNeighbors g pass origin) pass.source
  match prey with
  | some target =>
    let energy := creature.energy + r.energyFromFish - 1
    let pass := { pass with
      eaten := pass.eaten.insert target, claimed := pass.claimed.insert target, source := source }
    if energy ≤ 0 then starve pass origin prey target
    else r.settle pass shark origin prey target ⟨energy, timer⟩
  | none =>
    let (free, source) := WordSource.pick (r.freeNeighbors g pass origin) source
    let target := free.getD origin
    let energy := creature.energy - 1
    let pass := { pass with claimed := pass.claimed.insert target, source := source }
    if energy ≤ 0 then starve pass origin none target
    else r.settle pass shark origin none target ⟨energy, timer⟩

/-- The turn of a fish: it moves if it can. -/
def Rules.actFish (r : Rules) (g : Grid) (pass : Pass ρ) (c : Cell) : Pass ρ :=
  let origin := c.location
  let creature := r.creatureOf c
  let (free, source) := WordSource.pick (r.freeNeighbors g pass origin) pass.source
  let target := free.getD origin
  r.settle { pass with claimed := pass.claimed.insert target, source := source } fish origin none
    target { creature with breedTimer := creature.breedTimer + 1 }

/-- The turn of a fish, unless it has been eaten. -/
def Rules.actFishAlive (r : Rules) (g : Grid) (pass : Pass ρ) (c : Cell) : Pass ρ :=
  if pass.eaten.contains c.location then pass else r.actFish g pass c

/-- The work of a tick before anybody has acted. -/
def Pass.start (g : Grid) (source : ρ) : Pass ρ := ⟨g.cells, ∅, ∅, [], source⟩

/-- The turns of all sharks. -/
def Rules.actSharks (r : Rules) (g : Grid) (pass : Pass ρ) : Pass ρ :=
  (g.cellList.filter fun c => c.state == shark).foldl (r.actShark g) pass

/-- The turns of all fish. -/
def Rules.actAllFish (r : Rules) (g : Grid) (pass : Pass ρ) : Pass ρ :=
  (g.cellList.filter fun c => c.state == fish).foldl (r.actFishAlive g) pass

/-- The turns of all creatures. -/
def Rules.pass (r : Rules) (g : Grid) (source : ρ) : Pass ρ :=
  r.actAllFish g (r.actSharks g (Pass.start g source))

/-- What is reported of a turn. -/
def Act.event? (act : Act) : Option Event :=
  if act.outcome = .starved then some (.sharkStarved act.origin) else none

/-- One tick. Only cells that have changed are updated. -/
def Rules.tick (r : Rules) (g : Grid) (source : ρ) : Tick ρ :=
  let pass := r.pass g source
  ⟨(pass.next.values.filter fun c => g.cellAt c.location != some c).map fun c =>
      CellUpdate.place c.location c,
    pass.source, (pass.acts.reverse.filterMap Act.event?).toArray⟩

end CellularAutomata.PredatorPrey

import CellularAutomata.Darwin.Execution

/-!
# Darwin worlds

Every individual runs the program of its species, one instruction in each tick. In a
tick the individuals act in row-major order; one that has been converted before its turn
has none.
-/

namespace CellularAutomata.Darwin

/-- The rules of one automaton. -/
structure Rules where
  /-- What all individuals share. -/
  settings : Settings
  /-- The programs of the species. -/
  species : Std.ExtTreeMap Nat Program
  /-- Decides the course of chance. -/
  seed : Int

/-- The programs that could fail. -/
def suspects (species : Std.ExtTreeMap Nat Program) : List Event :=
  species.toList.filterMap fun entry =>
    match entry.2.check with
    | .ok () => none
    | .error fault => some (.programSuspect entry.1 fault)

/-- Reads the rules. -/
def Rules.ofParameters (p : Parameters) (species : Std.ExtTreeMap Nat Program) :
    Except Fault Rules := do
  if species.contains emptyState then throw (.parameter "species" .reservedSpecies)
  let settings ← Settings.ofParameters p
  let seed ← Seed.ofParameters p
  return ⟨settings, species, seed⟩

/-- What is reported when the rules have been read. -/
def Rules.setupEvents (r : Rules) : List Event :=
  suspects r.species ++ [.darwinReady r.species.size r.settings]

/-- The parameters that the rules are read from. -/
def Rules.parameters (r : Rules) : Parameters :=
  Seed.describe r.seed (r.settings.describe Parameters.empty)

/-- One more than the greatest species. -/
def Rules.states (r : Rules) : Nat :=
  match r.species.maxKey? with
  | none => 1
  | some species => species + 1

/-- A new individual of a species. -/
def fresh (species : Std.ExtTreeMap Nat Program) (state : Nat) (orientation : Int) :
    Individual :=
  .start (species.getD state .empty) orientation

/-- The cell with which an automaton of this kind starts. -/
def Rules.start (r : Rules) (state : Nat) (l : Location) : Except Fault Cell :=
  if state = emptyState then .ok (.empty l)
  else if r.species.contains state then
    .ok (.ofIndividual state l (fresh r.species state r.settings.initialOrientation))
  else .error (.parameter "state" (.noProgram state))

variable {ρ : Type} [WordSource ρ]

/-- Counts down the infection of an actor. When it has run out, the actor starts anew as
an individual of its earlier species. -/
def advanceInfection (w : World) (a : Actor) (s : Stage ρ) : Actor × Stage ρ :=
  match a.individual.infection with
  | none => (a, s)
  | some infection =>
    if infection.countdown = 0 then
      let species := infection.previousSpecies
      ({ a with species, individual := fresh w.species species a.individual.orientation },
        s.log (.infectionWoreOff a.location species))
    else
      let infection := { infection with countdown := infection.countdown - 1 }
      ({ a with individual := { a.individual with infection := some infection } }, s)

/-- The actor of a cell. A cell without an individual gets a new one. -/
def actorOf (w : World) (c : Cell) : Actor :=
  ⟨c.state, c.location,
    c.individual?.getD (fresh w.species c.state w.settings.initialOrientation), none⟩

/-- The actor at the line where it continues in the next tick. -/
def Actor.advanced (a : Actor) : Individual :=
  { a.individual with
    programCounter := a.jump.getD (a.individual.program.next a.individual.programCounter) }

/-- Records where an actor from `origin` has ended its turn. -/
def conclude (origin : Location) (a : Actor) (s : Stage ρ) : Stage ρ :=
  let cell := Cell.ofIndividual a.species a.location a.advanced
  if a.location = origin then { s with decisions := s.decisions.occupy cell .stayed }
  else { s with decisions := (s.decisions.vacate origin).occupy cell .arrived }

/-- What the individual of a cell does in its turn: its infection goes on, then it runs
its instruction. -/
def act (w : World) (c : Cell) (s : Stage ρ) : Actor × Stage ρ :=
  let (a, s) := advanceInfection w (actorOf w c) s
  execute w a s

/-- Whether the individual of a cell gets a turn. Empty cells and those that have their
final occupant have none. -/
def hasTurn (s : Stage ρ) (c : Cell) : Bool :=
  !c.isEmpty && !s.decisions.isFinal c.location

/-- The turn of the individual of a cell, if it gets one. -/
def takeTurn (w : World) (s : Stage ρ) (c : Cell) : Stage ρ :=
  if hasTurn s c then
    let (a, s) := act w c s
    conclude c.location a s
  else s

/-- All turns of a tick. -/
def takeTurns (w : World) (source : ρ) : Stage ρ :=
  w.grid.cellList.foldl (takeTurn w) ⟨.none, source, #[]⟩

/-- One tick. -/
def Rules.tick (r : Rules) (g : Grid) (source : ρ) : Tick ρ :=
  let s := takeTurns ⟨r.settings, r.species, g⟩ source
  ⟨s.decisions.updates, s.source, s.events⟩

end CellularAutomata.Darwin

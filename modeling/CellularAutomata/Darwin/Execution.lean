import CellularAutomata.Darwin.Sight
import CellularAutomata.Tick

/-!
# Execution of instructions

What each instruction does to the actor, to the decisions of the tick and to the source
of random words. An execution also says what went wrong, if anything did; arguments are
checked before anything is changed.
-/

namespace CellularAutomata.Darwin

/-- What does not change during a tick. -/
structure World where
  /-- The settings. -/
  settings : Settings
  /-- The programs of the species. -/
  species : Std.ExtTreeMap Nat Program
  /-- The grid before the tick. -/
  grid : Grid

/-- What individuals change apart from themselves. -/
structure Stage (ρ : Type) where
  /-- What has been decided so far. -/
  decisions : Decisions
  /-- The source of random words. -/
  source : ρ
  /-- What has been reported so far. -/
  events : Array Event

/-- Reports an event. -/
def Stage.log {ρ : Type} (s : Stage ρ) (event : Event) : Stage ρ :=
  { s with events := s.events.push event }

/-- The state after an instruction. -/
structure Execution (ρ : Type) where
  /-- The actor. -/
  actor : Actor
  /-- Everything else that can have changed. -/
  stage : Stage ρ
  /-- Why the instruction was not carried out, if it was not. -/
  fault : Option InstructionFault

/-- Under which condition a jump takes place. -/
inductive Condition where
  /-- A position ahead is empty. -/
  | empty
  /-- There is a wall ahead. -/
  | wall
  /-- An individual of the same species is ahead. -/
  | same
  /-- An individual of another species is ahead. -/
  | enemy
  /-- A coin shows heads. -/
  | random
  deriving DecidableEq, Repr

/-- Whether a view fulfils a condition for an actor of the given species. -/
def Condition.accepts (species : Nat) : Condition → View → Bool
  | .empty, .empty => true
  | .wall, .wall => true
  | .same, .occupied cell => cell.state == species
  | .enemy, .occupied cell => cell.state != species
  | _, _ => false

variable {ρ : Type} [WordSource ρ]

/-- Moves the actor ahead. -/
def performMove (w : World) (i : Instruction) (a : Actor) (s : Stage ρ) : Execution ρ :=
  match i.count with
  | .error fault => ⟨a, s, some fault⟩
  | .ok count =>
    let heading := a.individual.heading
    let visited := (∅ : Std.ExtTreeSet Location).insert a.location
    ⟨{ a with location := walk w.grid s.decisions heading visited count a.location }, s, none⟩

/-- Turns the actor; `sign` is 1 for a turn counter-clockwise and -1 for one clockwise. -/
def performTurn (sign : Int) (w : World) (i : Instruction) (a : Actor) (s : Stage ρ) :
    Execution ρ :=
  match i.count with
  | .error fault => ⟨a, s, some fault⟩
  | .ok count =>
    let degrees := sign * ((count : Int) % 360) * w.settings.orientationStep
    ⟨{ a with individual := a.individual.turn (degrees % 360) }, s, none⟩

/-- Makes the actor jump. -/
def performGo (i : Instruction) (a : Actor) (s : Stage ρ) : Execution ρ :=
  match i.target a.individual.program.length with
  | .error fault => ⟨a, s, some fault⟩
  | .ok line => ⟨{ a with jump := some line }, s, none⟩

/-- The cell at a position if an actor of the given species can convert it: an individual
of another species that is not infected, has not moved and has not been converted. -/
def victim? (g : Grid) (d : Decisions) (species : Nat) (l : Location) : Option Cell :=
  if d.isVacated l then none
  else if (d.claim? l).any fun claim => claim.kind != .stayed then none
  else
    match d.current g l with
    | none => none
    | some cell =>
      if cell.isEmpty || cell.state == species ||
          cell.individual?.any Individual.isInfected then none
      else some cell

/-- What becomes of a victim. -/
def converted (w : World) (a : Actor) (victim : Cell) : Cell :=
  let program := w.species.getD a.species a.individual.program
  let orientation := (victim.individual?.map Individual.orientation).getD 0
  .ofIndividual a.species victim.location
    (.infected program orientation ⟨w.settings.infectionTime, victim.state⟩)

/-- Converts the first victim ahead. -/
def performInfect (w : World) (i : Instruction) (a : Actor) (s : Stage ρ) : Execution ρ :=
  match i.count with
  | .error fault => ⟨a, s, some fault⟩
  | .ok count =>
    let reach := min count (sightLimit w.grid)
    match firstAhead w.grid a (victim? w.grid s.decisions a.species) reach with
    | none => ⟨a, s, none⟩
    | some victim =>
      let s := s.log (.infected a.location victim.location a.species victim.state)
      ⟨a, { s with decisions := s.decisions.occupy (converted w a victim) .infected }, none⟩

/-- Makes the actor jump if a condition holds. -/
def performBranch (condition : Condition) (w : World) (i : Instruction) (a : Actor)
    (s : Stage ρ) : Execution ρ :=
  match i.target a.individual.program.length with
  | .error fault => ⟨a, s, some fault⟩
  | .ok line =>
    let (holds, source) :=
      match condition with
      | .random => WordSource.coin s.source
      | _ =>
        (meets w.grid s.decisions a (condition.accepts a.species) 1 w.settings.layers, s.source)
    ⟨if holds then { a with jump := some line } else a, { s with source := source }, none⟩

/-- Carries out an instruction. -/
def perform (w : World) (opcode : Opcode) (i : Instruction) (a : Actor) (s : Stage ρ) :
    Execution ρ :=
  match opcode with
  | .move => performMove w i a s
  | .left => performTurn 1 w i a s
  | .right => performTurn (-1) w i a s
  | .infect => performInfect w i a s
  | .go => performGo i a s
  | .ifEmpty => performBranch .empty w i a s
  | .ifWall => performBranch .wall w i a s
  | .ifSame => performBranch .same w i a s
  | .ifEnemy => performBranch .enemy w i a s
  | .ifRandom => performBranch .random w i a s

/-- Carries out the instruction at which the actor is. What goes wrong is reported. -/
def execute (w : World) (a : Actor) (s : Stage ρ) : Actor × Stage ρ :=
  match a.individual.program.instructions[a.individual.programCounter]? with
  | none => (a, s.log (.nothingToRun a.location a.species))
  | some i =>
    match i.opcode with
    | .error fault => (a, s.log (.instructionSkipped a.location fault))
    | .ok opcode =>
      let e := perform w opcode i a s
      match e.fault with
      | none => (e.actor, e.stage)
      | some fault =>
        (e.actor, e.stage.log (.instructionFailed e.actor.location e.actor.species i fault))

end CellularAutomata.Darwin

import CellularAutomata.Darwin.Rules
import CellularAutomata.Grid.Range

/-!
# The range of numbers

Coordinates and angles are signed 32-bit numbers, and lines are counted with 64 bits. A turn
that comes upon a number beyond its range cannot be completed, and then the whole run stops.
Here the numbers are listed that instructions come upon, in the order in which they do, and it
is decided for a tick whether all of them fit.
-/

namespace CellularAutomata.Darwin

/-- The numbers that a walk comes upon. -/
def walkNumbers (g : Grid) (d : Decisions) (heading : Int × Int)
    (visited : Std.ExtTreeSet Location) : Nat → Location → List Int
  | 0, _ => []
  | count + 1, l =>
    g.probeNumbers l heading 1 ++
      match g.resolve (l.step heading 1) with
      | none => []
      | some next =>
        if visited.contains next || d.isUnavailable next || g.stateAt next != some emptyState then
          []
        else walkNumbers g d heading (visited.insert next) count next

/-- The numbers that a search along a heading comes upon. It ends at the first answer. -/
def searchNumbers {α : Type} (g : Grid) (origin : Location) (heading : Int × Int)
    (test : Location → Option α) : Nat → Nat → List Int
  | _, 0 => []
  | start, count + 1 =>
    g.probeNumbers origin heading start ++
      match (g.resolve (origin.step heading start)).bind test with
      | some _ => []
      | none => searchNumbers g origin heading test (start + 1) count

/-- The numbers that looking for an accepted view comes upon. -/
def scanNumbers (g : Grid) (d : Decisions) (a : Actor) (accepts : View → Bool) :
    Nat → Nat → List Int
  | _, 0 => []
  | start, count + 1 =>
    let view := d.view g (a.ahead start)
    g.probeNumbers a.location a.individual.heading start ++
      if accepts view then []
      else if view = .wall then []
      else scanNumbers g d a accepts (start + 1) count

/-- The numbers that a turn comes upon. -/
def turnNumbers (sign : Int) (w : World) (a : Actor) (count : Nat) : List Int :=
  let amount := (count : Int) % 360
  let degrees := sign * amount * w.settings.orientationStep
  [amount, sign * amount, degrees, degrees % 360, a.individual.orientation + degrees % 360,
    (a.individual.orientation + degrees % 360) % 360]

/-- The numbers that an action comes upon, unless its count is faulty. -/
def countNumbers (i : Instruction) (action : Nat → List Int) : List Int :=
  match i.count with
  | .error _ => []
  | .ok count => count :: action count

/-- The numbers that looking ahead for a condition comes upon, unless the target is faulty. -/
def branchNumbers (condition : Condition) (w : World) (i : Instruction) (a : Actor)
    (d : Decisions) : List Int :=
  match i.target a.individual.program.length with
  | .error _ => []
  | .ok _ => scanNumbers w.grid d a (condition.accepts a.species) 1 w.settings.layers

/-- The numbers that carrying out an instruction comes upon. -/
def instructionNumbers (w : World) (opcode : Opcode) (i : Instruction) (a : Actor)
    (d : Decisions) : List Int :=
  match opcode with
  | .move =>
    countNumbers i fun count =>
      walkNumbers w.grid d a.individual.heading
        ((∅ : Std.ExtTreeSet Location).insert a.location) count a.location
  | .left => countNumbers i (turnNumbers 1 w a)
  | .right => countNumbers i (turnNumbers (-1) w a)
  | .infect =>
    countNumbers i
      (searchNumbers w.grid a.location a.individual.heading (victim? w.grid d a.species) 1)
  | .ifEmpty => branchNumbers .empty w i a d
  | .ifWall => branchNumbers .wall w i a d
  | .ifSame => branchNumbers .same w i a d
  | .ifEnemy => branchNumbers .enemy w i a d
  | .go | .ifRandom => []

/-- The numbers that an actor comes upon in its turn. -/
def Actor.numbers (w : World) (a : Actor) (d : Decisions) : List Int :=
  match a.individual.program.instructions[a.individual.programCounter]? with
  | none => []
  | some i =>
    match i.opcode with
    | .error _ => []
    | .ok opcode => instructionNumbers w opcode i a d

/-- Whether all numbers of a search fit. Nothing new is met beyond the sight limit, so there
the farthest location decides. -/
def searchFits {α : Type} (g : Grid) (origin : Location) (heading : Int × Int)
    (test : Location → Option α) (count : Nat) : Bool :=
  let near := min count (sightLimit g)
  (searchNumbers g origin heading test 1 near).all Numeral.fitsInt32 &&
    (near == count || (firstAlong g origin heading test 1 near).isSome ||
      (g.probeNumbers origin heading count).all Numeral.fitsInt32)

/-- Whether all numbers fit that carrying out an instruction comes upon. -/
def instructionFits (w : World) (opcode : Opcode) (i : Instruction) (a : Actor)
    (d : Decisions) : Bool :=
  match opcode with
  | .infect =>
    match i.count with
    | .error _ => true
    | .ok count =>
      searchFits w.grid a.location a.individual.heading (victim? w.grid d a.species) count
  | _ => (instructionNumbers w opcode i a d).all Numeral.fitsInt32

/-- Whether all numbers fit that an actor comes upon in its turn. One without an instruction goes on
to the next line, if that can be computed; after an instruction it always can be. -/
def Actor.fits (w : World) (a : Actor) (d : Decisions) : Bool :=
  match a.individual.program.instructions[a.individual.programCounter]? with
  | none => a.individual.program.nextFits a.individual.programCounter
  | some i =>
    match i.opcode with
    | .error _ => true
    | .ok opcode => instructionFits w opcode i a d

variable {ρ : Type}

/-- Whether all numbers fit that come up when a cell is called. -/
def turnFits (w : World) (s : Stage ρ) (c : Cell) : Bool :=
  !hasTurn s c || (advanceInfection w (actorOf w c) s).1.fits w s.decisions

/-- The turn of the individual of a cell, if it can be completed. -/
def takeTurn? [WordSource ρ] (w : World) (s : Stage ρ) (c : Cell) : Option (Stage ρ) :=
  if turnFits w s c then some (takeTurn w s c) else none

/-- A turn is completed exactly if its numbers fit. -/
theorem takeTurn?_eq_some_iff [WordSource ρ] {w : World} {s after : Stage ρ} {c : Cell} :
    takeTurn? w s c = some after ↔ turnFits w s c = true ∧ takeTurn w s c = after := by
  rw [takeTurn?, Option.ite_none_right_eq_some, Option.some.injEq]

/-- Whether all numbers fit that come up while cells are called. -/
def turnsFit [WordSource ρ] (w : World) : List Cell → Stage ρ → Bool
  | [], _ => true
  | c :: rest, s => turnFits w s c && turnsFit w rest (takeTurn w s c)

/-- Whether all numbers fit that come up in a tick. -/
def Rules.tickFits [WordSource ρ] (r : Rules) (g : Grid) (source : ρ) : Bool :=
  turnsFit ⟨r.settings, r.species, g⟩ g.cellList ⟨.none, source, #[]⟩

end CellularAutomata.Darwin

import CellularAutomata.Darwin.Decisions

/-!
# Looking and walking ahead

What an actor meets along its heading. A ray that leaves a fixed or mirroring grid for
good does so within twice the longer side, and on a toroidal grid it comes back to its
start after a number of steps that both sides divide; nothing new lies beyond that
distance, so looking further is looking that far.
-/

namespace CellularAutomata.Darwin

/-- The individual that acts. -/
structure Actor where
  /-- Its species, which is its state. -/
  species : Nat
  /-- Where it is. -/
  location : Location
  /-- Its execution state. -/
  individual : Individual
  /-- The line that it jumps to, if it does. -/
  jump : Option Nat
  deriving DecidableEq, Repr

/-- The location some steps ahead, which may be beyond the edge. -/
def Actor.ahead (a : Actor) (distance : Nat) : Location :=
  a.location.step a.individual.heading distance

/-- The distance beyond which a ray meets nothing new. -/
def sightLimit (g : Grid) : Nat :=
  match g.edge with
  | .toroidal => Int.lcm g.rows g.cols
  | _ => (2 * max g.rows g.cols).toNat

/-- The first answer of `test` along the positions that a heading leads to, from the
distance `start` on and for `count` steps. Steps beyond the edge are passed over. -/
def firstAlong {α : Type} (g : Grid) (origin : Location) (heading : Int × Int)
    (test : Location → Option α) : Nat → Nat → Option α
  | _, 0 => none
  | start, count + 1 =>
    match (g.resolve (origin.step heading start)).bind test with
    | some found => some found
    | none => firstAlong g origin heading test (start + 1) count

/-- The first answer of `test` along the positions ahead, for `count` steps. -/
def firstAhead {α : Type} (g : Grid) (a : Actor) (test : Location → Option α) (count : Nat) :
    Option α :=
  firstAlong g a.location a.individual.heading test 1 count

/-- Whether a view that `accepts` is met within `count` steps from the distance `start` on
and before a wall. A wall may itself be accepted. -/
def meets (g : Grid) (d : Decisions) (a : Actor) (accepts : View → Bool) : Nat → Nat → Bool
  | _, 0 => false
  | start, count + 1 =>
    let view := d.view g (a.ahead start)
    if accepts view then true
    else if view = .wall then false
    else meets g d a accepts (start + 1) count

/-- Where a walk of at most `count` steps ends. Only positions may be entered that were
empty before the tick, that nobody has entered or left during the tick, and that the walk
has not `visited`. -/
def walk (g : Grid) (d : Decisions) (heading : Int × Int) (visited : Std.ExtTreeSet Location) :
    Nat → Location → Location
  | 0, l => l
  | count + 1, l =>
    match g.resolve (l.step heading 1) with
    | none => l
    | some next =>
      if visited.contains next || d.isUnavailable next || g.stateAt next != some emptyState then l
      else walk g d heading (visited.insert next) count next

end CellularAutomata.Darwin

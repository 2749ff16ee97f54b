import CellularAutomata.Darwin.Range
import CellularAutomata.Kind
import CellularAutomata.Local.Dominance
import CellularAutomata.Local.Fire
import CellularAutomata.Local.Life
import CellularAutomata.Local.Percolation
import CellularAutomata.Motion.PredatorPrey.Range
import CellularAutomata.Motion.Sand
import CellularAutomata.Motion.Segregation

/-!
# Rulesets

The rules of any of the eight automata, with what they have in common: parameters from
which they are read and which describe them completely, a number of states, the cell with
which a state starts, the next state of a cell, and the tick.
-/

namespace CellularAutomata

/-- The rules of an automaton. -/
inductive Ruleset where
  /-- Rules of `Life`. -/
  | life (rules : Life.Rules)
  /-- Rules of `Percolation`. -/
  | percolation (rules : Percolation.Rules)
  /-- Rules of `Fire`. -/
  | fire (rules : Fire.Rules)
  /-- Rules of `Segregation`. -/
  | segregation (rules : Segregation.Rules)
  /-- Rules of `PredatorPrey`. -/
  | predatorPrey (rules : PredatorPrey.Rules)
  /-- Rules of `Sand`. -/
  | sand (rules : Sand.Rules)
  /-- Rules of `Dominance`. -/
  | dominance (rules : Dominance.Rules)
  /-- Rules of `Darwin`. -/
  | darwin (rules : Darwin.Rules)

namespace Ruleset

/-- The kind of automaton that the rules are for. -/
def kind : Ruleset → Kind
  | life _ => .life
  | percolation _ => .percolation
  | fire _ => .fire
  | segregation _ => .segregation
  | predatorPrey _ => .predatorPrey
  | sand _ => .sand
  | dominance _ => .dominance
  | darwin _ => .darwin

/-- The name of the automaton that the rules are for. -/
def name (r : Ruleset) : String := r.kind.name

/-- Reads the rules of an automaton. Only Darwin worlds have species. -/
def build (kind : Kind) (p : Parameters) (species : Std.ExtTreeMap Nat Program) :
    Except Fault Ruleset :=
  match kind with
  | .life => (Life.Rules.ofParameters p).map life
  | .percolation => (Percolation.Rules.ofParameters p).map percolation
  | .fire => (Fire.Rules.ofParameters p).map fire
  | .segregation => (Segregation.Rules.ofParameters p).map segregation
  | .predatorPrey => (PredatorPrey.Rules.ofParameters p).map predatorPrey
  | .sand => (Sand.Rules.ofParameters p).map sand
  | .dominance => (Dominance.Rules.ofParameters p).map dominance
  | .darwin => (Darwin.Rules.ofParameters p species).map darwin

/-- What is reported when the rules have been read. -/
def setupEvents : Ruleset → List Event
  | darwin rules => rules.setupEvents
  | _ => []

/-- The parameters that describe the rules, those with default values included. -/
def parameters : Ruleset → Parameters
  | life rules => rules.parameters
  | percolation rules => rules.parameters
  | fire rules => rules.parameters
  | segregation rules => rules.parameters
  | predatorPrey rules => rules.parameters
  | sand rules => rules.parameters
  | dominance rules => rules.parameters
  | darwin rules => rules.parameters

/-- How many states there are; a state is a smaller number. -/
def states : Ruleset → Nat
  | life _ => 2
  | percolation _ => 3
  | fire _ => 3
  | segregation rules => rules.agentTypes + 1
  | predatorPrey _ => 3
  | sand _ => 3
  | dominance rules => rules.states
  | darwin rules => rules.states

/-- The source of random words with which the rules start. Rules without chance never
draw from theirs. -/
def source : Ruleset → KeyStream
  | fire rules => Seed.source rules.seed
  | segregation rules => Seed.source rules.seed
  | predatorPrey rules => Seed.source rules.seed
  | sand rules => Seed.source rules.seed
  | darwin rules => Seed.source rules.seed
  | _ => Seed.source 0

/-- The cell that carries nothing but a state, if the rules have that state. -/
def startPlain (r : Ruleset) (state : Nat) (l : Location) : Except Fault Cell :=
  if r.states ≤ state then .error (.parameter "state" (.unknownState state r.name r.states))
  else .ok (.plain state l)

/-- The cell with which a state starts. -/
def start (r : Ruleset) (state : Nat) (l : Location) : Except Fault Cell :=
  match r with
  | predatorPrey rules => rules.start state l
  | darwin rules => rules.start state l
  | _ => r.startPlain state l

/-- The cell with which a state starts in an automaton of a kind, which has to be the kind
that the rules are for. -/
def startAs (r : Ruleset) (kind : Kind) (state : Nat) (l : Location) : Except Fault Cell :=
  if r.name = kind.name then r.start state l
  else .error (.world (.wrongRules r.name kind.name))

variable {ρ : Type} [WordSource ρ]

/-- The next state of one cell. Where cells do not change by themselves it is the state
they have. -/
def nextState (r : Ruleset) (g : Grid) (c : Cell) (source : ρ) : Nat × ρ :=
  match r with
  | life rules => (rules.nextState g c, source)
  | percolation rules => (rules.nextState g c, source)
  | fire rules => rules.nextState g c source
  | dominance rules => (rules.nextState g c, source)
  | segregation _ | predatorPrey _ | sand _ | darwin _ => (c.state, source)

/-- One tick, computed from the grid before it. -/
def tick (r : Ruleset) (g : Grid) (source : ρ) : Tick ρ :=
  match r with
  | segregation rules => rules.tick g source
  | predatorPrey rules => rules.tick g source
  | sand _ => Sand.tick g source
  | darwin rules => rules.tick g source
  | life _ | percolation _ | fire _ | dominance _ => Tick.cellwise (r.nextState g) g source

/-- The policy by which a cell looks for neighbors in a tick, if it does. Predators and prey and
individuals of a Darwin world are left out: what they look for depends on their turns. -/
def lookup? (r : Ruleset) (c : Cell) : Option NeighborPolicy :=
  match r with
  | life rules => some rules.policy
  | percolation rules =>
    if c.state = Percolation.opened ∧ c.location.row ≠ 0 then some rules.policy else none
  | fire rules => if c.state = Fire.tree then some rules.policy else none
  | segregation rules => if c.isEmpty then none else some rules.policy
  | dominance rules => some rules.policy
  | predatorPrey _ | sand _ | darwin _ => none

/-- Whether the neighbors of a cell can be found, if it looks for them. -/
def lookupFits (r : Ruleset) (g : Grid) (c : Cell) : Bool :=
  (r.lookup? c).all fun policy => (policy.neighborLocations? g c.location).isSome

/-- Whether all numbers fit that come up when a cell decides. -/
def cellFits (r : Ruleset) (g : Grid) (c : Cell) : Bool :=
  match r with
  | dominance _ => Dominance.successorFits c.state && r.lookupFits g c
  | _ => r.lookupFits g c

/-- Whether a tick can be completed, because all numbers fit that come up in it. -/
def completes (r : Ruleset) (g : Grid) (source : ρ) : Bool :=
  match r with
  | predatorPrey rules => rules.tickFits g source
  | darwin rules => rules.tickFits g source
  | _ => g.cellList.all (r.cellFits g)

end Ruleset

end CellularAutomata

import CellularAutomata.Ruleset
import CellularAutomata.Run.Configuration

/-!
# Simulations

A grid under the rules of an automaton, advanced tick by tick. What a tick comes to is
computed with whole numbers of any size; a run goes on only as long as its ticks can be
completed with the numbers that fit.
-/

namespace CellularAutomata

/-- A run in progress. -/
structure Simulation (ρ : Type) where
  /-- The cells. -/
  grid : Grid
  /-- The rules. -/
  rules : Ruleset
  /-- The source of random words. -/
  source : ρ
  /-- How many ticks have been completed. -/
  tick : Nat
  /-- After how many ticks the cells are counted, or zero for never. -/
  metricsInterval : Nat
  /-- How many updates have been carried out. -/
  updatesApplied : Nat

/-- The outcome of a run. -/
structure Summary where
  /-- The name of the automaton. -/
  automaton : String
  /-- How many ticks have been completed. -/
  ticks : Nat
  /-- How many updates have been carried out. -/
  updatesApplied : Nat
  /-- How many cells there are in each state. -/
  population : Std.ExtTreeMap Nat Nat

/-- A simulation that has been advanced by one tick. -/
structure Advance (ρ : Type) where
  /-- The simulation after the tick. -/
  simulation : Simulation ρ
  /-- How many updates were carried out. -/
  applied : Nat
  /-- What happened. -/
  events : Array Event

/-- A grid that has been advanced by one tick. -/
structure GridAdvance (ρ : Type) where
  /-- The grid after the tick. -/
  grid : Grid
  /-- The source of random words after the tick. -/
  source : ρ
  /-- How many updates were carried out. -/
  applied : Nat
  /-- What happened. -/
  events : Array Event

/-- Computes the updates of one tick from the grid and carries them all out. -/
def Ruleset.advance {ρ : Type} [WordSource ρ] (r : Ruleset) (g : Grid) (source : ρ) :
    GridAdvance ρ :=
  let tick := r.tick g source
  ⟨g.apply tick.updates, tick.source, tick.updates.length,
    tick.events ++ ((g.ignored tick.updates).map Event.updateIgnored).toArray⟩

/-- Computes the updates of one tick and carries them all out, if the tick can be completed. -/
def Ruleset.advance? {ρ : Type} [WordSource ρ] (r : Ruleset) (g : Grid) (source : ρ) :
    Option (GridAdvance ρ) :=
  if r.completes g source then some (r.advance g source) else none

/-- A grid is advanced exactly if the tick can be completed. -/
theorem Ruleset.advance?_eq_some_iff {ρ : Type} [WordSource ρ] {r : Ruleset} {g : Grid}
    {source : ρ} {after : GridAdvance ρ} : r.advance? g source = some after ↔
      r.completes g source = true ∧ r.advance g source = after := by
  rw [advance?, Option.ite_none_right_eq_some, Option.some.injEq]

namespace Simulation

/-- A simulation before its first tick. The cells are never counted on the way. -/
def new {ρ : Type} (grid : Grid) (rules : Ruleset) (source : ρ) : Simulation ρ :=
  ⟨grid, rules, source, 0, 0, 0⟩

/-- The parameters of a configuration with its seed, unless they have one. The seed is
taken as a signed 64-bit number. -/
def seededParameters (c : Configuration) : Parameters :=
  if c.parameters.contains "seed" then c.parameters
  else c.parameters.insert "seed" (.ofInt (Int.bmod c.seed (Nat.pow 2 64)))

/-- The programs of a configuration. -/
def programs (c : Configuration) : Std.ExtTreeMap Nat Program :=
  c.species.map fun _ text => Program.parse text

/-- Adds the initial cell of a position. -/
def placeInitial (c : Configuration) (kind : Kind) (rules : Ruleset) (g : Grid) (l : Location) :
    Except Fault Grid :=
  match rules.startAs kind (c.initialState l.row.toNat l.col.toNat) l with
  | .error fault => .error fault
  | .ok cell => .ok (g.add cell)

/-- The grid with its initial cells. -/
def populate (c : Configuration) (kind : Kind) (rules : Ruleset) : Except Fault Grid :=
  Grid.visitPositions (placeInitial c kind rules) c.rows c.cols (Grid.empty c.rows c.cols c.edge)

/-- Sets up the simulation that a configuration describes. -/
def ofConfiguration (c : Configuration) : Except Fault (Simulation KeyStream) := do
  c.validate
  let kind ← Kind.ofText c.automaton
  let rules ← Ruleset.build kind (seededParameters c) (programs c)
  let grid ← populate c kind rules
  return { new grid rules rules.source with metricsInterval := c.metricsInterval }

/-- What is reported when a simulation has been set up. -/
def setupEvents {ρ : Type} (s : Simulation ρ) : List Event :=
  s.rules.setupEvents ++ [.created s.rules.name s.grid.rows s.grid.cols s.grid.edge]

variable {ρ : Type} [WordSource ρ]

/-- The count of the cells, when it is due. -/
def metrics (s : Simulation ρ) : List Event :=
  if 0 < s.metricsInterval ∧ s.tick % s.metricsInterval = 0 then
    [.populationCounted s.tick s.grid.population.toList]
  else []

/-- Advances a simulation by one tick. -/
def step (s : Simulation ρ) : Advance ρ :=
  let advance := s.rules.advance s.grid s.source
  let after : Simulation ρ :=
    { s with
      grid := advance.grid
      source := advance.source
      tick := s.tick + 1
      updatesApplied := s.updatesApplied + advance.applied }
  ⟨after, advance.applied,
    (advance.events.push (.tickComplete after.tick advance.applied)) ++ after.metrics.toArray⟩

/-- Advances a simulation by one tick, if the tick can be completed. -/
def step? (s : Simulation ρ) : Option (Advance ρ) :=
  if s.rules.completes s.grid s.source then some s.step else none

/-- Advances a simulation by some ticks; `events` is what happened before. -/
def steps : Nat → Simulation ρ → Array Event → Simulation ρ × Array Event
  | 0, s, events => (s, events)
  | count + 1, s, events =>
    let advance := s.step
    steps count advance.simulation (events ++ advance.events)

/-- Advances a simulation by some ticks, if all of them can be completed. -/
def steps? : Nat → Simulation ρ → Array Event → Option (Simulation ρ × Array Event)
  | 0, s, events => some (s, events)
  | count + 1, s, events =>
    match s.step? with
    | none => none
    | some advance => steps? count advance.simulation (events ++ advance.events)

/-- The outcome so far. -/
def summary (s : Simulation ρ) : Summary :=
  ⟨s.rules.name, s.tick, s.updatesApplied, s.grid.population⟩

/-- Advances a simulation by some ticks and reports the run as a whole. -/
def run (count : Nat) (s : Simulation ρ) : Simulation ρ × Array Event :=
  let (s, events) := steps count s #[.runStarted count]
  (s, events.push (.runComplete s.tick s.updatesApplied))

/-- Advances a simulation by some ticks and reports the run as a whole, if all ticks can be
completed. -/
def run? (count : Nat) (s : Simulation ρ) : Option (Simulation ρ × Array Event) :=
  (steps? count s #[.runStarted count]).map fun (s, events) =>
    (s, events.push (.runComplete s.tick s.updatesApplied))

end Simulation

end CellularAutomata

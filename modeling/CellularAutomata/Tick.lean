import CellularAutomata.Event
import CellularAutomata.Grid
import CellularAutomata.Random.KeyStream

/-!
# Ticks

The outcome of one tick of an automaton, computed from the grid before the tick, and the
tick of automata that decide the next state of every cell by itself. Automata that use
chance take a seed.
-/

namespace CellularAutomata

/-- What one tick comes to. -/
structure Tick (ρ : Type) where
  /-- The cells that change, in the order in which they are replaced. -/
  updates : List CellUpdate
  /-- The source of random words after the tick. -/
  source : ρ
  /-- What happened, in order. -/
  events : Array Event

/-- Asks for the next state of each cell in turn and keeps everything else. -/
def Tick.replacing {ρ : Type} (nextState : Cell → ρ → Nat × ρ) :
    List Cell → ρ → List CellUpdate × ρ
  | [], source => ([], source)
  | c :: rest, source =>
    let (state, source) := nextState c source
    let (updates, source) := Tick.replacing nextState rest source
    (CellUpdate.place c.location (c.withState state) :: updates, source)

/-- The tick of an automaton that decides the next state of every cell by itself. -/
def Tick.cellwise {ρ : Type} (nextState : Cell → ρ → Nat × ρ) (g : Grid) (source : ρ) :
    Tick ρ :=
  let (updates, source) := Tick.replacing nextState g.cellList source
  ⟨updates, source, #[]⟩

namespace Seed

/-- Reads the seed, which is zero unless it is given. -/
def ofParameters (p : Parameters) : Except Fault Int :=
  p.integerWithin "seed" 0 Numeral.mostInt64 (some 0)

/-- Adds the parameter that the seed is read from. -/
def describe (seed : Int) (p : Parameters) : Parameters := p.insert "seed" (.ofInt seed)

/-- The keystream of a seed. -/
def source (seed : Int) : KeyStream := KeyStream.ofSeed (UInt64.ofNat seed.toNat)

end Seed

end CellularAutomata

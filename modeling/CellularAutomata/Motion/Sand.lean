import CellularAutomata.Tick

/-!
# Falling sand

Grains fall straight down, or else to a lower diagonal, into empty cells. The bottom row
settles first, so a column falls together; edges never wrap.
-/

namespace CellularAutomata.Sand

/-- The state of an empty cell. -/
def air : Nat := 0

/-- The state of a cell that nothing enters. -/
def wall : Nat := 1

/-- The state of a cell with a grain. -/
def grain : Nat := 2

/-- The rules of one automaton. -/
structure Rules where
  /-- Decides the course of chance. -/
  seed : Int
  deriving DecidableEq, Repr

/-- Reads the rules. -/
def Rules.ofParameters (p : Parameters) : Except Fault Rules := do
  let seed ← Seed.ofParameters p
  return ⟨seed⟩

/-- The parameters that the rules are read from. -/
def Rules.parameters (r : Rules) : Parameters := Seed.describe r.seed Parameters.empty

/-- The states while the grains settle. -/
structure Pass (ρ : Type) where
  /-- The state at every populated position. -/
  states : Std.ExtTreeMap Location Nat
  /-- The source of random words. -/
  source : ρ

variable {ρ : Type} [WordSource ρ]

/-- Whether a grain can enter a position. -/
def isFree (states : Std.ExtTreeMap Location Nat) (l : Location) : Bool :=
  states[l]? == some air

/-- Where a grain comes to rest. A coin is tossed only when both diagonals are free and
the cell below is not. -/
def destination (states : Std.ExtTreeMap Location Nat) (l : Location) (source : ρ) :
    Location × ρ :=
  if isFree states (l.offset 1 0) then (l.offset 1 0, source)
  else
    match isFree states (l.offset 1 (-1)), isFree states (l.offset 1 1) with
    | true, true =>
      let (heads, source) := WordSource.coin source
      (if heads then l.offset 1 (-1) else l.offset 1 1, source)
    | true, false => (l.offset 1 (-1), source)
    | false, true => (l.offset 1 1, source)
    | false, false => (l, source)

/-- Settles the grain at a position, if there is one. -/
def settle (pass : Pass ρ) (l : Location) : Pass ρ :=
  if pass.states[l]? = some grain then
    let (target, source) := destination pass.states l pass.source
    if target = l then { pass with source := source }
    else ⟨(pass.states.insert l air).insert target grain, source⟩
  else pass

/-- The populated positions row by row, the bottom row first. -/
def sweep (g : Grid) : List Location :=
  (g.locations.splitBy fun a b => a.row == b.row).reverse.flatten

/-- The states after all grains have settled. -/
def settleAll (g : Grid) (source : ρ) : Pass ρ :=
  (sweep g).foldl settle ⟨g.cells.map fun _ c => c.state, source⟩

/-- The update of a cell whose state has changed. -/
def change? (states : Std.ExtTreeMap Location Nat) (c : Cell) : Option CellUpdate :=
  match states[c.location]? with
  | none => none
  | some state =>
    if state = c.state then none else some (CellUpdate.place c.location (c.withState state))

/-- One tick. -/
def tick (g : Grid) (source : ρ) : Tick ρ :=
  let pass := settleAll g source
  ⟨g.cellList.filterMap (change? pass.states), pass.source, #[]⟩

end CellularAutomata.Sand

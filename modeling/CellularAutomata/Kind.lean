import CellularAutomata.Fault

/-!
# Kinds of automata

The eight automata by name.
-/

namespace CellularAutomata

/-- A kind of automaton. -/
inductive Kind where
  /-- Cells that live or die with the number of living neighbors. -/
  | life
  /-- A fluid that spreads from the top row. -/
  | percolation
  /-- A fire that spreads from tree to tree. -/
  | fire
  /-- Agents that move away from neighbors of other types. -/
  | segregation
  /-- Sharks that hunt fish. -/
  | predatorPrey
  /-- Grains that fall. -/
  | sand
  /-- States that beat each other in a circle. -/
  | dominance
  /-- Individuals that run programs. -/
  | darwin
  deriving DecidableEq, Repr

namespace Kind

/-- The name under which a kind is written. -/
def name : Kind → String
  | life => "life"
  | percolation => "percolation"
  | fire => "fire"
  | segregation => "segregation"
  | predatorPrey => "wator"
  | sand => "sand"
  | dominance => "rps"
  | darwin => "darwin"

/-- A name without what does not count in it: letter case, blanks, dashes and underscores. -/
def key (text : String) : String :=
  String.ofList ((text.toList.filter fun c => c != ' ' && c != '-' && c != '_').map Char.toLower)

/-- Reads a kind from one of its names. -/
def ofText (text : String) : Except Fault Kind :=
  match key text with
  | "life" | "gameoflife" | "conway" => .ok life
  | "percolation" => .ok percolation
  | "fire" | "spreadingoffire" => .ok fire
  | "segregation" | "schelling" => .ok segregation
  | "wator" | "predatorprey" => .ok predatorPrey
  | "sand" | "fallingsand" => .ok sand
  | "rps" | "rockpaperscissors" => .ok dominance
  | "darwin" => .ok darwin
  | _ => .error (.unknownAutomaton text)

end Kind

end CellularAutomata

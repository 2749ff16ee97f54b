import CellularAutomata.Json.CellForm
import CellularAutomata.Run.Simulation

/-!
# The JSON form of runs

Configurations and summaries with their parts, written and read. A configuration may
leave out anything; what is left out has its default.
-/

namespace CellularAutomata.Json

/-- The value of an edge. -/
def ofEdge (e : Edge) : Value := .ofText e.name

/-- Reads an edge. -/
def edge? (v : Value) : Option Edge := do
  let name ← unitVariant? v
  [Edge.fixed, .toroidal, .mirror].find? fun e => e.name == name

/-- The value of a topology. -/
def ofTopology (t : Topology) : Value := .ofText t.name

/-- Reads a topology. -/
def topology? (v : Value) : Option Topology := do
  let name ← unitVariant? v
  [Topology.square4, .square8, .hex, .triangle].find? fun t => t.name == name

/-- The name of an opcode. -/
def opcodeName : Opcode → String
  | .move => "Move"
  | .left => "Left"
  | .right => "Right"
  | .infect => "Infect"
  | .go => "Go"
  | .ifEmpty => "IfEmpty"
  | .ifWall => "IfWall"
  | .ifSame => "IfSame"
  | .ifEnemy => "IfEnemy"
  | .ifRandom => "IfRandom"

/-- The value of an opcode. -/
def ofOpcode (o : Opcode) : Value := .ofText (opcodeName o)

/-- Reads an opcode. -/
def opcode? (v : Value) : Option Opcode := do
  let name ← unitVariant? v
  Opcode.all.find? fun o => opcodeName o == name

/-- The value of a neighborhood policy. -/
def ofPolicy (n : NeighborPolicy) : Value :=
  .ofMembers [("topology", ofTopology n.topology), ("layers", .ofInt n.layers),
    ("truncate_layer_at_edge", .bool n.truncates)]

/-- Reads a neighborhood policy. -/
def policy? (v : Value) : Option NeighborPolicy := do
  let [some topology, some layers, some truncates] ←
    fields? ["topology", "layers", "truncate_layer_at_edge"] v | none
  return ⟨← topology? topology, ← layers.naturalBelow? 32, ← truncates.bool?⟩

/-- The value of a parameter. -/
def ofParameterValue : ParameterValue → Value
  | .number n => ofBinary64 n
  | .text s => .ofText s

/-- Reads the value of a parameter, which is a number or a text. -/
def parameterValue? : Value → Option ParameterValue
  | .number numeral => (binary64? numeral).map .number
  | .string items => (decode items).map fun cs => .text (String.ofList cs)
  | _ => none

/-- The value of parameters. -/
def ofParameters (p : Parameters) : Value :=
  .ofMembers (p.toList.map fun entry => (entry.1, ofParameterValue entry.2))

/-- Reads parameters. -/
def parameters? (v : Value) : Option Parameters := do
  let entries ← entries? v
  let entries ← entries.mapM fun entry => (parameterValue? entry.2).map fun v => (entry.1, v)
  return Parameters.ofList entries

/-- The map of a list of entries; of two entries for one key the later counts. -/
def mapOf {α : Type} (entries : List (Nat × α)) : Std.ExtTreeMap Nat α :=
  entries.foldl (fun m entry => m.insert entry.1 entry.2) ∅

/-- Reads a map whose keys are natural numbers. -/
def naturalMap? {α : Type} (read : Value → Option α) (v : Value) :
    Option (Std.ExtTreeMap Nat α) := do
  let entries ← naturalEntries? v
  let entries ← entries.mapM fun entry => (read entry.2).map fun a => (entry.1, a)
  return mapOf entries

/-- The names of the fields of a configuration. -/
def configurationFields : List String :=
  ["simulation", "rows", "cols", "edge", "num_ticks", "seed", "metrics_interval", "parameters",
    "states", "species"]

/-- The value of a configuration. -/
def ofConfiguration (c : Configuration) : Value :=
  .ofMembers [("simulation", .ofText c.automaton), ("rows", .ofInt c.rows),
    ("cols", .ofInt c.cols), ("edge", ofEdge c.edge), ("num_ticks", .ofInt c.ticks),
    ("seed", .ofInt c.seed), ("metrics_interval", .ofInt c.metricsInterval),
    ("parameters", ofParameters c.parameters),
    ("states", .array (c.states.map fun row => .array (row.map fun (n : Nat) => .ofInt n))),
    ("species", ofNaturalEntries (c.species.toList.map fun entry => (entry.1, .ofText entry.2)))]

/-- Reads a field that may be left out. -/
def fieldOr {α : Type} (default : α) (read : Value → Option α) : Option Value → Option α
  | none => some default
  | some v => read v

/-- Reads a configuration. -/
def configuration? (v : Value) : Option Configuration := do
  let [automaton, rows, cols, edge, ticks, seed, interval, parameters, states, species] ←
    leadingFields? configurationFields v | none
  let d := Configuration.default
  return ⟨← fieldOr d.automaton Value.text? automaton, ← fieldOr d.rows Value.int32? rows,
    ← fieldOr d.cols Value.int32? cols, ← fieldOr d.edge edge? edge,
    ← fieldOr d.ticks (Value.naturalBelow? 64) ticks,
    ← fieldOr d.seed (Value.naturalBelow? 64) seed,
    ← fieldOr d.metricsInterval (Value.naturalBelow? 64) interval,
    ← fieldOr d.parameters parameters? parameters,
    ← fieldOr d.states (list? (list? (Value.naturalBelow? 32))) states,
    ← fieldOr d.species (naturalMap? Value.text?) species⟩

/-- The value of counts by state. -/
def ofPopulation (population : Std.ExtTreeMap Nat Nat) : Value :=
  ofNaturalEntries (population.toList.map fun entry => (entry.1, .ofInt entry.2))

/-- The value of a summary. -/
def ofSummary (s : Summary) : Value :=
  .ofMembers [("simulation", .ofText s.automaton), ("total_ticks", .ofInt s.ticks),
    ("updates_applied", .ofInt s.updatesApplied), ("population", ofPopulation s.population)]

/-- Reads a summary. -/
def summary? (v : Value) : Option Summary := do
  let [some automaton, some ticks, some updates, some population] ←
    fields? ["simulation", "total_ticks", "updates_applied", "population"] v | none
  return ⟨← automaton.text?, ← ticks.naturalBelow? 64, ← updates.naturalBelow? 64,
    ← naturalMap? (Value.naturalBelow? 64) population⟩

end CellularAutomata.Json

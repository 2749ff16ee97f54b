import CellularAutomata.Cell
import CellularAutomata.Json.Record

/-!
# The JSON form of cells

Cells and everything that they carry, written and read.
-/

namespace CellularAutomata.Json

/-- The value of a location. -/
def ofLocation (l : Location) : Value := .ofMembers [("row", .ofInt l.row), ("col", .ofInt l.col)]

/-- Reads a location. -/
def location? (v : Value) : Option Location := do
  let [some row, some col] ← fields? ["row", "col"] v | none
  return ⟨← row.int32?, ← col.int32?⟩

/-- The value of a creature. -/
def ofCreature (c : Creature) : Value :=
  .ofMembers [("energy", .ofInt c.energy), ("breed_timer", .ofInt c.breedTimer)]

/-- Reads a creature. -/
def creature? (v : Value) : Option Creature := do
  let [some energy, some breedTimer] ← fields? ["energy", "breed_timer"] v | none
  return ⟨← energy.int32?, ← breedTimer.naturalBelow? 32⟩

/-- The value of an infection. -/
def ofInfection (i : Infection) : Value :=
  .ofMembers [("countdown", .ofInt i.countdown), ("previous_species", .ofInt i.previousSpecies)]

/-- Reads an infection. -/
def infection? (v : Value) : Option Infection := do
  let [some countdown, some previous] ← fields? ["countdown", "previous_species"] v | none
  return ⟨← countdown.naturalBelow? 32, ← previous.naturalBelow? 32⟩

/-- The value of something that may be absent. -/
def ofOption {α : Type} (write : α → Value) : Option α → Value
  | none => .null
  | some a => write a

/-- Reads something that may be absent; `null` and a field that is left out mean absence. -/
def option? {α : Type} (read : Value → Option α) : Option Value → Option (Option α)
  | none => some none
  | some .null => some none
  | some v => (read v).map some

/-- The value of an instruction. -/
def ofInstruction (i : Instruction) : Value :=
  .ofMembers [("mnemonic", .ofText i.mnemonic), ("arguments", .array (i.arguments.map .ofText))]

/-- Reads an instruction. -/
def instruction? (v : Value) : Option Instruction := do
  let [some mnemonic, some arguments] ← fields? ["mnemonic", "arguments"] v | none
  return ⟨← mnemonic.text?, ← list? Value.text? arguments⟩

/-- The value of a program. -/
def ofProgram (p : Program) : Value :=
  .ofMembers [("instructions", .array (p.instructions.map ofInstruction))]

/-- Reads a program. -/
def program? (v : Value) : Option Program := do
  let [some instructions] ← fields? ["instructions"] v | none
  return ⟨← list? instruction? instructions⟩

/-- The value of an individual. -/
def ofIndividual (i : Individual) : Value :=
  .ofMembers [("orientation", .ofInt i.orientation), ("program_counter", .ofInt i.programCounter),
    ("infection", ofOption ofInfection i.infection), ("program", ofProgram i.program)]

/-- Reads an individual. -/
def individual? (v : Value) : Option Individual := do
  let [some orientation, some counter, infection, some program] ←
    fields? ["orientation", "program_counter", "infection", "program"] v | none
  return ⟨← orientation.int32?, ← counter.naturalBelow? 64, ← option? infection? infection,
    ← program? program⟩

/-- The value of what a cell carries. -/
def ofAttributes : Attributes → Value
  | .plain => .ofText "Plain"
  | .creature creature => .ofMembers [("Creature", ofCreature creature)]
  | .individual individual => .ofMembers [("Individual", ofIndividual individual)]

/-- Reads what a cell carries. -/
def attributes? (v : Value) : Option Attributes :=
  match variant? v with
  | some ("Plain", none) => some .plain
  | some ("Plain", some .null) => some .plain
  | some ("Creature", some v) => (creature? v).map .creature
  | some ("Individual", some v) => (individual? v).map .individual
  | _ => none

/-- The value of a cell. -/
def ofCell (c : Cell) : Value :=
  .ofMembers [("state", .ofInt c.state), ("location", ofLocation c.location),
    ("attributes", ofAttributes c.attributes)]

/-- Reads a cell. -/
def cell? (v : Value) : Option Cell := do
  let [some state, some location, some attributes] ←
    fields? ["state", "location", "attributes"] v | none
  return ⟨← state.naturalBelow? 32, ← location? location, ← attributes? attributes⟩

end CellularAutomata.Json

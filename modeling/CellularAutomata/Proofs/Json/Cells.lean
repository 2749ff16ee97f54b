import CellularAutomata.Proofs.Json.Records

/-!
# Trees of cells

The tree of a cell conveys the cell, whatever it carries, as long as its numbers are of the
sizes that a cell has room for; programs have no numbers, and their words may be any texts.
-/

namespace CellularAutomata

open Numeral Json

/-- Both coordinates are signed 32-bit numbers. -/
structure Location.Fits (l : Location) : Prop where
  /-- The row is a signed 32-bit number. -/
  row : leastInt32 ≤ l.row ∧ l.row ≤ mostInt32
  /-- The column is a signed 32-bit number. -/
  col : leastInt32 ≤ l.col ∧ l.col ≤ mostInt32

/-- Both counters of a creature have 32 bits, and the energy has a sign. -/
structure Creature.Fits (c : Creature) : Prop where
  /-- The energy is a signed 32-bit number. -/
  energy : leastInt32 ≤ c.energy ∧ c.energy ≤ mostInt32
  /-- The timer has 32 bits. -/
  breedTimer : c.breedTimer < 2 ^ 32

/-- Both numbers of an infection have 32 bits. -/
structure Infection.Fits (i : Infection) : Prop where
  /-- The countdown has 32 bits. -/
  countdown : i.countdown < 2 ^ 32
  /-- The species has 32 bits. -/
  previousSpecies : i.previousSpecies < 2 ^ 32

/-- The orientation of an individual is a signed 32-bit number, its counter has 64 bits, and so
on for its infection. -/
structure Individual.Fits (i : Individual) : Prop where
  /-- The orientation is a signed 32-bit number. -/
  orientation : leastInt32 ≤ i.orientation ∧ i.orientation ≤ mostInt32
  /-- The program counter has 64 bits. -/
  programCounter : i.programCounter < 2 ^ 64
  /-- The numbers of an infection have 32 bits. -/
  infection : ∀ infection ∈ i.infection, infection.Fits

/-- The numbers of what a cell carries have their sizes. -/
def Attributes.Fits : Attributes → Prop
  | .plain => True
  | .creature c => c.Fits
  | .individual i => i.Fits

/-- The numbers of a cell have their sizes. -/
structure Cell.Fits (c : Cell) : Prop where
  /-- The state has 32 bits. -/
  state : c.state < 2 ^ 32
  /-- The coordinates are signed 32-bit numbers. -/
  location : c.location.Fits
  /-- The numbers of what the cell carries have their sizes. -/
  attributes : c.attributes.Fits

namespace Json

/-- A location is conveyed. -/
theorem conveys_location {l : Location} (h : l.Fits) : Conveys location? (ofLocation l) l := by
  have hrow := conveys_int32 h.row
  have hcol := conveys_int32 h.col
  constructor
  · exact writable_ofMembers (by simp [hrow.writable, hcol.writable])
  · rw [location?, ofLocation, fields?_ofMembers (by rfl) (by decide)]
    simp [hrow.read_eq, hcol.read_eq]

/-- A creature is conveyed. -/
theorem conveys_creature {c : Creature} (h : c.Fits) : Conveys creature? (ofCreature c) c := by
  have henergy := conveys_int32 h.energy
  have htimer := conveys_natural h.breedTimer (by decide)
  constructor
  · exact writable_ofMembers (by simp [henergy.writable, htimer.writable])
  · rw [creature?, ofCreature, fields?_ofMembers (by rfl) (by decide)]
    simp [henergy.read_eq, htimer.read_eq]

/-- An infection is conveyed. -/
theorem conveys_infection {i : Infection} (h : i.Fits) :
    Conveys infection? (ofInfection i) i := by
  have hcountdown := conveys_natural h.countdown (by decide)
  have hprevious := conveys_natural h.previousSpecies (by decide)
  constructor
  · exact writable_ofMembers (by simp [hcountdown.writable, hprevious.writable])
  · rw [infection?, ofInfection, fields?_ofMembers (by rfl) (by decide)]
    simp [hcountdown.read_eq, hprevious.read_eq]

/-- An instruction is conveyed, whatever its words are. -/
theorem conveys_instruction (i : Instruction) : Conveys instruction? (ofInstruction i) i := by
  have hmnemonic := conveys_text i.mnemonic
  have harguments : Conveys (list? Value.text?) (.array (i.arguments.map .ofText)) i.arguments :=
    conveys_list fun a _ => conveys_text a
  constructor
  · exact writable_ofMembers (by simp [hmnemonic.writable, harguments.writable])
  · rw [instruction?, ofInstruction, fields?_ofMembers (by rfl) (by decide)]
    simp [hmnemonic.read_eq, harguments.read_eq]

/-- A program is conveyed, whatever its words are. -/
theorem conveys_program (p : Program) : Conveys program? (ofProgram p) p := by
  have hinstructions :
      Conveys (list? instruction?) (.array (p.instructions.map ofInstruction)) p.instructions :=
    conveys_list fun i _ => conveys_instruction i
  constructor
  · exact writable_ofMembers (by simp [hinstructions.writable])
  · rw [program?, ofProgram, fields?_ofMembers (by rfl) (by decide)]
    simp [hinstructions.read_eq]

/-- An individual is conveyed, infected or not. -/
theorem conveys_individual {i : Individual} (h : i.Fits) :
    Conveys individual? (ofIndividual i) i := by
  have horientation := conveys_int32 h.orientation
  have hcounter := conveys_natural h.programCounter (by decide)
  have hinfection : Conveys (fun v => option? infection? (some v))
      (ofOption ofInfection i.infection) i.infection :=
    conveys_option (fun _ => nofun) fun infection hmem =>
      conveys_infection (h.infection infection hmem)
  have hprogram := conveys_program i.program
  constructor
  · exact writable_ofMembers (by simp [horientation.writable, hcounter.writable,
      hinfection.writable, hprogram.writable])
  · rw [individual?, ofIndividual, fields?_ofMembers (by rfl) (by decide)]
    simp [horientation.read_eq, hcounter.read_eq, hinfection.read_eq, hprogram.read_eq]

/-- What a cell carries is conveyed. -/
theorem conveys_attributes {a : Attributes} (h : a.Fits) :
    Conveys attributes? (ofAttributes a) a := by
  cases a with
  | plain =>
    constructor
    · exact (conveys_text "Plain").writable
    · rw [attributes?, ofAttributes, variant?_ofText]
      rfl
  | creature c =>
    have hc := conveys_creature h
    constructor
    · exact writable_ofMembers (by simp [hc.writable])
    · rw [attributes?, ofAttributes, variant?_ofMembers]
      simp [hc.read_eq]
  | individual i =>
    have hi := conveys_individual h
    constructor
    · exact writable_ofMembers (by simp [hi.writable])
    · rw [attributes?, ofAttributes, variant?_ofMembers]
      simp [hi.read_eq]

/-- A cell is conveyed. -/
theorem conveys_cell {c : Cell} (h : c.Fits) : Conveys cell? (ofCell c) c := by
  have hstate := conveys_natural h.state (by decide)
  have hlocation := conveys_location h.location
  have hattributes := conveys_attributes h.attributes
  constructor
  · exact writable_ofMembers (by simp [hstate.writable, hlocation.writable,
      hattributes.writable])
  · rw [cell?, ofCell, fields?_ofMembers (by rfl) (by decide)]
    simp [hstate.read_eq, hlocation.read_eq, hattributes.read_eq]

end Json

end CellularAutomata

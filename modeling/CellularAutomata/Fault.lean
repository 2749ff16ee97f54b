import CellularAutomata.Location
import CellularAutomata.Numeral.Shortest
import CellularAutomata.Species.Program

/-!
# Faults

Everything that can be wrong with the description of a world or with a request to one.
A fault is a cause; `Fault.message` is the only place where faults are put into words.
-/

namespace CellularAutomata

/-- What can be wrong with a named parameter. -/
inductive ParameterFault where
  /-- A required parameter is absent. -/
  | missing
  /-- The value is not a finite number. -/
  | notANumber (value : String)
  /-- The value lies outside the allowed range. -/
  | outside (value least most : Binary64)
  /-- The value has a fractional part. -/
  | notWhole (value : Binary64)
  /-- There is no edge of this name. -/
  | unknownEdge (name : String)
  /-- There is no topology of this name. -/
  | unknownNeighborhood (name : String)
  /-- A section of a birth and survival rule has no known letter. -/
  | unknownSection (part : String)
  /-- A birth and survival rule has two sections with one letter. -/
  | repeatedSection (rule : String)
  /-- A birth and survival rule lists something other than a digit from 0 to 8. -/
  | notANeighborCount (character : Char) (rule : String)
  /-- A birth and survival rule lacks a section. -/
  | missingSection (rule : String)
  /-- A program is given for the state of empty cells. -/
  | reservedSpecies
  /-- The rules have `states` states and the given one is not among them. -/
  | unknownState (state : Nat) (rules : String) (states : Nat)
  /-- There is no program for the state. -/
  | noProgram (state : Nat)
  deriving DecidableEq, Repr

/-- What can be wrong with the description of a world. -/
inductive WorldFault where
  /-- One of the dimensions is not positive. -/
  | badDimensions (rows cols : Int)
  /-- There are more rows of states than rows. -/
  | tooManyRows (given : Nat) (rows : Int)
  /-- A row of states has more entries than there are columns. -/
  | tooManyStates (index given : Nat) (cols : Int)
  /-- The rules of one automaton are used for another one. -/
  | wrongRules (rules kind : String)
  deriving DecidableEq, Repr

/-- Everything that can be wrong. -/
inductive Fault where
  /-- A text is not the written form of a value. -/
  | unreadable
  /-- A parameter is wrong. -/
  | parameter (name : String) (reason : ParameterFault)
  /-- A location is not on a `rows` by `cols` grid. -/
  | outOfBounds (location : Location) (rows cols : Int)
  /-- An instruction is wrong. -/
  | instruction (reason : InstructionFault)
  /-- A program could fail. -/
  | program (reason : ProgramFault)
  /-- There is no automaton of this name. -/
  | unknownAutomaton (name : String)
  /-- The description of a world is wrong. -/
  | world (reason : WorldFault)
  deriving DecidableEq, Repr

/-- A faulty parameter in words. -/
def ParameterFault.message : ParameterFault → String
  | missing => "missing required parameter"
  | notANumber value => "'" ++ value ++ "' is not a number"
  | outside value least most =>
    Numeral.shown value ++ " is outside the allowed range [" ++
      Numeral.shown least ++ ", " ++ Numeral.shown most ++ "]"
  | notWhole value => Numeral.shown value ++ " is not a whole number"
  | unknownEdge name => "unknown edge strategy '" ++ name ++ "'"
  | unknownNeighborhood name => "unknown neighborhood '" ++ name ++ "'"
  | unknownSection part => "'" ++ part ++ "' must start with B or S"
  | repeatedSection rule => "'" ++ rule ++ "' repeats a section"
  | notANeighborCount character rule =>
    "'" ++ String.singleton character ++ "' is not a neighbor count in '" ++ rule ++ "'"
  | missingSection rule => "'" ++ rule ++ "' needs both a B and an S section"
  | reservedSpecies => "state 0 is reserved for empty cells"
  | unknownState state rules states =>
    Numeral.natural state ++ " is not a valid " ++ rules ++ " state (expected 0.." ++
      Numeral.natural states ++ ")"
  | noProgram state => "no species program for state " ++ Numeral.natural state

/-- A faulty description in words. -/
def WorldFault.message : WorldFault → String
  | badDimensions rows cols =>
    "grid dimensions must be positive, got " ++ Numeral.integer rows ++ "x" ++
      Numeral.integer cols
  | tooManyRows given rows =>
    Numeral.natural given ++ " state rows given for a grid with " ++ Numeral.integer rows ++
      " rows"
  | tooManyStates index given cols =>
    "state row " ++ Numeral.natural index ++ " has " ++ Numeral.natural given ++
      " entries for a grid with " ++ Numeral.integer cols ++ " columns"
  | wrongRules rules kind =>
    rules ++ " rules cannot place cells for a " ++ kind ++ " simulation"

/-- A fault in words. -/
def Fault.message : Fault → String
  | unreadable => "Serialization error"
  | parameter name reason => "Invalid parameter '" ++ name ++ "': " ++ reason.message
  | outOfBounds location rows cols =>
    "Location " ++ location.text ++ " is outside a " ++ Numeral.integer rows ++ "x" ++
      Numeral.integer cols ++ " grid"
  | instruction reason => reason.message
  | program reason => "Validation error: " ++ reason.message
  | unknownAutomaton name => "Unknown simulation type: " ++ name
  | world reason => "Validation error: " ++ reason.message

end CellularAutomata

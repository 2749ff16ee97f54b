import CellularAutomata.Fault
import CellularAutomata.Numeral.Scientific
import CellularAutomata.Text.Blank

/-!
# Parameters

Named settings of an automaton. A value is a number or a text, and a text that spells a
number may stand wherever a number is asked for. The readers check what they read, so
that an automaton only ever sees settings in range.
-/

namespace CellularAutomata

/-- The value of a parameter. -/
inductive ParameterValue where
  /-- A number. -/
  | number (value : Binary64)
  /-- A text, which may spell a number. -/
  | text (value : String)
  deriving DecidableEq, Repr

namespace ParameterValue

/-- The value as it is shown. -/
def shown : ParameterValue → String
  | number value => Numeral.shown value
  | text value => value

/-- The number that is given or spelled, white space around it aside. -/
def number? : ParameterValue → Option Binary64
  | number value => some value
  | text value => Numeral.binary64? (Text.trim value.toList)

/-- The value that stands for an integer: the nearest number. -/
def ofInt (n : Int) : ParameterValue := number (Binary64.ofInt n)

end ParameterValue

/-- Values by name. -/
structure Parameters where
  /-- The values, ordered by name. -/
  values : Std.ExtTreeMap String ParameterValue

namespace Parameters

/-- No parameters. -/
def empty : Parameters := ⟨∅⟩

/-- The value of a name. -/
def get? (p : Parameters) (name : String) : Option ParameterValue := p.values[name]?

/-- Whether a name has a value. -/
def contains (p : Parameters) (name : String) : Bool := (p.get? name).isSome

/-- Gives a name a value in place of any earlier one. -/
def insert (p : Parameters) (name : String) (value : ParameterValue) : Parameters :=
  ⟨p.values.insert name value⟩

/-- The parameters of a list; of two values for one name the later counts. -/
def ofList (entries : List (String × ParameterValue)) : Parameters :=
  entries.foldl (fun p entry => p.insert entry.1 entry.2) empty

/-- The names with their values, ordered by name. -/
def toList (p : Parameters) : List (String × ParameterValue) := p.values.toList

/-- How many names have a value. -/
def size (p : Parameters) : Nat := p.values.size

/-- A required finite number. -/
def number (p : Parameters) (name : String) : Except Fault Binary64 :=
  match p.get? name with
  | none => .error (.parameter name .missing)
  | some value =>
    match value.number?.filter Binary64.isFinite with
    | some n => .ok n
    | none => .error (.parameter name (.notANumber value.shown))

/-- A number, required unless there is a default. -/
def numberOr (p : Parameters) (name : String) (default : Option Binary64) :
    Except Fault Binary64 :=
  match default with
  | none => p.number name
  | some n => if p.contains name then p.number name else .ok n

/-- A number that is neither smaller than `least` nor greater than `most`. -/
def numberWithin (p : Parameters) (name : String) (least most : Binary64)
    (default : Option Binary64) : Except Fault Binary64 :=
  match p.numberOr name default with
  | .error fault => .error fault
  | .ok value =>
    if value.less least || most.less value then
      .error (.parameter name (.outside value least most))
    else .ok value

/-- A whole number from `least` to `most`. The bounds and the default take part as the
nearest double-precision numbers; the result is a signed 64-bit number. -/
def integerWithin (p : Parameters) (name : String) (least most : Int) (default : Option Int) :
    Except Fault Int :=
  match p.numberWithin name (.ofInt least) (.ofInt most) (default.map .ofInt) with
  | .error fault => .error fault
  | .ok value =>
    if value.isWhole then .ok (value.truncated Numeral.leastInt64 Numeral.mostInt64)
    else .error (.parameter name (.notWhole value))

/-- A number from zero to one. -/
def probability (p : Parameters) (name : String) (default : Option Binary64) :
    Except Fault Binary64 :=
  p.numberWithin name Binary64.zero (.ofInt 1) default

/-- A value as text, or the default when the name has none. -/
def textOr (p : Parameters) (name default : String) : String :=
  match p.get? name with
  | some value => value.shown
  | none => default

end Parameters

end CellularAutomata

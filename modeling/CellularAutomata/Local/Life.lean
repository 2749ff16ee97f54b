import Std.Data.ExtTreeSet
import CellularAutomata.Neighborhood.Policy
import CellularAutomata.Tick

/-!
# Life

Automata with dead and living cells in which the number of living neighbors decides. The
rule lists the numbers at which a cell is born and at which it survives, as in `B3/S23`.
-/

namespace CellularAutomata.Life

/-- The state of a dead cell. -/
def dead : Nat := 0

/-- The state of a living cell. -/
def alive : Nat := 1

/-- The numbers of living neighbors that matter. -/
structure Rule where
  /-- A dead cell with so many living neighbors is born. -/
  birth : Std.ExtTreeSet Nat
  /-- A living cell with so many living neighbors survives. -/
  survive : Std.ExtTreeSet Nat

/-- The sections of a rule that have been read so far. -/
structure Sections where
  /-- The section with the letter B. -/
  birth : Option (Std.ExtTreeSet Nat)
  /-- The section with the letter S. -/
  survive : Option (Std.ExtTreeSet Nat)

/-- A fault of the parameter that holds the rule. -/
def ruleFault (reason : ParameterFault) : Fault := .parameter "rule" reason

/-- Reads the digits of a section. -/
def readCounts (rule : String) : List Char → Except Fault (Std.ExtTreeSet Nat)
  | [] => .ok ∅
  | c :: rest =>
    if c.isDigit && decide (Numeral.digitValue c ≤ 8) then
      (readCounts rule rest).map fun counts => counts.insert (Numeral.digitValue c)
    else .error (ruleFault (.notANeighborCount c rule))

/-- Reads one section after the ones before it. -/
def readSection (rule : String) (sections : Sections) (part : List Char) :
    Except Fault Sections :=
  let part := Text.trim part
  match part with
  | [] => .error (ruleFault (.unknownSection ""))
  | c :: counts =>
    if c.toUpper = 'B' then
      if sections.birth.isSome then .error (ruleFault (.repeatedSection rule))
      else (readCounts rule counts).map fun counts => { sections with birth := some counts }
    else if c.toUpper = 'S' then
      if sections.survive.isSome then .error (ruleFault (.repeatedSection rule))
      else (readCounts rule counts).map fun counts => { sections with survive := some counts }
    else .error (ruleFault (.unknownSection (String.ofList part)))

/-- Reads one section after the other. -/
def readSections (rule : String) : Sections → List (List Char) → Except Fault Sections
  | sections, [] => .ok sections
  | sections, part :: rest =>
    match readSection rule sections part with
    | .error fault => .error fault
    | .ok sections => readSections rule sections rest

/-- Reads a rule: a section with the letter B and one with the letter S in either order,
with a slash between them. -/
def Rule.parse (rule : String) : Except Fault Rule :=
  match readSections rule ⟨none, none⟩ (Text.pieces (· == '/') (Text.trim rule.toList)) with
  | .error fault => .error fault
  | .ok ⟨some birth, some survive⟩ => .ok ⟨birth, survive⟩
  | .ok _ => .error (ruleFault (.missingSection rule))

/-- The rules of one automaton. -/
structure Rules where
  /-- The rule as it is shown. -/
  text : String
  /-- The numbers of living neighbors that matter. -/
  rule : Rule
  /-- Which cells are neighbors. -/
  policy : NeighborPolicy

/-- The rule that is used unless another one is given. -/
def defaultRule : String := "B3/S23"

/-- Reads the rules. -/
def Rules.ofParameters (p : Parameters) : Except Fault Rules := do
  let text := p.textOr "rule" defaultRule
  let rule ← Rule.parse text
  let policy ← NeighborPolicy.ofParameters p .square8
  return ⟨Text.upper text, rule, policy⟩

/-- The best-known automaton of this kind. -/
def Rules.conway : Rules :=
  ⟨defaultRule, ⟨Std.ExtTreeSet.ofList [3], Std.ExtTreeSet.ofList [2, 3]⟩, ⟨.square8, 1, false⟩⟩

/-- The parameters that the rules are read from. -/
def Rules.parameters (r : Rules) : Parameters :=
  r.policy.describe (Parameters.empty.insert "rule" (.text r.text))

/-- The next state of a cell. -/
def Rules.nextState (r : Rules) (g : Grid) (c : Cell) : Nat :=
  let living := r.policy.countInState g c.location alive
  if c.state = dead ∧ r.rule.birth.contains living then alive
  else if c.state = alive ∧ !r.rule.survive.contains living then dead
  else c.state

end CellularAutomata.Life

import CellularAutomata.Numeral.Decimal
import CellularAutomata.Species.Opcode

/-!
# Instructions

One line of a species program: a word for the operation and argument words. Both are
kept as they were written and interpreted only when they are needed, so a program with
faulty lines can still be stored and written back.
-/

namespace CellularAutomata

/-- A word for the operation followed by argument words. -/
structure Instruction where
  /-- The word for the operation. -/
  mnemonic : String
  /-- The argument words. -/
  arguments : List String
  deriving DecidableEq, Repr

/-- What can be wrong with an instruction. -/
inductive InstructionFault where
  /-- The word for the operation is not a mnemonic. -/
  | unknownOpcode (mnemonic : String)
  /-- There is no argument with this index. -/
  | missingArgument (instruction : Instruction) (index : Nat)
  /-- An argument is not a signed 32-bit number. -/
  | badArgument (instruction : Instruction) (argument : String)
  /-- The count of an action is negative. -/
  | negativeCount (instruction : Instruction)
  /-- The jump target is not a line of the program, which has `length` lines. -/
  | jumpOutside (instruction : Instruction) (length : Nat)
  deriving DecidableEq, Repr

namespace Instruction

/-- The instruction on one line. -/
def text (i : Instruction) : String := Text.joined " " (i.mnemonic :: i.arguments)

/-- Reads one line. Blank lines and lines that start with `#` hold no instruction. -/
def ofLine? (line : List Char) : Option Instruction :=
  match Text.words line with
  | [] => none
  | word :: rest =>
    if word.head? = some '#' then none
    else some ⟨String.ofList word, rest.map String.ofList⟩

/-- An instruction with one number as its argument. -/
def withArgument (opcode : Opcode) (argument : Int) : Instruction :=
  ⟨opcode.mnemonic, [Numeral.integer argument]⟩

/-- The opcode of an instruction. -/
def opcode (i : Instruction) : Except InstructionFault Opcode :=
  match Opcode.ofMnemonic? i.mnemonic with
  | some opcode => .ok opcode
  | none => .error (.unknownOpcode i.mnemonic)

/-- The number in the argument with the given index. -/
def argument (i : Instruction) (index : Nat) : Except InstructionFault Int :=
  match i.arguments[index]? with
  | none => .error (.missingArgument i index)
  | some word =>
    match Numeral.integerWithin? Numeral.leastInt32 Numeral.mostInt32 word.toList with
    | some n => .ok n
    | none => .error (.badArgument i word)

/-- The number in the argument with the given index, or `default` if there are too few
arguments. -/
def argumentOr (i : Instruction) (index : Nat) (default : Int) : Except InstructionFault Int :=
  if index < i.arguments.length then i.argument index else .ok default

/-- The count of an action: the first argument, or one, and never negative. -/
def count (i : Instruction) : Except InstructionFault Nat :=
  match i.argumentOr 0 1 with
  | .error fault => .error fault
  | .ok n => if n < 0 then .error (.negativeCount i) else .ok n.toNat

/-- The line that a jump of a program with `length` lines leads to. Lines are counted
from one in program text and from zero here. -/
def target (i : Instruction) (length : Nat) : Except InstructionFault Nat :=
  match i.argument 0 with
  | .error fault => .error fault
  | .ok n =>
    if n < 1 ∨ (length : Int) < n then .error (.jumpOutside i length) else .ok (n - 1).toNat

end Instruction

/-- The message of a faulty instruction. -/
def InstructionFault.message : InstructionFault → String
  | unknownOpcode mnemonic => "Unknown opcode: " ++ mnemonic
  | missingArgument i index =>
    "Invalid instruction argument: '" ++ i.text ++ "' is missing argument " ++
      Numeral.natural (index + 1)
  | badArgument i argument =>
    "Invalid instruction argument: '" ++ i.text ++ "' has non-numeric argument '" ++
      argument ++ "'"
  | negativeCount i =>
    "Invalid instruction argument: '" ++ i.text ++ "' needs a non-negative count"
  | jumpOutside i length =>
    "Invalid instruction argument: '" ++ i.text ++ "' jumps outside 1..=" ++
      Numeral.natural length

end CellularAutomata

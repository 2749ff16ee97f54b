import CellularAutomata.Species.Instruction

/-!
# Species programs

A program is a list of instructions, written one to a line. `check` finds the first
instruction that could fail when it is executed.
-/

namespace CellularAutomata

/-- The instructions of a species. -/
structure Program where
  /-- In the order in which they are executed. -/
  instructions : List Instruction
  deriving DecidableEq, Repr

/-- Why a program could fail when it is executed. Instructions are numbered from one. -/
inductive ProgramFault where
  /-- There is no instruction at all. -/
  | empty
  /-- An instruction cannot be interpreted. -/
  | broken (number : Nat) (cause : InstructionFault)
  /-- A jump leads outside the program. -/
  | jumpOutside (number : Nat) (target : Int) (length : Nat)
  /-- The count of an action is negative. -/
  | negativeArgument (number : Nat)
  deriving DecidableEq, Repr

namespace Program

/-- The program without instructions. -/
def empty : Program := ⟨[]⟩

/-- How many instructions there are. -/
def length (p : Program) : Nat := p.instructions.length

/-- Reads the instructions off the lines of a text. A carriage return at the end of a
line is white space like any other. -/
def parse (text : String) : Program :=
  ⟨(Text.pieces (· == '\n') text.toList).filterMap Instruction.ofLine?⟩

/-- The program with an instruction added at its end. -/
def add (p : Program) (i : Instruction) : Program := ⟨p.instructions ++ [i]⟩

/-- The text of a list of instructions, one to a line. -/
def textOf : List Instruction → String
  | [] => ""
  | i :: rest => i.text ++ "\n" ++ textOf rest

/-- The text of a program, one line for each instruction. -/
def text (p : Program) : String := textOf p.instructions

/-- The line after the given one; the first line follows the last. -/
def next (p : Program) (index : Nat) : Nat :=
  if p.length = 0 then 0 else (index + 1) % p.length

/-- Whether the next line can be computed with unsigned 64-bit numbers. After a line of the program
it always can be. -/
def nextFits (p : Program) (index : Nat) : Bool :=
  p.length == 0 || decide (index < p.length) || decide (index + 1 < Nat.pow 2 64)

/-- The next line can be computed if there are no lines, after a line, and unless the given number
is the greatest one. -/
theorem nextFits_iff {p : Program} {index : Nat} :
    p.nextFits index = true ↔ p.length = 0 ∨ index < p.length ∨ index + 1 < Nat.pow 2 64 := by
  simp only [nextFits, Bool.or_eq_true, beq_iff_eq, decide_eq_true_eq, or_assoc]

/-- The first argument of an instruction that is not a number. -/
def firstBadArgument (i : Instruction) : Except InstructionFault Unit :=
  (List.range i.arguments.length).forM fun index => (i.argument index).map fun _ => ()

/-- Checks the instruction with the given number in a program with `length` lines. -/
def checkInstruction (length number : Nat) (i : Instruction) : Except ProgramFault Unit := do
  let opcode ← i.opcode.mapError (.broken number)
  (firstBadArgument i).mapError (.broken number)
  if opcode.isControlFlow then
    let target ← (i.argument 0).mapError (.broken number)
    if target < 1 ∨ (length : Int) < target then throw (.jumpOutside number target length)
  else
    let count ← (i.argumentOr 0 1).mapError (.broken number)
    if count < 0 then throw (.negativeArgument number)

/-- Checks instructions of which the first has the given number. -/
def checkFrom (length : Nat) : Nat → List Instruction → Except ProgramFault Unit
  | _, [] => .ok ()
  | number, i :: rest => do
    checkInstruction length number i
    checkFrom length (number + 1) rest

/-- Accepts the programs that cannot fail when they are executed. -/
def check (p : Program) : Except ProgramFault Unit :=
  if p.length = 0 then .error .empty else checkFrom p.length 1 p.instructions

end Program

/-- The message of a program that could fail. -/
def ProgramFault.message : ProgramFault → String
  | empty => "Program has no instructions"
  | broken number cause => "Instruction " ++ Numeral.natural number ++ ": " ++ cause.message
  | jumpOutside number target length =>
    "Instruction " ++ Numeral.natural number ++ ": jump target " ++ Numeral.integer target ++
      " outside 1..=" ++ Numeral.natural length
  | negativeArgument number => "Instruction " ++ Numeral.natural number ++ ": negative argument"

end CellularAutomata

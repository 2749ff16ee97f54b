import CellularAutomata.Text.Blank

/-!
# Opcodes

The ten operations of the language in which species are programmed.
-/

namespace CellularAutomata

/-- An operation of a species program. -/
inductive Opcode where
  /-- Walk ahead over free cells. -/
  | move
  /-- Turn counter-clockwise. -/
  | left
  /-- Turn clockwise. -/
  | right
  /-- Convert the first individual of another species ahead. -/
  | infect
  /-- Jump always. -/
  | go
  /-- Jump if a position ahead is empty. -/
  | ifEmpty
  /-- Jump if there is a wall ahead. -/
  | ifWall
  /-- Jump if an individual of the same species is ahead. -/
  | ifSame
  /-- Jump if an individual of another species is ahead. -/
  | ifEnemy
  /-- Jump with probability one half. -/
  | ifRandom
  deriving DecidableEq, Repr

namespace Opcode

/-- All opcodes. -/
def all : List Opcode :=
  [move, left, right, infect, go, ifEmpty, ifWall, ifSame, ifEnemy, ifRandom]

/-- The word that stands for an opcode in program text. -/
def mnemonic : Opcode → String
  | move => "MOVE"
  | left => "LEFT"
  | right => "RIGHT"
  | infect => "INFECT"
  | go => "GO"
  | ifEmpty => "IFEMPTY"
  | ifWall => "IFWALL"
  | ifSame => "IFSAME"
  | ifEnemy => "IFENEMY"
  | ifRandom => "IFRANDOM"

/-- Whether an opcode jumps under a condition. -/
def isConditional : Opcode → Bool
  | ifEmpty | ifWall | ifSame | ifEnemy | ifRandom => true
  | _ => false

/-- Whether an opcode takes a jump target. -/
def isControlFlow (opcode : Opcode) : Bool := opcode == go || opcode.isConditional

/-- Reads an opcode from its mnemonic in any letter case, white space around it aside. -/
def ofMnemonic? (text : String) : Option Opcode :=
  let word := Text.upper (String.ofList (Text.trim text.toList))
  all.find? fun opcode => opcode.mnemonic == word

end Opcode

end CellularAutomata

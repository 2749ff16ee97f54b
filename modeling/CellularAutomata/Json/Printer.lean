import CellularAutomata.Json.Syntax

/-!
# Writing JSON

A tree as a text: compact, without any space, or set out with one member to a line.
-/

namespace CellularAutomata.Json

/-- A hexadecimal digit in lower case. -/
def hexDigit (n : Nat) : Char := if n < 10 then Char.ofNat (48 + n) else Char.ofNat (87 + n)

/-- The escape of a code unit, the short one if there is one. -/
def escape (unit : Nat) : List Char :=
  match unit with
  | 0x22 => ['\\', '"']
  | 0x5C => ['\\', '\\']
  | 0x08 => ['\\', 'b']
  | 0x0C => ['\\', 'f']
  | 0x0A => ['\\', 'n']
  | 0x0D => ['\\', 'r']
  | 0x09 => ['\\', 't']
  | _ =>
    ['\\', 'u', hexDigit (unit / 4096 % 16), hexDigit (unit / 256 % 16),
      hexDigit (unit / 16 % 16), hexDigit (unit % 16)]

/-- The characters of one item of a string literal. -/
def StringItem.chars : StringItem → List Char
  | plain c => [c]
  | escaped unit => escape unit

/-- A string literal. -/
def literal (items : List StringItem) : List Char :=
  '"' :: (items.flatMap StringItem.chars ++ ['"'])

mutual

/-- The compact text of a value. -/
def Value.chars : Value → List Char
  | .null => ['n', 'u', 'l', 'l']
  | .bool true => ['t', 'r', 'u', 'e']
  | .bool false => ['f', 'a', 'l', 's', 'e']
  | .number numeral => numeral.chars
  | .string items => literal items
  | .array elements => '[' :: elementChars elements
  | .object members => '{' :: memberChars members

/-- The elements of an array and its closing bracket. -/
def elementChars : List Value → List Char
  | [] => [']']
  | [v] => v.chars ++ [']']
  | v :: rest => v.chars ++ ',' :: elementChars rest

/-- The members of an object and its closing brace. -/
def memberChars : List (List StringItem × Value) → List Char
  | [] => ['}']
  | [(key, v)] => literal key ++ ':' :: (v.chars ++ ['}'])
  | (key, v) :: rest => literal key ++ ':' :: (v.chars ++ ',' :: memberChars rest)

end

/-- The compact text of a value. -/
def Value.compact (v : Value) : String := String.ofList v.chars

/-- A line break and the indentation of a depth, two blanks for each level. -/
def lineBreak (depth : Nat) : List Char := '\n' :: List.replicate (2 * depth) ' '

mutual

/-- The text of a value with one element or member to a line. -/
def Value.indented (depth : Nat) : Value → List Char
  | .array (v :: rest) =>
    '[' :: (lineBreak (depth + 1) ++ Value.indented (depth + 1) v ++
      indentedElements (depth + 1) rest ++ lineBreak depth ++ [']'])
  | .object ((key, v) :: rest) =>
    '{' :: (lineBreak (depth + 1) ++ literal key ++ ':' :: ' ' :: (Value.indented (depth + 1) v ++
      indentedMembers (depth + 1) rest ++ lineBreak depth ++ ['}']))
  | .null => Value.chars .null
  | .bool b => Value.chars (.bool b)
  | .number numeral => Value.chars (.number numeral)
  | .string items => Value.chars (.string items)
  | .array [] => Value.chars (.array [])
  | .object [] => Value.chars (.object [])

/-- Elements after the first one, on lines of their own. -/
def indentedElements (depth : Nat) : List Value → List Char
  | [] => []
  | v :: rest =>
    ',' :: (lineBreak depth ++ Value.indented depth v ++ indentedElements depth rest)

/-- Members after the first one, on lines of their own. -/
def indentedMembers (depth : Nat) : List (List StringItem × Value) → List Char
  | [] => []
  | (key, v) :: rest =>
    ',' :: (lineBreak depth ++ literal key ++ ':' :: ' ' :: (Value.indented depth v ++
      indentedMembers depth rest))

end

/-- The text of a value with one element or member to a line. -/
def Value.pretty (v : Value) : String := String.ofList (Value.indented 0 v)

end CellularAutomata.Json

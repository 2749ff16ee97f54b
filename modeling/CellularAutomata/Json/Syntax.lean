import CellularAutomata.Numeral.Written

/-!
# JSON syntax trees

A JSON text as a tree that keeps what matters for reading it later: numbers stay
numerals, and a string stays a row of plain and escaped characters, so that a string
which is never looked at may hold escapes that stand for no character.
-/

namespace CellularAutomata.Json

/-- A character of a string literal. -/
inductive StringItem where
  /-- A character that stands for itself. -/
  | plain (c : Char)
  /-- An escape, which stands for a UTF-16 code unit. -/
  | escaped (unit : Nat)
  deriving DecidableEq, Repr

/-- A JSON text. -/
inductive Value where
  /-- The literal `null`. -/
  | null
  /-- The literals `true` and `false`. -/
  | bool (value : Bool)
  /-- A number. -/
  | number (numeral : Numeral.Written)
  /-- A string. -/
  | string (items : List StringItem)
  /-- An array. -/
  | array (elements : List Value)
  /-- An object, with its members as they are written. -/
  | object (members : List (List StringItem × Value))

/-- Whether a code unit is the first half of a pair. -/
def isHighSurrogate (unit : Nat) : Bool := decide (0xD800 ≤ unit) && decide (unit < 0xDC00)

/-- Whether a code unit is the second half of a pair. -/
def isLowSurrogate (unit : Nat) : Bool := decide (0xDC00 ≤ unit) && decide (unit < 0xE000)

/-- The characters of a string literal. Half a surrogate pair stands for no character. -/
def decode : List StringItem → Option (List Char)
  | [] => some []
  | .plain c :: rest => (decode rest).map (c :: ·)
  | .escaped high :: .escaped low :: rest =>
    if isHighSurrogate high then
      if isLowSurrogate low then
        (decode rest).map
          (Char.ofNat (0x10000 + (high - 0xD800) * 0x400 + (low - 0xDC00)) :: ·)
      else none
    else if isLowSurrogate high then none
    else (decode (.escaped low :: rest)).map (Char.ofNat high :: ·)
  | .escaped unit :: rest =>
    if isHighSurrogate unit || isLowSurrogate unit then none
    else (decode rest).map (Char.ofNat unit :: ·)

/-- The item that a character is written as: quotes, backslashes and the control
characters below the blank are escaped. -/
def itemOf (c : Char) : StringItem :=
  if c = '"' ∨ c = '\\' ∨ c.toNat < 0x20 then .escaped c.toNat else .plain c

/-- The string literal of a text. -/
def encode (cs : List Char) : List StringItem := cs.map itemOf

namespace Value

/-- The value of a text. -/
def ofText (text : String) : Value := .string (encode text.toList)

/-- The value of an integer. -/
def ofInt (n : Int) : Value := .number (.ofInt n)

/-- The value of an object with the given members. -/
def ofMembers (members : List (String × Value)) : Value :=
  .object (members.map fun member => (encode member.1.toList, member.2))

/-- The text of a string. -/
def text? : Value → Option String
  | .string items => (decode items).map String.ofList
  | _ => none

end Value

end CellularAutomata.Json

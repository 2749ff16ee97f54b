import CellularAutomata.Json.Syntax

/-!
# Reading JSON

The grammar of JSON texts as functions from characters to a tree and the characters left
over. Every value takes at least one character and every nesting two steps, so a text is
read within twice as many steps as it has characters.
-/

namespace CellularAutomata.Json

/-- The characters that may stand between tokens. -/
def isSpace (c : Char) : Bool := c == ' ' || c == '\n' || c == '\t' || c == '\r'

/-- Leaves out the space at the beginning. -/
def skip (cs : List Char) : List Char := cs.dropWhile isSpace

/-- The value of a hexadecimal digit. -/
def hexValue? (c : Char) : Option Nat :=
  if c.isDigit then some (c.toNat - '0'.toNat)
  else if 'a' ≤ c ∧ c ≤ 'f' then some (c.toNat - 'a'.toNat + 10)
  else if 'A' ≤ c ∧ c ≤ 'F' then some (c.toNat - 'A'.toNat + 10)
  else none

/-- The code unit of four hexadecimal digits. -/
def unit? (a b c d : Char) : Option Nat := do
  let a ← hexValue? a
  let b ← hexValue? b
  let c ← hexValue? c
  let d ← hexValue? d
  return ((a * 16 + b) * 16 + c) * 16 + d

/-- The code unit of a short escape. -/
def shortEscape? (c : Char) : Option Nat :=
  match c with
  | '"' => some 0x22
  | '\\' => some 0x5C
  | '/' => some 0x2F
  | 'b' => some 0x08
  | 'f' => some 0x0C
  | 'n' => some 0x0A
  | 'r' => some 0x0D
  | 't' => some 0x09
  | _ => none

/-- Reads a string literal after its opening quote, up to and with the closing one. -/
def stringItems : List Char → Option (List StringItem × List Char)
  | [] => none
  | '"' :: rest => some ([], rest)
  | '\\' :: 'u' :: a :: b :: c :: d :: rest =>
    match unit? a b c d with
    | none => none
    | some unit => (stringItems rest).map fun (items, rest) => (.escaped unit :: items, rest)
  | '\\' :: c :: rest =>
    match shortEscape? c with
    | none => none
    | some unit => (stringItems rest).map fun (items, rest) => (.escaped unit :: items, rest)
  | c :: rest =>
    if c = '\\' ∨ c.toNat < 0x20 then none
    else (stringItems rest).map fun (items, rest) => (.plain c :: items, rest)

/-- Reads the digits before the point: a zero, or digits that do not start with one. -/
def wholePart : List Char → Option (List Char × List Char)
  | '0' :: rest => some (['0'], rest)
  | cs =>
    let digits := cs.takeWhile Char.isDigit
    if digits.isEmpty then none else some (digits, cs.dropWhile Char.isDigit)

/-- Reads the point and the digits after it, if there is a point. -/
def fractionPart : List Char → Option (List Char × List Char)
  | '.' :: rest =>
    let digits := rest.takeWhile Char.isDigit
    if digits.isEmpty then none else some (digits, rest.dropWhile Char.isDigit)
  | cs => some ([], cs)

/-- Reads the digits of an exponent. -/
def exponentDigits (negative : Bool) (cs : List Char) :
    Option (Option (Bool × List Char) × List Char) :=
  let digits := cs.takeWhile Char.isDigit
  if digits.isEmpty then none else some (some (negative, digits), cs.dropWhile Char.isDigit)

/-- Reads an exponent, if there is one. -/
def exponentPart : List Char → Option (Option (Bool × List Char) × List Char)
  | c :: rest =>
    if c = 'e' ∨ c = 'E' then
      match rest with
      | '-' :: rest => exponentDigits true rest
      | '+' :: rest => exponentDigits false rest
      | rest => exponentDigits false rest
    else some (none, c :: rest)
  | [] => some (none, [])

/-- Reads a number without its sign. -/
def unsigned (negative : Bool) (cs : List Char) : Option (Value × List Char) := do
  let (whole, rest) ← wholePart cs
  let (fraction, rest) ← fractionPart rest
  let (exponent, rest) ← exponentPart rest
  return (.number ⟨negative, whole, fraction, exponent⟩, rest)

/-- Reads a number. -/
def number : List Char → Option (Value × List Char)
  | '-' :: rest => unsigned true rest
  | cs => unsigned false cs

mutual

/-- Reads a value after any space, in at most `steps` steps. -/
def value : Nat → List Char → Option (Value × List Char)
  | 0, _ => none
  | steps + 1, cs =>
    match skip cs with
    | '"' :: rest => (stringItems rest).map fun (items, rest) => (.string items, rest)
    | '[' :: rest =>
      match skip rest with
      | ']' :: rest => some (.array [], rest)
      | rest => (elements steps rest).map fun (values, rest) => (.array values, rest)
    | '{' :: rest =>
      match skip rest with
      | '}' :: rest => some (.object [], rest)
      | rest => (members steps rest).map fun (found, rest) => (.object found, rest)
    | 'n' :: 'u' :: 'l' :: 'l' :: rest => some (.null, rest)
    | 't' :: 'r' :: 'u' :: 'e' :: rest => some (.bool true, rest)
    | 'f' :: 'a' :: 'l' :: 's' :: 'e' :: rest => some (.bool false, rest)
    | rest => number rest

/-- Reads the elements of an array and its closing bracket. -/
def elements : Nat → List Char → Option (List Value × List Char)
  | 0, _ => none
  | steps + 1, cs =>
    match value steps cs with
    | none => none
    | some (first, rest) =>
      match skip rest with
      | ']' :: rest => some ([first], rest)
      | ',' :: rest => (elements steps rest).map fun (others, rest) => (first :: others, rest)
      | _ => none

/-- Reads the members of an object and its closing brace. -/
def members : Nat → List Char → Option (List (List StringItem × Value) × List Char)
  | 0, _ => none
  | steps + 1, cs =>
    match skip cs with
    | '"' :: rest =>
      match stringItems rest with
      | none => none
      | some (key, rest) =>
        match skip rest with
        | ':' :: rest =>
          match value steps rest with
          | none => none
          | some (first, rest) =>
            match skip rest with
            | '}' :: rest => some ([(key, first)], rest)
            | ',' :: rest =>
              (members steps rest).map fun (others, rest) => ((key, first) :: others, rest)
            | _ => none
        | _ => none
    | _ => none

end

/-- Reads a text that consists of one value. -/
def parseChars (cs : List Char) : Option Value :=
  match value (2 * cs.length + 2) cs with
  | some (v, rest) => if (skip rest).isEmpty then some v else none
  | none => none

/-- Reads a text that consists of one value. -/
def parse (text : String) : Option Value := parseChars text.toList

end CellularAutomata.Json

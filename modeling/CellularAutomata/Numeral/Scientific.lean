import CellularAutomata.Numeral.Shortest

/-!
# Reading double-precision numbers

A number text is an optional sign followed by the word `inf`, `infinity` or `nan` in any
letter case, or by digits with an optional point and an optional exponent. The value
read is the double-precision number nearest to the decimal.
-/

namespace CellularAutomata.Numeral

/-- The double-precision number nearest to a decimal. Decimals beyond the power of ten
400 in either direction are infinite or zero, so no large power is ever formed. -/
def Decimal.toBinary64 (negative : Bool) (d : Decimal) : Binary64 :=
  if d.coefficient == 0 then .finite negative 0
  else
    let size := d.exponent + (Nat.toDigits 10 d.coefficient).length
    if 400 < size then .infinite negative
    else if size < -400 then .finite negative 0
    else if 0 ≤ d.exponent then
      Binary64.ofRatio negative (d.coefficient * Nat.pow 10 d.exponent.natAbs) 1
    else Binary64.ofRatio negative d.coefficient (Nat.pow 10 d.exponent.natAbs)

/-- Reads the exponent part, which may be absent: `e`, an optional sign, digits. -/
def exponentPart? : List Char → Option Int
  | [] => some 0
  | c :: cs => if c == 'e' || c == 'E' then integer? cs else none

/-- Reads digits with an optional point, at least one digit beside it, and an optional
exponent. -/
def decimal? (cs : List Char) : Option Decimal :=
  let whole := cs.takeWhile Char.isDigit
  let rest := cs.dropWhile Char.isDigit
  let (fraction, rest) :=
    match rest with
    | '.' :: more => (more.takeWhile Char.isDigit, more.dropWhile Char.isDigit)
    | _ => ([], rest)
  if whole.isEmpty && fraction.isEmpty then none
  else
    (exponentPart? rest).map fun exponent =>
      ⟨ofDigits (whole ++ fraction), exponent - fraction.length⟩

/-- Reads a number without its sign. -/
def magnitude? (negative : Bool) (cs : List Char) : Option Binary64 :=
  let word := String.ofList (cs.map Char.toLower)
  if word == "inf" || word == "infinity" then some (.infinite negative)
  else if word == "nan" then some .nan
  else (decimal? cs).map (Decimal.toBinary64 negative)

/-- Reads a double-precision number. -/
def binary64? : List Char → Option Binary64
  | '-' :: cs => magnitude? true cs
  | '+' :: cs => magnitude? false cs
  | cs => magnitude? false cs

end CellularAutomata.Numeral

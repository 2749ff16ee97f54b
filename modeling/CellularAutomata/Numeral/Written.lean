import CellularAutomata.Numeral.Decimal

/-!
# Written numbers

A number as a row of characters: sign, digits before and after the point, exponent. A
numeral without a fraction has no point.
-/

namespace CellularAutomata.Numeral

/-- The parts of a written number. -/
structure Written where
  /-- Whether there is a minus sign. -/
  negative : Bool
  /-- The digits before the point. -/
  whole : List Char
  /-- The digits after the point, or none if there is no point. -/
  fraction : List Char
  /-- The exponent, if there is one: whether it is negative, and its digits. -/
  exponent : Option (Bool × List Char)
  deriving DecidableEq, Repr

namespace Written

/-- The numeral of an integer. -/
def ofInt (n : Int) : Written := ⟨decide (n < 0), Nat.toDigits 10 n.natAbs, [], none⟩

/-- The characters of the exponent, which is never without a sign. -/
def exponentChars : Option (Bool × List Char) → List Char
  | none => []
  | some (negative, digits) => 'e' :: (if negative then '-' else '+') :: digits

/-- The characters of a numeral. -/
def chars (w : Written) : List Char :=
  (if w.negative then ['-'] else []) ++ w.whole ++
    (if w.fraction.isEmpty then [] else '.' :: w.fraction) ++ exponentChars w.exponent

/-- The text of a numeral. -/
def text (w : Written) : String := String.ofList w.chars

end Written

end CellularAutomata.Numeral

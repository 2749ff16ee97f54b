/-!
# Whole numbers in decimal digits

Writing and reading of whole numbers. Written numbers have no leading zeros and no
plus sign; read numbers may have both.
-/

namespace CellularAutomata.Numeral

/-- The decimal text of a natural number. -/
def natural (n : Nat) : String := String.ofList (Nat.toDigits 10 n)

/-- The decimal text of an integer, with a minus sign when it is negative. -/
def integer (n : Int) : String :=
  if n < 0 then "-" ++ natural n.natAbs else natural n.natAbs

/-- The value of one decimal digit. -/
def digitValue (c : Char) : Nat := c.toNat - '0'.toNat

/-- The value of a row of decimal digits, the most significant one first. -/
def ofDigits (cs : List Char) : Nat := cs.foldl (fun n c => 10 * n + digitValue c) 0

/-- Reads one or more decimal digits and nothing else. -/
def natural? (cs : List Char) : Option Nat :=
  if !cs.isEmpty && cs.all Char.isDigit then some (ofDigits cs) else none

/-- Reads an optional sign followed by one or more decimal digits. -/
def integer? : List Char → Option Int
  | '-' :: cs => (natural? cs).map fun n => -(n : Int)
  | '+' :: cs => (natural? cs).map fun n => (n : Int)
  | cs => (natural? cs).map fun n => (n : Int)

/-- Reads an integer and keeps it only when it lies between `least` and `most`. -/
def integerWithin? (least most : Int) (cs : List Char) : Option Int :=
  (integer? cs).filter fun n => decide (least ≤ n) && decide (n ≤ most)

/-- The least signed 32-bit number. -/
def leastInt32 : Int := -(Nat.pow 2 31 : Nat)

/-- The greatest signed 32-bit number. -/
def mostInt32 : Int := (Nat.pow 2 31 : Nat) - 1

/-- The least signed 64-bit number. -/
def leastInt64 : Int := -(Nat.pow 2 63 : Nat)

/-- The greatest signed 64-bit number. -/
def mostInt64 : Int := (Nat.pow 2 63 : Nat) - 1

end CellularAutomata.Numeral

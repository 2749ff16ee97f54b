import CellularAutomata.Json.Syntax
import CellularAutomata.Numeral.Shortest

/-!
# Numbers in JSON

A numeral without fraction and exponent is an integer when it fits 64 bits. Any other
numeral is a double-precision number: as many leading digits as fit 64 bits are rounded,
and the result is multiplied with or divided by a rounded power of ten. This is exact
for short numerals and otherwise off by a few units in the last place.
-/

namespace CellularAutomata.Json

open Numeral

/-- Appends digits to a number as long as it stays below `2 ^ 64`. The result is the number
and how many digits did not fit. -/
def fitting : Nat → List Char → Nat × Nat
  | n, [] => (n, 0)
  | n, c :: rest =>
    let longer := 10 * n + digitValue c
    if longer < Nat.pow 2 64 then fitting longer rest else (n, rest.length + 1)

/-- The units of a power of ten, rounded. -/
def powerOfTen (exponent : Nat) : Nat :=
  Binary64.roundUnits (Nat.pow 10 exponent * Binary64.unitsPerOne) 1

/-- Multiplies a number of units with a power of ten, rounding at every step. There is no
result when it is too large. After two divisions by `10 ^ 308` nothing is left. -/
def timesPowerOfTen : Nat → Nat → Int → Option Nat
  | 0, _, _ => some 0
  | fuel + 1, units, exponent =>
    if exponent.natAbs ≤ 308 then
      if 0 ≤ exponent then
        let product := Binary64.timesUnits units (powerOfTen exponent.natAbs)
        if product < Binary64.unitsLimit then some product else none
      else some (Binary64.overUnits units (powerOfTen exponent.natAbs))
    else if units = 0 then some 0
    else if 0 ≤ exponent then none
    else timesPowerOfTen fuel (Binary64.overUnits units (powerOfTen 308)) (exponent + 308)

/-- The value of the exponent of a numeral. -/
def exponentValue : Option (Bool × List Char) → Int
  | none => 0
  | some (true, digits) => -(ofDigits digits : Int)
  | some (false, digits) => ofDigits digits

/-- The integer of a numeral. Minus zero is not an integer. -/
def integer? (w : Written) : Option Int :=
  if !w.fraction.isEmpty || w.exponent.isSome then none
  else
    let n := ofDigits w.whole
    if w.negative then if 0 < n ∧ n ≤ Nat.pow 2 63 then some (-(n : Int)) else none
    else if n < Nat.pow 2 64 then some n else none

/-- The double-precision number of a numeral that is not an integer. -/
def scaled? (w : Written) : Option Binary64 :=
  let (leading, left) := fitting 0 w.whole
  let (significand, leftOfFraction) := fitting leading w.fraction
  let taken := w.fraction.length - leftOfFraction
  let exponent := exponentValue w.exponent + left - taken
  (timesPowerOfTen 3 (Binary64.roundUnits (significand * Binary64.unitsPerOne) 1) exponent).map
    fun units => .finite w.negative units

/-- The double-precision number of a numeral. -/
def binary64? (w : Written) : Option Binary64 :=
  match integer? w with
  | some n => some (Binary64.ofInt n)
  | none => scaled? w

/-- The layout of double-precision numbers: a fraction always, and an exponent for those
below `10 ^ -5` and from `10 ^ 16` on. -/
def layout : Layout := ⟨false, true, some (-4, 16)⟩

/-- The value of a double-precision number, which is `null` when it is not finite. -/
def ofBinary64 : Binary64 → Value
  | .finite negative units => .number (layout.written negative units)
  | _ => .null

namespace Value

/-- The integer that a value is, if it lies between `least` and `most`. -/
def integerWithin? (least most : Int) : Value → Option Int
  | .number numeral => (integer? numeral).filter fun n => decide (least ≤ n) && decide (n ≤ most)
  | _ => none

/-- The natural number that a value is, if it is below `2 ^ bits`. -/
def naturalBelow? (bits : Nat) (v : Value) : Option Nat :=
  (v.integerWithin? 0 ((Nat.pow 2 bits : Nat) - 1)).map Int.toNat

/-- The signed 32-bit number that a value is. -/
def int32? (v : Value) : Option Int := v.integerWithin? leastInt32 mostInt32

/-- The double-precision number that a value is. -/
def binary64? : Value → Option Binary64
  | .number numeral => Json.binary64? numeral
  | _ => none

/-- The truth value that a value is. -/
def bool? : Value → Option Bool
  | .bool b => some b
  | _ => none

end Value

end CellularAutomata.Json

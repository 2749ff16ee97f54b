import CellularAutomata.Numeral.Binary64
import CellularAutomata.Numeral.Written

/-!
# Shortest decimal text of a double-precision number

The digits written are the fewest whose value is read back as the same number, and of
those the nearest ones. `shortest` finds them by testing, for one digit, two digits and
so on, the two neighbours of the value on the decimal grid. The record `Layout` says
how the digits are set out.
-/

namespace CellularAutomata.Numeral

/-- The number `coefficient * 10 ^ exponent`. -/
structure Decimal where
  /-- The digits, read as one natural number. -/
  coefficient : Nat
  /-- The power of ten that they are multiplied with. -/
  exponent : Int
  deriving DecidableEq, Repr

/-- The real numbers that are read as one given double-precision number. All three
values are counted in halves of a unit. -/
structure Reach where
  /-- The lower end. -/
  low : Nat
  /-- The number itself. -/
  centre : Nat
  /-- The upper end. -/
  high : Nat
  /-- Whether the two ends belong to the interval. -/
  closed : Bool

/-- The interval around a positive number of units. Below a power of two the numbers lie
twice as dense as above it; a tie is read as the even neighbour, so the ends belong to
the interval of an even number. -/
def Reach.ofUnits (units : Nat) : Reach :=
  let step := Binary64.spacing units
  let below := if units == Nat.pow 2 52 * step && step != 1 then step / 2 else step
  ⟨2 * units - below, 2 * units, 2 * units + step, (units / step) % 2 == 0⟩

/-- The grid of the multiples of `10 ^ exponent`: multiple `c` stands for
`c * cell / finer` halves of a unit. -/
structure DecimalGrid where
  /-- Numerator of the distance of two multiples. -/
  cell : Nat
  /-- Denominator of the distance of two multiples. -/
  finer : Nat

/-- The grid with the given power of ten. -/
def DecimalGrid.ofExponent (exponent : Int) : DecimalGrid :=
  let half := 2 * Binary64.unitsPerOne
  if 0 ≤ exponent then ⟨half * Nat.pow 10 exponent.natAbs, 1⟩
  else ⟨half, Nat.pow 10 exponent.natAbs⟩

/-- Whether a multiple of the grid lies in the interval. -/
def Reach.holds (reach : Reach) (grid : DecimalGrid) (multiple : Nat) : Bool :=
  let value := multiple * grid.cell
  if reach.closed then
    decide (reach.low * grid.finer ≤ value) && decide (value ≤ reach.high * grid.finer)
  else
    decide (reach.low * grid.finer < value) && decide (value < reach.high * grid.finer)

/-- The neighbour of the number on the grid that is read back as the number, the nearer
one if both are. An exact tie goes up when `tieUp` holds and else to the even one. -/
def Reach.onGrid? (tieUp : Bool) (reach : Reach) (exponent : Int) : Option Decimal :=
  let grid := DecimalGrid.ofExponent exponent
  let value := reach.centre * grid.finer
  let lower := value / grid.cell
  let twice := 2 * (value % grid.cell)
  let preferUpper :=
    decide (grid.cell < twice) || (twice == grid.cell && (tieUp || lower % 2 == 1))
  match reach.holds grid lower, reach.holds grid (lower + 1) with
  | true, true => some ⟨if preferUpper then lower + 1 else lower, exponent⟩
  | true, false => some ⟨lower, exponent⟩
  | false, true => some ⟨lower + 1, exponent⟩
  | false, false => none

/-- The power of ten just above a positive number of units. The factor `10 ^ 400` makes
the least positive number large. -/
def decimalSize (units : Nat) : Int :=
  ((Nat.toDigits 10 (units * Nat.pow 10 400 / Binary64.unitsPerOne)).length : Int) - 400

/-- Moves factors of ten from the coefficient to the exponent, `fuel` at most. -/
def Decimal.stripped : Nat → Decimal → Decimal
  | 0, d => d
  | fuel + 1, d =>
    if d.coefficient != 0 && d.coefficient % 10 == 0 then
      Decimal.stripped fuel ⟨d.coefficient / 10, d.exponent + 1⟩
    else d

/-- The shortest decimal that is read back as a positive number of units. Seventeen
digits always suffice. -/
def shortest (tieUp : Bool) (units : Nat) : Decimal :=
  let reach := Reach.ofUnits units
  let size := decimalSize units
  let found := (List.range 17).findSome? fun (n : Nat) => reach.onGrid? tieUp (size - 1 - (n : Int))
  (found.getD ⟨0, 0⟩).stripped 20

/-- How the digits of a number are set out. -/
structure Layout where
  /-- An exact tie between two shortest decimals goes up; else to the even one. -/
  tieUp : Bool
  /-- Whole numbers end in a point and a zero. -/
  keepsPoint : Bool
  /-- The sizes of decimals (see `decimalSize`) that are written without an exponent;
  all of them when there is no range. -/
  positional : Option (Int × Int)
  deriving DecidableEq, Repr

namespace Layout

/-- The fraction that is written after a whole number. -/
def wholeFraction (layout : Layout) : List Char := if layout.keepsPoint then ['0'] else []

/-- The digits with a decimal point and no exponent. -/
def pointed (layout : Layout) (negative : Bool) (digits : List Char) (size : Int) : Written :=
  if size ≤ 0 then ⟨negative, ['0'], List.replicate size.natAbs '0' ++ digits, none⟩
  else if size.natAbs < digits.length then
    ⟨negative, digits.take size.natAbs, digits.drop size.natAbs, none⟩
  else
    ⟨negative, digits ++ List.replicate (size.natAbs - digits.length) '0', layout.wholeFraction,
      none⟩

/-- The digits with a point after the first one and an exponent. -/
def scaled (negative : Bool) (digits : List Char) (size : Int) : Written :=
  ⟨negative, digits.take 1, digits.drop 1,
    some (decide (size < 1), Nat.toDigits 10 (size - 1).natAbs)⟩

/-- The numeral of a number of units. -/
def written (layout : Layout) (negative : Bool) (units : Nat) : Written :=
  if units == 0 then ⟨negative, ['0'], layout.wholeFraction, none⟩
  else
    let decimal := shortest layout.tieUp units
    let digits := Nat.toDigits 10 decimal.coefficient
    let size := decimal.exponent + digits.length
    match layout.positional with
    | some (least, most) =>
      if least ≤ size ∧ size ≤ most then layout.pointed negative digits size
      else scaled negative digits size
    | none => layout.pointed negative digits size

/-- The layout of messages and parameter texts: never an exponent, and no point after a
whole number. -/
def plain : Layout := ⟨true, false, none⟩

end Layout

/-- A number as it is shown in messages and parameter texts. -/
def shown : Binary64 → String
  | .nan => "NaN"
  | .infinite false => "inf"
  | .infinite true => "-inf"
  | .finite negative units => (Layout.plain.written negative units).text

end CellularAutomata.Numeral

import CellularAutomata.Numeral.Binary64

/-!
# Headings

The step that belongs to an orientation in degrees. Angles are counted counter-clockwise
from the direction of growing columns, and a step is the sine and the cosine of the
angle, each rounded to a whole number. The rounding decides at the multiples of thirty
degrees, where a sine or cosine is one half up to the error of the angle in radians; so
the angle is the double-precision product of the degrees and of one degree, and a sine
counts as one half as soon as its nearest double-precision number does.
-/

namespace CellularAutomata.Heading

/-- One degree in radians as a double-precision number, a multiple of `2 ^ -58`. -/
def degree : Nat := 5030569068109113

/-- An angle in radians is kept as a multiple of `2 ^ -200`. This is the angle of a whole
number of degrees. -/
def radians (degrees : Int) : Int :=
  let magnitude : Int := (Binary64.roundUnits (degrees.natAbs * degree) 1 * Nat.pow 2 142 : Nat)
  if degrees < 0 then -magnitude else magnitude

/-- Half a turn. -/
def halfTurn : Int := 5048344754617993871973410141242436836214643421488662971535368

/-- The least angle whose sine is at most `2 ^ -55` below one half: from there on the
nearest double-precision number is not smaller than one half. -/
def sixthOfHalfTurn : Int := 841390792436332260494203382870101817592302529408406948632127

/-- The sine of an angle, rounded to a whole number. -/
def sine (angle : Int) : Int :=
  let rest := angle % halfTurn
  if sixthOfHalfTurn ≤ rest ∧ rest ≤ halfTurn - sixthOfHalfTurn then
    if angle / halfTurn % 2 = 0 then 1 else -1
  else 0

/-- The cosine of an angle, rounded to a whole number. -/
def cosine (angle : Int) : Int := sine (angle + halfTurn / 2)

/-- The step of an orientation: rows, which grow downwards, and columns. -/
def ofDegrees (degrees : Int) : Int × Int :=
  (-sine (radians degrees), cosine (radians degrees))

end CellularAutomata.Heading

/-!
# Double-precision numbers in exact units

Every finite double-precision number is a whole multiple of `2 ^ -1074`, so a finite
number is kept as a sign and that multiple. Order, whole-number tests and truncation are
then questions about natural numbers, and rounding happens in one function,
`roundUnits`: to the nearest multiple with at most 53 significant bits, a tie going to
the even neighbour.
-/

namespace CellularAutomata

/-- A double-precision number. -/
inductive Binary64 where
  /-- The result of an operation without a numeric answer. -/
  | nan
  /-- A magnitude beyond the greatest finite number. -/
  | infinite (negative : Bool)
  /-- The number `units * 2 ^ -1074`, negated when `negative` holds. Zero has two signs. -/
  | finite (negative : Bool) (units : Nat)
  deriving DecidableEq, Repr

namespace Binary64

/-- How many units make the number one. -/
def unitsPerOne : Nat := Nat.pow 2 1074

/-- The least number of units that is too large for a finite number. -/
def unitsLimit : Nat := Nat.pow 2 2098

/-- The whole number nearest to `num / den`; a tie goes to the even one. -/
def nearestEven (num den : Nat) : Nat :=
  let quotient := num / den
  let remainder := num % den
  if 2 * remainder < den || (2 * remainder == den && quotient % 2 == 0) then quotient
  else quotient + 1

/-- The distance of neighbouring double-precision numbers around `units`. -/
def spacing (units : Nat) : Nat := Nat.pow 2 (Nat.log2 units + 1 - 53)

/-- The double-precision number of units that is nearest to `num / den`. -/
def roundUnits (num den : Nat) : Nat :=
  let step := spacing (num / den)
  nearestEven num (den * step) * step

/-- A number of units with a sign, or infinity when it is too large. -/
def ofUnits (negative : Bool) (units : Nat) : Binary64 :=
  if units < unitsLimit then .finite negative units else .infinite negative

/-- The double-precision number nearest to `num / den`. -/
def ofRatio (negative : Bool) (num den : Nat) : Binary64 :=
  ofUnits negative (roundUnits (num * unitsPerOne) den)

/-- The double-precision number nearest to an integer. -/
def ofInt (n : Int) : Binary64 := ofRatio (decide (n < 0)) n.natAbs 1

/-- Positive zero. -/
def zero : Binary64 := .finite false 0

/-- Negation flips the sign, also that of zero. -/
def neg : Binary64 → Binary64
  | .nan => .nan
  | .infinite negative => .infinite !negative
  | .finite negative units => .finite (!negative) units

/-- The magnitude of a product of two finite numbers of units, rounded. -/
def timesUnits (a b : Nat) : Nat := roundUnits (a * b) unitsPerOne

/-- The magnitude of a quotient of two finite numbers of units, rounded. -/
def overUnits (a b : Nat) : Nat := roundUnits (a * unitsPerOne) b

/-- The place of a number in the usual order. The two zeros share a place and a number
that is not a number has none. -/
def place : Binary64 → Option Int
  | .nan => none
  | .infinite false => some unitsLimit
  | .infinite true => some (-unitsLimit)
  | .finite false units => some units
  | .finite true units => some (-units)

/-- Strictly smaller; never true of something that is not a number. -/
def less (a b : Binary64) : Bool :=
  match a.place, b.place with
  | some x, some y => decide (x < y)
  | _, _ => false

/-- Smaller or equal; never true of something that is not a number. -/
def atMost (a b : Binary64) : Bool :=
  match a.place, b.place with
  | some x, some y => decide (x ≤ y)
  | _, _ => false

/-- Neither infinite nor not-a-number. -/
def isFinite : Binary64 → Bool
  | .finite _ _ => true
  | _ => false

/-- Finite and without a fractional part. -/
def isWhole : Binary64 → Bool
  | .finite _ units => units % unitsPerOne == 0
  | _ => false

/-- The integer part, moved to the nearer end when it lies outside `[least, most]`. -/
def truncated (least most : Int) : Binary64 → Int
  | .nan => 0
  | .infinite false => most
  | .infinite true => least
  | .finite false units => max least (min most (units / unitsPerOne : Nat))
  | .finite true units => max least (min most (-(units / unitsPerOne : Nat)))

end Binary64

end CellularAutomata

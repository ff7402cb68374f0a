/-!
# Double-precision numbers

A finite binary64 number is a sign and a *rank*: its magnitude's place in the increasing sequence of
all finite magnitudes, which is also the lower 63 bits of its binary form.  Every magnitude is a
whole multiple of the smallest positive one, 2⁻¹⁰⁷⁴, so exact values are natural numbers of such
units and rounding is a division of natural numbers.
-/

namespace TableGate

/-- A finite binary64 number. -/
structure Double where
  /-- The sign bit, set for negative numbers and for negative zero. -/
  negative : Bool
  /-- How many finite magnitudes are smaller. -/
  rank : Nat
  rank_lt : rank < 2047 * Nat.pow 2 52 := by decide
deriving DecidableEq, Repr

namespace Double

/-- The magnitude of a rank, in units of 2⁻¹⁰⁷⁴. -/
def unitsAt (rank : Nat) : Nat :=
  let field := rank / Nat.pow 2 52
  let fraction := rank % Nat.pow 2 52
  if field = 0 then fraction else (Nat.pow 2 52 + fraction) * Nat.pow 2 (field - 1)

/-- How many units of 2⁻¹⁰⁷⁴ make one. -/
def unitsPerOne : Nat := Nat.pow 2 1074

def units (number : Double) : Nat := unitsAt number.rank

def bits (number : Double) : Nat := (if number.negative then Nat.pow 2 63 else 0) + number.rank

/-- The whole number nearest to a quotient; of two equally near ones the even one. -/
def roundHalfEven (num den : Nat) : Nat :=
  let whole := num / den
  let rest := num % den
  if 2 * rest < den then whole
  else if den < 2 * rest then whole + 1
  else whole + whole % 2

/-- The rank of the magnitude nearest to `num / den` units.  Magnitudes below 2⁵³ units are one unit
apart; above, they have 53 significant bits. -/
def nearestRank (num den : Nat) : Nat :=
  let shift := (num / den).log2 - 52
  shift * Nat.pow 2 52 + roundHalfEven num (den * Nat.pow 2 shift)

/-- The number nearest to `num / den` units, unless it is too large for a finite one. -/
def nearest? (negative : Bool) (num den : Nat) : Option Double :=
  if fits : nearestRank num den < 2047 * Nat.pow 2 52 then
    some ⟨negative, nearestRank num den, fits⟩
  else none

def zero (negative : Bool) : Double := ⟨negative, 0, by decide⟩

def isZero (number : Double) : Bool := number.rank == 0

/-- The number nearest to a natural number. -/
def ofNat? (negative : Bool) (n : Nat) : Option Double := nearest? negative (n * unitsPerOne) 1

/-- The product, rounded to the nearest number, with the sign of the first factor. -/
def scaleUp? (number factor : Double) : Option Double :=
  nearest? number.negative (number.units * factor.units) unitsPerOne

/-- The quotient, rounded to the nearest number, with the sign of the dividend. -/
def scaleDown? (number divisor : Double) : Option Double :=
  nearest? number.negative (number.units * unitsPerOne) divisor.units

end Double

end TableGate

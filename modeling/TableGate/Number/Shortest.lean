import TableGate.Number.Double
import TableGate.Text.Numeral

/-!
# Shortest decimals

The fewest decimal digits that stand for a magnitude and for no other one.  A decimal stands for a
magnitude when it lies in the interval of values that round to it: from halfway to the magnitude
below to halfway to the magnitude above, the ends included when the rank is even.  Grids of one,
two, … seventeen digits are tried in turn; the first with a point in the interval wins, and of two
such points the nearer one.
-/

namespace TableGate

/-- A decimal number: a whole number of digits, moved by a power of ten. -/
structure Decimal where
  significand : Nat
  exponent : Int
deriving DecidableEq, Repr

namespace Decimal

/-- A power of ten as a quotient of natural numbers. -/
def powerOfTen (exponent : Int) : Nat × Nat :=
  if exponent < 0 then (1, Nat.pow 10 (-exponent).toNat) else (Nat.pow 10 exponent.toNat, 1)

/-- Halves of the smallest unit of magnitude in one. -/
def halfUnits : Nat := 2 * Double.unitsPerOne

/-- How often the power of ten goes into a magnitude of half units. -/
def floorAt (exponent : Int) (halves : Nat) : Nat :=
  let (num, den) := powerOfTen exponent
  halves * den / (num * halfUnits)

/-- The exponent of the leading digit of a positive rank's magnitude. -/
def leadingExponent (rank : Nat) : Int :=
  let units := Double.unitsAt rank
  let estimate := (((units.log2 : Int) - 1074) * 78913).fdiv 0x40000
  if 0 < floorAt (estimate + 1) (2 * units) then estimate + 1 else estimate

/-- Whether the decimal rounds to the magnitude of that rank. -/
def roundsTo (rank : Nat) (decimal : Decimal) : Bool :=
  let (num, den) := powerOfTen decimal.exponent
  let point := decimal.significand * num * halfUnits
  let low := (Double.unitsAt (rank - 1) + Double.unitsAt rank) * den
  let high := (Double.unitsAt rank + Double.unitsAt (rank + 1)) * den
  if rank % 2 = 0 then decide (low ≤ point ∧ point ≤ high) else decide (low < point ∧ point < high)

/-- The point of the grid `10 ^ exponent` that rounds to the rank's magnitude and is nearest to it,
if any point of the grid does; of two equally near ones the even one. -/
def onGrid? (rank : Nat) (exponent : Int) : Option Decimal :=
  let halves := 2 * Double.unitsAt rank
  let below : Decimal := ⟨floorAt exponent halves, exponent⟩
  let above : Decimal := ⟨below.significand + 1, exponent⟩
  match roundsTo rank below, roundsTo rank above with
  | false, false => none
  | true, false => some below
  | false, true => some above
  | true, true =>
      let (num, den) := powerOfTen exponent
      let value := halves * den
      let toBelow := value - below.significand * num * halfUnits
      let toAbove := above.significand * num * halfUnits - value
      if toBelow < toAbove then some below
      else if toAbove < toBelow then some above
      else if below.significand % 2 = 0 then some below else some above

/-- The first hit on the grids that start at `exponent` and become finer, `more` of them. -/
def firstHit (rank : Nat) (exponent : Int) : Nat → Decimal
  | 0 => ⟨floorAt exponent (2 * Double.unitsAt rank), exponent⟩
  | more + 1 => (onGrid? rank exponent).getD (firstHit rank (exponent - 1) more)

/-- The decimal without its trailing zeros, of which at most `bound` are dropped. -/
def stripZeros (decimal : Decimal) : Nat → Decimal
  | 0 => decimal
  | bound + 1 =>
      if decimal.significand ≠ 0 ∧ decimal.significand % 10 = 0 then
        stripZeros ⟨decimal.significand / 10, decimal.exponent + 1⟩ bound
      else decimal

/-- The shortest decimal that rounds to the magnitude of a positive rank. -/
def shortest (rank : Nat) : Decimal :=
  stripZeros (firstHit rank (leadingExponent rank) 17) 18

/-- How the digits of a number are laid out. -/
structure Layout where
  /-- The least exponent of the leading digit that is still written without an exponent. -/
  least : Int
  /-- The least exponent of the leading digit that is written with an exponent again. -/
  bound : Int
deriving Repr

/-- The text of digits of which the first has the given exponent. -/
def layOut (layout : Layout) (digits : List Char) (leading : Int) : List Char :=
  if layout.least ≤ leading ∧ leading < layout.bound then
    if leading < 0 then
      '0' :: '.' :: List.replicate (-leading - 1).toNat '0' ++ digits
    else
      let whole := leading.toNat + 1
      let fraction := digits.drop whole
      digits.take whole ++ List.replicate (whole - digits.length) '0' ++
        '.' :: (if fraction.isEmpty then ['0'] else fraction)
  else
    let mantissa :=
      match digits with
      | [] => []
      | [digit] => [digit]
      | digit :: more => digit :: '.' :: more
    mantissa ++ 'e' :: (if leading < 0 then '-' else '+') :: Text.digits leading.natAbs

end Decimal

namespace Double

/-- Numbers are written without an exponent from 10⁻⁵ up to, and not including, 10¹⁶. -/
def layout : Decimal.Layout := ⟨-5, 16⟩

/-- The shortest text that is read back as the number. -/
def text (number : Double) : List Char :=
  let magnitude :=
    if number.isZero then ['0', '.', '0']
    else
      let decimal := Decimal.shortest number.rank
      let digits := Text.digits decimal.significand
      Decimal.layOut layout digits (decimal.exponent + digits.length - 1)
  if number.negative then '-' :: magnitude else magnitude

end Double

end TableGate

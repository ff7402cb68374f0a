import TableGate.Number.Double
import TableGate.Text.Numeral

/-!
# Numerals of a JSON text

A numeral as it is spelled, and the number it stands for.  Integers of 64 bits, signed or unsigned,
are exact.  Every other numeral is a double: its first digits, as many as fit 64 bits, are rounded
once, and the power of ten is applied by one correctly rounded multiplication or division (by two
where the exponent is below -308), so that numerals with many digits can miss the nearest double.
-/

namespace TableGate.Json

/-- A number of a JSON value: a 64-bit integer, signed or unsigned, or a double. -/
inductive Number
  | integer (value : Int)
  | double (value : Double)
deriving DecidableEq, Repr

structure Exponent where
  negative : Bool
  digits : List Char
deriving DecidableEq, Repr

/-- A numeral as it is spelled: sign, digits before the point, digits after it, exponent. -/
structure Numeral where
  negative : Bool
  whole : List Char
  fraction : Option (List Char)
  exponent : Option Exponent
deriving DecidableEq, Repr

namespace Numeral

def digitValue (digit : Char) : Nat := digit.toNat - '0'.toNat

/-- Take digits into a 64-bit significand while they fit; the rest is returned. -/
def absorb (significand : Nat) : List Char → Nat × List Char
  | [] => (significand, [])
  | digit :: rest =>
      let next := significand * 10 + digitValue digit
      if next < Text.wordBound then absorb next rest else (significand, digit :: rest)

/-- The power of ten as a double; the table ends with 10³⁰⁸. -/
def powerOfTen? (exponent : Nat) : Option Double :=
  if exponent ≤ 308 then Double.ofNat? false (Nat.pow 10 exponent) else none

/-- A double times a power of ten, unless it is too large.  Powers below 10⁻³⁰⁸ are divided out in
steps of 308, at most `steps` of them. -/
def scale? (number : Double) (exponent : Int) : Nat → Option Double
  | 0 => some (Double.zero number.negative)
  | steps + 1 =>
      match powerOfTen? exponent.natAbs with
      | some power =>
          if 0 ≤ exponent then number.scaleUp? power else number.scaleDown? power
      | none =>
          if number.isZero then some number
          else if 0 ≤ exponent then none
          else do
            let smaller ← number.scaleDown? (← powerOfTen? 308)
            scale? smaller (exponent + 308) steps

/-- One more than the largest exponent that is read. -/
def exponentBound : Nat := Nat.pow 2 31

/-- The exponent of ten that a fraction's digits and the exponent part make together, kept within 32
bits. -/
def clampExponent (exponent : Int) : Int :=
  max (-0x80000000) (min 0x7fffffff exponent)

/-- The double of a significand and an exponent, with the exponent part still to be applied.  An
exponent part beyond 32 bits gives zero, or no number where it would make one too large. -/
def finish? (negative : Bool) (significand : Nat) (start : Int) :
    Option Exponent → Option Double
  | none => do scale? (← Double.ofNat? negative significand) start 4
  | some part =>
      let size := Nat.ofDigitChars 10 part.digits 0
      if size < exponentBound then do
        let exponent := clampExponent (if part.negative then start - size else start + size)
        scale? (← Double.ofNat? negative significand) exponent 4
      else if significand ≠ 0 ∧ part.negative = false then none
      else some (Double.zero negative)

/-- The double that a numeral with a fraction, an exponent or too many digits stands for. -/
def double? (numeral : Numeral) : Option Double :=
  let (whole, dropped) := absorb 0 numeral.whole
  let fraction := numeral.fraction.getD []
  let (significand, ignored) := absorb whole fraction
  let taken := fraction.length - ignored.length
  finish? numeral.negative significand ((dropped.length : Int) - taken) numeral.exponent

/-- The number that a numeral stands for, unless it is too large for a double. -/
def number? (numeral : Numeral) : Option Number :=
  let (whole, dropped) := absorb 0 numeral.whole
  match numeral.fraction, numeral.exponent, dropped with
  | none, none, [] =>
      if numeral.negative = false then some (.integer whole)
      else if whole ≠ 0 ∧ whole ≤ Nat.pow 2 63 then some (.integer (-whole))
      else (Double.ofNat? true whole).map .double
  | _, _, _ => numeral.double?.map .double

/-- The natural number below `bound` that the numeral spells, if it is a plain run of digits. -/
def naturalBelow? (bound : Nat) (numeral : Numeral) : Option Nat :=
  match numeral with
  | ⟨false, whole, none, none⟩ => Text.naturalBelow? bound whole
  | _ => none

end Numeral

end TableGate.Json

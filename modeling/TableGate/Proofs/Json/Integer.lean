import Mathlib.Algebra.Order.Ring.Int
import TableGate.Json.Value

/-!
# Integers of a JSON text

The integers that a JSON text carries are those of 64 bits, signed or unsigned (`carries_iff`): a
run of digits is taken whole as long as it fits 64 bits (`absorb_eq`), and larger numerals are
doubles.
-/

namespace TableGate.Json

namespace Numeral

variable {text rest : List Char} {significand total : Nat}

theorem le_ofDigitChars (text : List Char) (significand : Nat) :
    significand ≤ Nat.ofDigitChars 10 text significand := by
  induction text generalizing significand with
  | nil => exact Nat.le_refl _
  | cons digit rest ih =>
      rw [Nat.ofDigitChars_cons]
      exact Nat.le_trans (by omega) (ih _)

/-- Digits are taken whole if their number fits 64 bits. -/
theorem absorb_eq (fits : Nat.ofDigitChars 10 text significand < Text.wordBound) :
    absorb significand text = (Nat.ofDigitChars 10 text significand, []) := by
  induction text generalizing significand with
  | nil => rfl
  | cons digit rest ih =>
      rw [Nat.ofDigitChars_cons, Nat.mul_comm 10] at fits ⊢
      exact (if_pos (Nat.lt_of_le_of_lt (le_ofDigitChars rest _) fits)).trans (ih fits)

theorem absorb_lt (small : significand < Text.wordBound)
    (taken : absorb significand text = (total, rest)) : total < Text.wordBound := by
  induction text generalizing significand with
  | nil =>
      obtain ⟨rfl, -⟩ := Prod.mk.inj taken
      exact small
  | cons digit more ih =>
      rw [absorb] at taken
      split at taken
      · next fits => exact ih fits taken
      · obtain ⟨rfl, -⟩ := Prod.mk.inj taken
        exact small

/-- The numeral of an integer in decimal digits. -/
def ofInt (value : Int) : Numeral := ⟨decide (value < 0), Text.digits value.natAbs, none, none⟩

theorem number?_ofInt {value : Int} (least : -2 ^ 63 ≤ value) (most : value < 2 ^ 64) :
    (ofInt value).number? = some (.integer value) := by
  have read : Nat.ofDigitChars 10 (Text.digits value.natAbs) 0 = value.natAbs :=
    Nat.ofDigitChars_toDigits (by decide) (by decide)
  have whole : absorb 0 (Text.digits value.natAbs) = (value.natAbs, []) := by
    rw [absorb_eq, read]
    rw [read, Text.wordBound]
    change value.natAbs < 2 ^ 64
    omega
  unfold ofInt number?
  simp only [whole]
  by_cases negative : value < 0
  · have bounded : value.natAbs ≠ 0 ∧ value.natAbs ≤ Nat.pow 2 63 := by
      refine ⟨by omega, ?_⟩
      change value.natAbs ≤ 2 ^ 63
      omega
    have size : -(value.natAbs : Int) = value := by omega
    rw [decide_eq_true negative, if_neg nofun, if_pos bounded, size]
  · have size : (value.natAbs : Int) = value := by omega
    rw [decide_eq_false negative, if_pos rfl, size]

end Numeral

/-- An integer is the number of some numeral. -/
def Carries (value : Int) : Prop := ∃ numeral : Numeral, numeral.number? = some (.integer value)

/-- The integers that are kept as such are those of 64 bits, signed or unsigned. -/
theorem carries_iff {value : Int} : Carries value ↔ -2 ^ 63 ≤ value ∧ value < 2 ^ 64 := by
  constructor
  · rintro ⟨numeral, carried⟩
    simp only [Numeral.number?] at carried
    have fits : (Numeral.absorb 0 numeral.whole).1 < 2 ^ 64 := Numeral.absorb_lt (by decide) rfl
    split at carried
    · split at carried
      · cases carried
        omega
      · split at carried
        · next bounded =>
            have least : (Numeral.absorb 0 numeral.whole).1 ≤ 2 ^ 63 := bounded.2
            cases carried
            omega
        · obtain ⟨_, _, double⟩ := Option.map_eq_some_iff.mp carried
          cases double
    · obtain ⟨_, _, double⟩ := Option.map_eq_some_iff.mp carried
      cases double
  · rintro ⟨least, most⟩
    exact ⟨.ofInt value, Numeral.number?_ofInt least most⟩

end TableGate.Json

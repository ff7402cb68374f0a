import Mathlib.Algebra.Order.Ring.Int
import TableGate.Number.Double

/-!
# Rounding to doubles

A quotient is rounded to a whole number that is half of one away at most (`roundHalfEven_near`), and
to itself where it is whole.  Doubles around a natural number are as far apart as 53 significant
bits allow (`spacing`), and the number is rounded to a whole number of these steps
(`ofNat?_eq_some`).
-/

namespace TableGate.Double

variable {num den n low high : Nat}

/-! ### Whole numbers -/

theorem roundHalfEven_cases (num den : Nat) :
    (roundHalfEven num den = num / den ∧ 2 * (num % den) ≤ den) ∨
      (roundHalfEven num den = num / den + 1 ∧ den ≤ 2 * (num % den)) := by
  unfold roundHalfEven
  dsimp only
  split
  · exact .inl ⟨rfl, by omega⟩
  · split
    · exact .inr ⟨rfl, by omega⟩
    · rcases Nat.mod_two_eq_zero_or_one (num / den) with even | odd
      · exact .inl ⟨by omega, by omega⟩
      · exact .inr ⟨by omega, by omega⟩

/-- The multiple that a number is rounded to is half a step away at most. -/
theorem roundHalfEven_near (positive : 0 < den) (num : Nat) :
    2 * num ≤ 2 * (roundHalfEven num den * den) + den ∧
      2 * (roundHalfEven num den * den) ≤ 2 * num + den := by
  have parts := Nat.div_add_mod' num den
  have small := Nat.mod_lt num positive
  rcases roundHalfEven_cases num den with ⟨down, near⟩ | ⟨up, near⟩
  · rw [down]
    omega
  · rw [up, Nat.succ_mul (num / den) den]
    generalize num / den * den = multiple at parts ⊢
    omega

/-- A multiple is rounded to itself. -/
theorem roundHalfEven_mul (positive : 0 < den) (whole : Nat) :
    roundHalfEven (whole * den) den = whole := by
  rw [roundHalfEven, Nat.mul_mod_left, Nat.mul_div_cancel _ positive, if_pos positive]

theorem roundHalfEven_scale {factor : Nat} (positive : 0 < factor) (num den : Nat) :
    roundHalfEven (num * factor) (den * factor) = roundHalfEven num den := by
  have doubled : 2 * (num % den * factor) = 2 * (num % den) * factor := by rw [Nat.mul_assoc]
  unfold roundHalfEven
  simp only [Nat.mul_div_mul_right _ _ positive, Nat.mul_mod_mul_right, doubled,
    Nat.mul_lt_mul_right positive]

/-- Rounding does not leave the multiples that a number lies between. -/
theorem le_roundHalfEven (positive : 0 < den) (above : low * den ≤ num) :
    low ≤ roundHalfEven num den := by
  have whole := (Nat.le_div_iff_mul_le positive).mpr above
  rcases roundHalfEven_cases num den with ⟨down, -⟩ | ⟨up, -⟩
  · rwa [down]
  · rw [up]
    exact Nat.le_succ_of_le whole

theorem roundHalfEven_le (positive : 0 < den) (below : num < high * den) :
    roundHalfEven num den ≤ high := by
  have whole := (Nat.div_lt_iff_lt_mul positive).mpr below
  rcases roundHalfEven_cases num den with ⟨down, -⟩ | ⟨up, -⟩
  · rw [down]
    exact whole.le
  · rw [up]
    exact whole

/-! ### Magnitudes -/

/-- The magnitude of 53 significant bits, or of the next power of two, at a given shift. -/
theorem unitsAt_shifted {significand : Nat} (shift : Nat) (least : 2 ^ 52 ≤ significand)
    (most : significand ≤ 2 ^ 53) :
    unitsAt (shift * 2 ^ 52 + significand) = significand * 2 ^ shift := by
  unfold unitsAt
  simp only [Nat.pow_eq]
  rcases Nat.lt_or_eq_of_le most with below | rfl
  · obtain ⟨fraction, rfl⟩ := Nat.exists_eq_add_of_le least
    have field : (shift * 2 ^ 52 + (2 ^ 52 + fraction)) / 2 ^ 52 = shift + 1 := by omega
    have rest : (shift * 2 ^ 52 + (2 ^ 52 + fraction)) % 2 ^ 52 = fraction := by omega
    rw [field, rest, if_neg (Nat.succ_ne_zero _), Nat.add_sub_cancel]
  · have field : (shift * 2 ^ 52 + 2 ^ 53) / 2 ^ 52 = shift + 2 := by omega
    have rest : (shift * 2 ^ 52 + 2 ^ 53) % 2 ^ 52 = 0 := by omega
    rw [field, rest, if_neg (Nat.succ_ne_zero _), Nat.add_zero, Nat.add_succ_sub_one,
      ← Nat.pow_add, ← Nat.pow_add, Nat.add_comm shift, ← Nat.add_assoc]

theorem log2_mul_two_pow (positive : n ≠ 0) (shift : Nat) :
    (n * 2 ^ shift).log2 = n.log2 + shift := by
  have stays : n * 2 ^ shift ≠ 0 := Nat.mul_ne_zero positive (Nat.two_pow_pos shift).ne'
  rw [Nat.log2_eq_iff stays, Nat.add_right_comm, Nat.pow_add, Nat.pow_add]
  exact ⟨Nat.mul_le_mul_right _ (Nat.log2_self_le positive),
    Nat.mul_lt_mul_of_pos_right Nat.lt_log2_self (Nat.two_pow_pos shift)⟩

/-- How far apart the doubles around a natural number are. -/
def spacing (n : Nat) : Nat := 2 ^ (n.log2 - 52)

/-- The natural number nearest to a given one that has 53 significant bits at most. -/
def rounded (n : Nat) : Nat := roundHalfEven n (spacing n) * spacing n

theorem spacing_pos (n : Nat) : 0 < spacing n := Nat.two_pow_pos _

theorem rounded_eq_self_iff : rounded n = n ↔ spacing n ∣ n := by
  constructor
  · intro same
    exact ⟨roundHalfEven n (spacing n), by rw [Nat.mul_comm]; exact same.symm⟩
  · rintro ⟨whole, shape⟩
    have multiple : n = whole * spacing n := shape.trans (Nat.mul_comm _ _)
    have exact := roundHalfEven_mul (spacing_pos n) whole
    rw [← multiple] at exact
    rw [rounded, exact, ← multiple]

/-- Binary places are finer than the spacing, so a number that is written with them is rounded as
the number itself is. -/
theorem roundHalfEven_places (n places : Nat) :
    roundHalfEven (n * 2 ^ (places + 52)) (2 ^ (n.log2 + places)) * 2 ^ (n.log2 + places) =
      rounded n * 2 ^ (places + 52) := by
  rcases Nat.le_total 52 n.log2 with large | small
  · have exponents : n.log2 + places = n.log2 - 52 + (places + 52) := by omega
    have split : 2 ^ (n.log2 + places) = spacing n * 2 ^ (places + 52) := by
      rw [exponents, Nat.pow_add, spacing]
    rw [split, roundHalfEven_scale (Nat.two_pow_pos _), rounded, Nat.mul_assoc]
  · have one : spacing n = 1 := by rw [spacing, Nat.sub_eq_zero_of_le small, Nat.pow_zero]
    have exponents : 52 - n.log2 + (n.log2 + places) = places + 52 := by omega
    have split : (2 : Nat) ^ (places + 52) = 2 ^ (52 - n.log2) * 2 ^ (n.log2 + places) := by
      rw [← Nat.pow_add, exponents]
    rw [rounded_eq_self_iff.mpr (one ▸ Nat.one_dvd n), split, ← Nat.mul_assoc,
      roundHalfEven_mul (Nat.two_pow_pos _)]

/-- The rank nearest to a number that is written with binary places is that of the rounded number.
It is bounded by the number's leading bit. -/
theorem unitsAt_nearestRank (positive : n ≠ 0) (places : Nat) :
    unitsAt (nearestRank (n * 2 ^ (places + 52)) 1) = rounded n * 2 ^ (places + 52) ∧
      nearestRank (n * 2 ^ (places + 52)) 1 ≤ (n.log2 + places) * 2 ^ 52 + 2 ^ 53 := by
  have shift : (n * 2 ^ (places + 52)).log2 - 52 = n.log2 + places := by
    rw [log2_mul_two_pow positive, ← Nat.add_assoc, Nat.add_sub_cancel]
  have rank : nearestRank (n * 2 ^ (places + 52)) 1 = (n.log2 + places) * 2 ^ 52 +
      roundHalfEven (n * 2 ^ (places + 52)) (2 ^ (n.log2 + places)) := by
    rw [nearestRank, Nat.div_one, shift, Nat.one_mul]
    rfl
  have low : 2 ^ 52 * 2 ^ (n.log2 + places) = 2 ^ n.log2 * 2 ^ (places + 52) := by
    have exponents : 52 + (n.log2 + places) = n.log2 + (places + 52) := by omega
    rw [← Nat.pow_add, ← Nat.pow_add, exponents]
  have high : 2 ^ 53 * 2 ^ (n.log2 + places) = 2 ^ (n.log2 + 1) * 2 ^ (places + 52) := by
    have exponents : 53 + (n.log2 + places) = n.log2 + 1 + (places + 52) := by omega
    rw [← Nat.pow_add, ← Nat.pow_add, exponents]
  have least : 2 ^ 52 ≤ roundHalfEven (n * 2 ^ (places + 52)) (2 ^ (n.log2 + places)) := by
    refine le_roundHalfEven (Nat.two_pow_pos _) ?_
    rw [low]
    exact Nat.mul_le_mul_right _ (Nat.log2_self_le positive)
  have most : roundHalfEven (n * 2 ^ (places + 52)) (2 ^ (n.log2 + places)) ≤ 2 ^ 53 := by
    refine roundHalfEven_le (Nat.two_pow_pos _) ?_
    rw [high]
    exact Nat.mul_lt_mul_of_pos_right Nat.lt_log2_self (Nat.two_pow_pos _)
  rw [rank]
  exact ⟨(unitsAt_shifted _ least most).trans (roundHalfEven_places n places),
    Nat.add_le_add_left most _⟩

theorem unitsPerOne_eq {bits : Nat} (same : 1074 = bits) : unitsPerOne = 2 ^ bits := by
  delta unitsPerOne
  rw [same, Nat.pow_eq]

theorem unitsPerOne_pos : 0 < unitsPerOne := by
  obtain ⟨bits, same⟩ : ∃ bits, 1074 = bits := ⟨_, rfl⟩
  rw [unitsPerOne_eq same]
  exact Nat.two_pow_pos bits

/-- A natural number of 64 bits is rounded to the double of the nearest natural number with 53
significant bits. -/
theorem ofNat?_eq_some (negative : Bool) (positive : n ≠ 0) (fits : n < 2 ^ 64) :
    ∃ number, ofNat? negative n = some number ∧ number.negative = negative ∧
      number.units = rounded n * unitsPerOne := by
  obtain ⟨places, total⟩ : ∃ places, 1074 = places + 52 := ⟨1022, rfl⟩
  have bits : n.log2 < 64 := (Nat.log2_lt positive).mpr fits
  obtain ⟨units, bound⟩ := unitsAt_nearestRank positive places
  rw [← unitsPerOne_eq total] at units bound
  have finite : nearestRank (n * unitsPerOne) 1 < 2047 * Nat.pow 2 52 := by
    rw [Nat.pow_eq]
    omega
  exact ⟨⟨negative, _, finite⟩, dif_pos finite, rfl, units⟩

end TableGate.Double

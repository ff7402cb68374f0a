import TableGate.Text.Cut

/-!
# Numerals

Natural numbers in decimal digits, and numbers and bytes in hexadecimal ones, which are written in
lower case and read in either case.  The main facts are `natural?_digits`, what `digits` writes,
`natural?` reads back, and `hexValue?_hexDigit` for one hexadecimal digit.
-/

namespace TableGate.Text

/-! ### Decimal digits -/

def digits (n : Nat) : List Char := Nat.toDigits 10 n

/-- The number that a non-empty run of decimal digits stands for. -/
def natural? (text : List Char) : Option Nat :=
  if text.isEmpty || text.any (fun c => !c.isDigit) then none
  else some (Nat.ofDigitChars 10 text 0)

/-- The number below `bound` that a run of decimal digits stands for. -/
def naturalBelow? (bound : Nat) (text : List Char) : Option Nat :=
  (natural? text).filter (· < bound)

/-- One more than the largest 64-bit number. -/
def wordBound : Nat := Nat.pow 2 64

/-- A 64-bit number written in decimal digits, one plus sign in front allowed. -/
def word? : List Char → Option Nat
  | '+' :: text => naturalBelow? wordBound text
  | text => naturalBelow? wordBound text

/-- A number is read back from its digits. -/
theorem natural?_digits (n : Nat) : natural? (digits n) = some n := by
  have all_digits : ∀ c ∈ digits n, c.isDigit = true :=
    fun c member => Nat.isDigit_of_mem_toDigits (by decide) (by decide) member
  have value : Nat.ofDigitChars 10 (digits n) 0 = n :=
    Nat.ofDigitChars_toDigits (by decide) (by decide)
  have written : (digits n).isEmpty = false := by
    cases shape : digits n with
    | nil =>
        have zero : n = 0 := by simpa [shape] using value.symm
        subst zero
        exact absurd shape (by decide)
    | cons c rest => rfl
  have clean : (digits n).any (fun c => !c.isDigit) = false := by
    simpa using fun c member => all_digits c member
  simp [natural?, written, clean, value]

/-! ### Hexadecimal digits -/

/-- The lower-case hexadecimal digit of a number below sixteen. -/
def hexDigit (n : Fin 16) : Char :=
  if n.val < 10 then Char.ofNat (48 + n.val) else Char.ofNat (87 + n.val)

/-- The number that a hexadecimal digit, of either case, stands for. -/
def hexValue? (c : Char) : Option (Fin 16) :=
  let code := c.toNat
  if decimal : 48 ≤ code ∧ code ≤ 57 then some ⟨code - 48, by omega⟩
  else if lower : 97 ≤ code ∧ code ≤ 102 then some ⟨code - 87, by omega⟩
  else if upper : 65 ≤ code ∧ code ≤ 70 then some ⟨code - 55, by omega⟩
  else none

/-- The number that hexadecimal digits stand for, the first one counting most. -/
def hexNumber (values : List (Fin 16)) : Nat :=
  values.foldl (fun total value => total * 16 + value.val) 0

/-- A byte as two lower-case hexadecimal digits. -/
def hexByte (byte : UInt8) : List Char :=
  [hexDigit ⟨byte.toNat / 16, by have := byte.toNat_lt; omega⟩,
    hexDigit ⟨byte.toNat % 16, by omega⟩]

/-- Bytes as lower-case hexadecimal digits. -/
def hexBytes (bytes : List UInt8) : String := String.ofList (bytes.flatMap hexByte)

/-- A digit is read back from its character. -/
theorem hexValue?_hexDigit (n : Fin 16) : hexValue? (hexDigit n) = some n := by
  revert n
  decide

end TableGate.Text

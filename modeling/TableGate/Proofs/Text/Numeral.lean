import TableGate.Proofs.Text.Name
import TableGate.Text.Numeral

/-!
# Numbers that a text spells

A text spells a number by decimal digits, as many as it likes, with a plus sign before them or none
and blanks around (`Spells`).  It spells one number at most (`spells_iff`), and a 64-bit number is
read from it as long as that number is one (`word?_eq`).
-/

namespace TableGate.Text

variable {text : List Char} {number : Nat}

theorem natural?_eq_some_iff {value : Nat} :
    natural? text = some value ↔ text ≠ [] ∧ (∀ c ∈ text, c.isDigit = true) ∧
      value = Nat.ofDigitChars 10 text 0 := by
  by_cases shown : (text.isEmpty || text.any fun c => !c.isDigit) = true
  · rw [natural?, if_pos shown]
    refine iff_of_false (Option.some_ne_none value).symm ?_
    rintro ⟨present, digits, -⟩
    rcases (Bool.or_eq_true _ _).mp shown with empty | other
    · exact present (List.isEmpty_iff.mp empty)
    · obtain ⟨c, among, noDigit⟩ := List.any_eq_true.mp other
      rw [digits c among] at noDigit
      cases noDigit
  · have digits : text ≠ [] ∧ ∀ c ∈ text, c.isDigit = true := by simpa using shown
    rw [natural?, if_neg shown, Option.some.injEq, eq_comm]
    exact ⟨fun same => ⟨digits.1, digits.2, same⟩, fun whole => whole.2.2⟩

/-- A text spells a number: its decimal digits, leading zeros allowed, after a plus sign or none,
between blanks. -/
def Spells (text : List Char) (number : Nat) : Prop :=
  ∃ sign digits, Padded (sign ++ digits) text ∧ (sign = [] ∨ sign = ['+']) ∧ digits ≠ [] ∧
    (∀ c ∈ digits, c.isDigit = true) ∧ number = Nat.ofDigitChars 10 digits 0

/-- The number that digits stand for, one plus sign in front allowed. -/
def unsigned? : List Char → Option Nat
  | '+' :: text => natural? text
  | text => natural? text

/-- A 64-bit number is read like a number of any size, and left out where it is too large. -/
theorem word?_eq (text : List Char) :
    word? text = (unsigned? text).filter fun number => decide (number < wordBound) := by
  unfold word?
  split
  · rfl
  · next plain =>
      rw [unsigned?]
      · rfl
      · exact plain

theorem unsigned?_eq_some_iff :
    unsigned? text = some number ↔
      ∃ sign digits, text = sign ++ digits ∧ (sign = [] ∨ sign = ['+']) ∧
        natural? digits = some number := by
  constructor
  · intro read
    unfold unsigned? at read
    split at read
    · next digits => exact ⟨['+'], digits, rfl, .inr rfl, read⟩
    · next plain => exact ⟨[], _, rfl, .inl rfl, read⟩
  · rintro ⟨sign, digits, rfl, rfl | rfl, read⟩
    · rw [List.nil_append]
      unfold unsigned?
      split
      · -- a plus sign is no digit
        have shown := (natural?_eq_some_iff.mp read).2.1 '+' List.mem_cons_self
        exact absurd shown (by decide)
      · exact read
    · exact read

theorem spells_iff : Spells text number ↔ unsigned? (trim text) = some number := by
  rw [unsigned?_eq_some_iff]
  constructor
  · rintro ⟨sign, digits, around, signed, present, shown, rfl⟩
    have plain : ∀ c ∈ sign ++ digits, isBlank c = false := by
      intro c member
      rcases List.mem_append.mp member with front | back
      · rcases signed with rfl | rfl
        · exact absurd front List.not_mem_nil
        · rw [List.mem_singleton.mp front]
          decide
      · exact isBlank_of_isIdentPart (by simp [isIdentPart, shown c back])
    refine ⟨sign, digits, ?_, signed, natural?_eq_some_iff.mpr ⟨present, shown, rfl⟩⟩
    exact (padded_iff (trim_of_no_blank plain)).mp around
  · rintro ⟨sign, digits, trimmed, signed, read⟩
    exact ⟨sign, digits, padded_of_trim trimmed, signed, natural?_eq_some_iff.mp read⟩

end TableGate.Text

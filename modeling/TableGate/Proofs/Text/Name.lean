import TableGate.Error
import TableGate.Proofs.Text.Nested
import TableGate.Proofs.Text.Padding

/-!
# Names in a text

The characters of an identifier are neither blanks nor marks (`Ident.not_mem_text`), so blanks
around a name are trimmed without touching it, and a name is read from a text exactly where the text
is that name between blanks (`Ident.read_trim_eq_ok_iff`).
-/

namespace TableGate

/-- A character of an identifier is no blank. -/
theorem isBlank_of_isIdentPart {c : Char} (fitting : isIdentPart c = true) :
    Text.isBlank c = false := by
  have bounds : 48 ≤ c.toNat ∧ c.toNat ≤ 122 := by
    simp only [isIdentPart, Bool.or_eq_true, beq_iff_eq] at fitting
    rcases fitting with (letter | digit) | rfl
    · rcases (Bool.or_eq_true _ _).mp letter with upper | lower
      · obtain ⟨above, below⟩ := of_decide_eq_true upper
        exact ⟨Nat.le_trans (by decide) above, Nat.le_trans below (by decide)⟩
      · obtain ⟨above, below⟩ := (Bool.and_eq_true _ _).mp lower
        exact ⟨Nat.le_trans (by decide) (of_decide_eq_true above), of_decide_eq_true below⟩
    · obtain ⟨above, below⟩ := Char.isDigit_iff_toNat.mp digit
      exact ⟨above, Nat.le_trans below (by decide)⟩
    · decide
  simp only [Text.isBlank, Bool.or_eq_false_iff, Bool.and_eq_false_iff, decide_eq_false_iff_not,
    beq_eq_false_iff_ne]
  omega

/-- A digit is a character of ASCII. -/
theorem Text.ascii_of_isDigit {c : Char} (digit : c.isDigit = true) : c.toNat < 0x80 :=
  Nat.lt_of_le_of_lt (Char.isDigit_iff_toNat.mp digit).2 (by decide)

/-- A character of an identifier is no mark. -/
theorem not_mem_marks_of_isIdentPart {c : Char} (fitting : isIdentPart c = true) :
    c ∉ Text.marks := by
  have outside : ∀ mark ∈ Text.marks, isIdentPart mark = false := by
    simp [Text.marks, isIdentPart]
  intro member
  rw [outside c member] at fitting
  exact Bool.false_ne_true fitting

namespace Ident

variable {name : Ident} {text : String} {written : List Char} {c : Char}

/-- A name has only characters of identifiers. -/
theorem isIdentPart_of_mem (member : c ∈ name.text.toList) : isIdentPart c = true := by
  have valid := name.valid
  unfold isIdentifier at valid
  cases shape : name.text.toList with
  | nil =>
      rw [shape] at member
      exact absurd member List.not_mem_nil
  | cons first rest =>
      simp only [shape, isIdentChars, Bool.and_eq_true, List.all_eq_true] at valid
      rw [shape] at member
      rcases List.mem_cons.mp member with rfl | later
      · have start := valid.1
        simp only [isIdentStart, Bool.or_eq_true] at start
        simp only [isIdentPart, Bool.or_eq_true]
        exact start.imp_left .inl
      · exact valid.2 c later

/-- A name has no character that is outside of identifiers. -/
theorem not_mem_text (outside : isIdentPart c = false) (name : Ident) : c ∉ name.text.toList := by
  intro member
  rw [isIdentPart_of_mem member] at outside
  exact absurd outside nofun

/-- A name has a first character. -/
theorem toList_ne_nil (name : Ident) : name.text.toList ≠ [] := by
  intro empty
  have valid := name.valid
  rw [isIdentifier, empty] at valid
  exact absurd valid Bool.false_ne_true

/-- A name has no blank to be trimmed. -/
theorem trim_text (name : Ident) : Text.trim name.text.toList = name.text.toList :=
  Text.trim_of_no_blank fun _ member => isBlank_of_isIdentPart (isIdentPart_of_mem member)

/-- A name has no mark, so it is not cut and opens nothing. -/
theorem not_mem_marks (name : Ident) : ∀ c ∈ name.text.toList, c ∉ Text.marks :=
  fun _ member => not_mem_marks_of_isIdentPart (isIdentPart_of_mem member)

/-- A name is not blank. -/
theorem isBlankText_text (name : Ident) : Text.isBlankText name.text.toList = false := by
  rw [← Bool.not_eq_true, ← Text.trim_eq_nil_iff, trim_text]
  exact name.toList_ne_nil

/-! ### Reading -/

/-- A name is read from its own text. -/
theorem read_text (name : Ident) : Ident.read name.text = .ok name := by
  rw [Ident.read, ofString?_text]

/-- A name that is read has the text that it is read from. -/
theorem text_of_read (read : Ident.read text = .ok name) : name.text = text := by
  unfold Ident.read at read
  split at read
  · next found shape =>
      cases read
      exact text_of_ofString? shape
  · exact absurd read nofun

/-- A name is read from its own text and from no other. -/
theorem read_eq_ok_iff : Ident.read text = .ok name ↔ name.text = text := by
  constructor
  · exact text_of_read
  · rintro rfl
    exact read_text name

/-- A name is read from a text exactly where the text is the name between blanks. -/
theorem read_trim_eq_ok_iff :
    Ident.read (String.ofList (Text.trim written)) = .ok name ↔
      Text.Padded name.text.toList written := by
  rw [read_eq_ok_iff, Text.padded_iff name.trim_text, ← String.toList_inj, String.toList_ofList,
    eq_comm]

end Ident

end TableGate

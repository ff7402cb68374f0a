import Mathlib.Data.List.Forall2
import TableGate.Proofs.Text.Flat
import TableGate.Proofs.Text.Padding

/-!
# Tokens

The tokens of a text are the pieces of its split, trimmed.  Blanks around a text end up in its first
and its last piece, so they make no difference to the tokens (`map_trim_splitTopLevel`).
-/

namespace TableGate.Text

variable {nesting : Nesting} {text padded before after : List Char}

/-- Blanks are no marks. -/
theorem not_mem_marks_of_isBlankText (blank : isBlankText text = true) :
    ∀ c ∈ text, c ∉ marks := by
  have solid : ∀ mark ∈ marks, isBlank mark = false := by simp [marks, isBlank]
  intro c member marked
  exact not_mem_of_isBlankText (solid c marked) blank member

/-- A text without marks has none with blanks around it. -/
theorem unmarked_of_padded (plain : ∀ c ∈ text, c ∉ marks) (around : Padded text padded) :
    ∀ c ∈ padded, c ∉ marks := by
  cases around with
  | @around before after front back =>
      simp only [List.forall_mem_append]
      exact ⟨⟨not_mem_marks_of_isBlankText front, plain⟩, not_mem_marks_of_isBlankText back⟩

/-- A text is not cut where it has no comma. -/
theorem isUncut_of_not_mem (absent : ',' ∉ text) (nesting : Nesting) : IsUncut nesting text := by
  induction text generalizing nesting with
  | nil => trivial
  | cons c rest ih =>
      obtain ⟨other, later⟩ := not_or.mp (mt List.mem_cons.mpr absent)
      exact ⟨fun comma => other comma.1.symm, ih later _⟩

/-- A character of pieces with commas between them is a comma or is in a piece. -/
theorem mem_of_mem_intercalate {c comma : Char} {pieces : List (List Char)}
    (member : c ∈ [comma].intercalate pieces) : c = comma ∨ ∃ piece ∈ pieces, c ∈ piece := by
  induction pieces with
  | nil => exact absurd member List.not_mem_nil
  | cons piece rest ih =>
      cases rest with
      | nil =>
          rw [List.intercalate_singleton] at member
          exact .inr ⟨piece, List.mem_cons_self, member⟩
      | cons next more =>
          rw [List.intercalate_cons_cons, List.mem_append, List.mem_append, List.mem_singleton]
            at member
          rcases member with (first | between) | within
          · exact .inr ⟨piece, List.mem_cons_self, first⟩
          · exact .inl between
          · obtain between | ⟨other, listed, among⟩ := ih within
            · exact .inl between
            · exact .inr ⟨other, List.mem_cons_of_mem _ listed, among⟩

/-! ### Blanks around pieces -/

/-- A text that goes on with blanks. -/
def Trails (text longer : List Char) : Prop :=
  ∃ added, isBlankText added = true ∧ longer = text ++ added

/-- Blanks at the end of a text are trimmed. -/
theorem Trails.trim_eq {longer : List Char} (trails : Trails text longer) :
    trim longer = trim text := by
  obtain ⟨added, blank, rfl⟩ := trails
  exact trim_of_padded ((padded_self text).append blank)

/-- A character in front of the first piece leaves the blanks at the end of each piece there. -/
theorem trails_modifyHead {c : Char} {left right : List (List Char)}
    (trails : List.Forall₂ Trails left right) :
    List.Forall₂ Trails (left.modifyHead (List.cons c)) (right.modifyHead (List.cons c)) := by
  cases trails with
  | nil => exact .nil
  | cons first others =>
      obtain ⟨added, blank, rfl⟩ := first
      exact .cons ⟨added, blank, rfl⟩ others

/-- Blanks at the end of a text are at the end of its last piece. -/
theorem trails_topPiecesFrom (blank : isBlankText after = true) :
    List.Forall₂ Trails (topPiecesFrom nesting text) (topPiecesFrom nesting (text ++ after)) := by
  induction text generalizing nesting with
  | nil =>
      have absent : ',' ∉ after := not_mem_of_isBlankText (by decide) blank
      have alone := topPiecesFrom_append (isUncut_of_not_mem absent nesting) []
      rw [List.append_nil, topPiecesFrom, List.modifyHead_cons, List.append_nil] at alone
      rw [List.nil_append, alone, topPiecesFrom]
      exact .cons ⟨after, blank, rfl⟩ .nil
  | cons c rest ih =>
      rw [List.cons_append, topPiecesFrom, topPiecesFrom]
      split
      · exact .cons ⟨[], rfl, rfl⟩ ih
      · exact trails_modifyHead ih

/-- Blanks before a text are in its first piece, those after it in its last one. -/
theorem map_trim_topPieces (around : Padded text padded) :
    (topPieces padded).map trim = (topPieces text).map trim := by
  cases around with
  | @around before after front back =>
      have flat : Flat false before := .of_unmarked (not_mem_marks_of_isBlankText front)
      have begun : topPieces (before ++ (text ++ after)) =
          (topPieces (text ++ after)).modifyHead (before ++ ·) := by
        rw [topPieces, topPiecesFrom_append flat.isPiece.uncut, flat.isPiece.closed]
        rfl
      have ended : (topPieces (text ++ after)).map trim = (topPieces text).map trim := by
        have trails := @trails_topPiecesFrom {} text after back
        rw [← List.forall₂_eq_eq_eq, List.forall₂_map_left_iff, List.forall₂_map_right_iff]
        exact trails.flip.imp fun _ _ => Trails.trim_eq
      rw [List.append_assoc, begun, ← ended]
      cases topPieces (text ++ after) with
      | nil => rfl
      | cons piece rest =>
          have first : trim (before ++ piece) = trim piece :=
            trim_of_padded ((padded_self piece).prepend front)
          rw [List.modifyHead_cons, List.map_cons, List.map_cons, first]

/-- A piece is blank where nothing of it is left when it is trimmed. -/
theorem map_trim_filter (pieces : List (List Char)) :
    (pieces.filter fun piece => !isBlankText piece).map trim =
      (pieces.map trim).filter fun token => !token.isEmpty := by
  have visible (piece : List Char) : (!isBlankText piece) = !(trim piece).isEmpty := by
    rw [Bool.eq_iff_iff]
    simp [trim_eq_nil_iff]
  rw [List.filter_map]
  exact congrArg _ (List.filter_congr fun piece _ => visible piece)

/-- A blank text has no tokens. -/
theorem splitTopLevel_of_isBlankText (blank : isBlankText text = true) :
    splitTopLevel text = [] := by
  have flat : Flat false text := .of_unmarked (not_mem_marks_of_isBlankText blank)
  rw [splitTopLevel, topPieces_of_isUncut flat.isPiece.uncut,
    List.filter_cons_of_neg (by simp [blank]), List.filter_nil]

/-- Blanks around a text make no difference to its tokens. -/
theorem map_trim_splitTopLevel (around : Padded text padded) :
    (splitTopLevel padded).map trim = (splitTopLevel text).map trim := by
  rw [splitTopLevel, splitTopLevel, map_trim_filter, map_trim_filter, map_trim_topPieces around]

end TableGate.Text

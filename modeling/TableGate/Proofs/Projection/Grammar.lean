import Mathlib.Data.List.Forall2
import TableGate.Projection
import TableGate.Proofs.Text.Name
import TableGate.Proofs.Text.Token

/-!
# The grammar of projections

A projection is written as terms with commas between them, in any order that keeps the columns and
the relations in theirs (`Projection.Written`).  Blanks around terms, names and fields make no
difference, and blank terms and fields are left out.  What may stand beside a star in a list of
fields is a parameter of the grammar.  Where only names may stand there, a text of the grammar has
no quotes, and is cut at the commas that it is written with (`Projection.topPieces_intercalate`).
-/

namespace TableGate

open Text (Padded)

/-- What is between the commas of a field list and not blank. -/
def Fields.items (inner : List Char) : List (List Char) :=
  (inner.splitOn ',').filter fun item => !Text.isBlankText item

variable {beside : List Char → Prop} {inner head piece text : List Char}

/-- How the fields of a relation are written: a star, beside which there may be other items, or some
names. -/
inductive Fields.Written (beside : List Char → Prop) (inner : List Char) : Fields → Prop
  | all (star : ∃ item ∈ items inner, Padded ['*'] item)
      (others : ∀ item ∈ items inner, Padded ['*'] item ∨ beside item) : Written beside inner .all
  | listed {names : List Ident} (present : names ≠ [])
      (each : List.Forall₂ (fun item name => Padded name.text.toList item) (items inner) names) :
      Written beside inner (.listed names)

theorem Fields.Written.mono {other : List Char → Prop} {fields : Fields}
    (wider : ∀ item, beside item → other item) (written : fields.Written beside inner) :
    fields.Written other inner := by
  cases written with
  | all star others =>
      exact .all star fun item listed => (others item listed).imp_right (wider item)
  | listed present each => exact .listed present each

namespace Relation

/-- How the alias and the target of a relation are written: with a colon between them, or once where
they are the same. -/
inductive HeadWritten (head : List Char) (name target : Ident) : Prop
  | labeled {label rest : List Char} (shape : head = label ++ ':' :: rest)
      (named : Padded name.text.toList label) (aimed : Padded target.text.toList rest) :
      HeadWritten head name target
  | bare (same : name = target) (aimed : Padded target.text.toList head) :
      HeadWritten head name target

/-- The alias, the target and the fields in parentheses. -/
def token (head inner : List Char) : List Char := head ++ '(' :: inner ++ [')']

end Relation

namespace Projection

/-- A term of a projection. -/
inductive Term
  | all
  | column (name : Ident)
  | relation (shown : Relation)
deriving DecidableEq, Repr

namespace Term

def column? : Term → Option Ident
  | .column name => some name
  | _ => none

def relation? : Term → Option Relation
  | .relation shown => some shown
  | _ => none

/-- How a term is written. -/
inductive Written (beside : List Char → Prop) (piece : List Char) : Term → Prop
  | all (star : Padded ['*'] piece) : Written beside piece .all
  | column {name : Ident} (named : Padded name.text.toList piece) :
      Written beside piece (.column name)
  | relation {shown : Relation} {head inner : List Char}
      (around : Padded (Relation.token head inner) piece)
      (headed : Relation.HeadWritten head shown.name shown.target)
      (fields : shown.fields.Written beside inner) : Written beside piece (.relation shown)

end Term

/-- A grammar that lets more stand beside a star has more texts. -/
theorem Term.Written.mono {other : List Char → Prop} {term : Term}
    (wider : ∀ item, beside item → other item) (written : term.Written beside piece) :
    term.Written other piece := by
  cases written with
  | all star => exact .all star
  | column named => exact .column named
  | relation around headed fields => exact .relation around headed (fields.mono wider)

/-- The projection with more terms. -/
def extend (projection : Projection) (terms : List Term) : Projection :=
  ⟨projection.allColumns || terms.contains .all,
    projection.columns ++ terms.filterMap Term.column?,
    projection.relations ++ terms.filterMap Term.relation?⟩

/-- How a projection is written: terms that make it up, and blank ones, between commas. -/
def Written (beside : List Char → Prop) (projection : Projection) (text : List Char) : Prop :=
  ∃ terms pieces, extend {} terms = projection ∧
    List.Forall₂ (Term.Written beside) (pieces.filter fun piece => !Text.isBlankText piece) terms ∧
      text = [','].intercalate pieces

def aliases (projection : Projection) : List Ident := projection.relations.map Relation.name

/-- No alias is used twice, and every relation shows a field. -/
structure IsSound (projection : Projection) : Prop where
  distinct : projection.aliases.Nodup
  fields : ∀ relation ∈ projection.relations, relation.fields ≠ .listed []

/-- An identifier, with blanks around it or without. -/
def IsName (item : List Char) : Prop := ∃ name : Ident, Padded name.text.toList item

/-! ### Characters of the grammar -/

end Projection

/-- If whatever is related to something has a property, so do items that are related one by one. -/
theorem forall_mem_of_forall₂ {α β : Type} {relation : α → β → Prop} {property : α → Prop}
    {items : List α} {others : List β} (each : List.Forall₂ relation items others)
    (holds : ∀ item other, relation item other → property item) :
    ∀ item ∈ items, property item := by
  have both := each.imp fun item other related => And.intro (holds item other related) related
  exact ((List.forall₂_and_left items others).mp both).1

theorem unmarked_star : ∀ c ∈ ['*'], c ∉ Text.marks := List.forall_mem_singleton.mpr (by decide)

theorem Relation.HeadWritten.unmarked {name target : Ident}
    (headed : Relation.HeadWritten head name target) : ∀ c ∈ head, c ∉ Text.marks := by
  cases headed with
  | labeled shape named aimed =>
      rw [shape, List.forall_mem_append, List.forall_mem_cons]
      exact ⟨Text.unmarked_of_padded name.not_mem_marks named, by decide,
        Text.unmarked_of_padded target.not_mem_marks aimed⟩
  | bare same aimed => exact Text.unmarked_of_padded target.not_mem_marks aimed

/-- In a field list of names there is no mark but the comma. -/
theorem Fields.Written.unmarked {fields : Fields}
    (written : fields.Written Projection.IsName inner) :
    ∀ c ∈ inner, c = ',' ∨ c ∉ Text.marks := by
  have visible : ∀ item ∈ items inner, ∀ c ∈ item, c ∉ Text.marks := by
    cases written with
    | all star others =>
        intro item listed
        rcases others item listed with star | ⟨name, named⟩
        · exact Text.unmarked_of_padded unmarked_star star
        · exact Text.unmarked_of_padded name.not_mem_marks named
    | listed present each =>
        exact forall_mem_of_forall₂ each
          fun _ name named => Text.unmarked_of_padded name.not_mem_marks named
  have joined := @List.intercalate_splitOn Char inner _ _ ','
  intro c member
  rw [← joined] at member
  refine (Text.mem_of_mem_intercalate member).imp_right fun ⟨part, cut, among⟩ => ?_
  cases blank : Text.isBlankText part with
  | true => exact Text.not_mem_marks_of_isBlankText blank c among
  | false => exact visible part (List.mem_filter.mpr ⟨cut, by simp [blank]⟩) c among

namespace Projection

theorem Term.Written.flat {term : Term} (written : term.Written IsName piece) :
    Text.Flat false piece := by
  cases written with
  | all star => exact .of_unmarked (Text.unmarked_of_padded unmarked_star star)
  | @column name named => exact .of_unmarked (Text.unmarked_of_padded name.not_mem_marks named)
  | @relation shown head inner around headed fields =>
      cases around with
      | @around before after front back =>
          have shape : before ++ Relation.token head inner ++ after =
              before ++ (head ++ ('(' :: inner ++ ')' :: after)) := by
            simp [Relation.token]
          rw [shape]
          have begins : Text.Flat false before :=
            .of_unmarked (Text.not_mem_marks_of_isBlankText front)
          have ends : Text.Flat false after :=
            .of_unmarked (Text.not_mem_marks_of_isBlankText back)
          exact begins.append ((Text.Flat.of_unmarked headed.unmarked).append
            (.list fields.unmarked ends))

variable {terms : List Term} {pieces : List (List Char)}

theorem flat_of_written
    (each : List.Forall₂ (Term.Written IsName) (pieces.filter fun piece => !Text.isBlankText piece)
      terms) : ∀ piece ∈ pieces, Text.Flat false piece := by
  have visible := forall_mem_of_forall₂ each fun _ _ => Term.Written.flat
  intro piece listed
  cases blank : Text.isBlankText piece with
  | true => exact .of_unmarked (Text.not_mem_marks_of_isBlankText blank)
  | false => exact visible piece (List.mem_filter.mpr ⟨listed, by simp [blank]⟩)

/-- A text of the grammar is cut into the terms that it is written with. -/
theorem splitTopLevel_of_written
    (each : List.Forall₂ (Term.Written IsName) (pieces.filter fun piece => !Text.isBlankText piece)
      terms) :
    Text.splitTopLevel ([','].intercalate pieces) =
      pieces.filter fun piece => !Text.isBlankText piece := by
  cases pieces with
  | nil => rfl
  | cons piece rest =>
      have isPiece := fun other listed => (flat_of_written each other listed).isPiece
      rw [Text.splitTopLevel, Text.topPieces_intercalate isPiece (List.cons_ne_nil _ _)]

/-! ### Balance -/

/-- Only parentheses make a difference to the balance of a text. -/
theorem isBalanced_filter (depth : Nat) (text : List Char) :
    isBalanced depth (text.filter fun c => c == '(' || c == ')') = isBalanced depth text := by
  fun_induction isBalanced depth text with
  | case1 depth => rfl
  | case2 depth rest ih => exact ih
  | case3 => rfl
  | case4 rest _ outer ih => exact ih
  | case5 depth c rest opening closing ih =>
      rw [List.filter_cons_of_neg (by simp [opening, closing]), ih]

theorem filter_parentheses_eq_nil (opening : '(' ∉ text) (closing : ')' ∉ text) :
    (text.filter fun c => c == '(' || c == ')') = [] := by
  rw [List.filter_eq_nil_iff]
  intro c member paren
  rcases Bool.or_eq_true_iff.mp paren with same | same
  · exact opening (beq_iff_eq.mp same ▸ member)
  · exact closing (beq_iff_eq.mp same ▸ member)

/-- A part without parentheses makes no difference. -/
theorem isBalanced_append (opening : '(' ∉ text) (closing : ')' ∉ text) (depth : Nat)
    (rest : List Char) : isBalanced depth (text ++ rest) = isBalanced depth rest := by
  rw [← isBalanced_filter, List.filter_append, filter_parentheses_eq_nil opening closing,
    List.nil_append, isBalanced_filter]

theorem isBalanced_of_padded {padded : List Char} (around : Padded text padded) (depth : Nat) :
    isBalanced depth padded = isBalanced depth text := by
  cases around with
  | @around before after front back =>
      have paren {part : List Char} (blank : Text.isBlankText part = true) :=
        filter_parentheses_eq_nil (Text.not_mem_of_isBlankText (by decide) blank)
          (Text.not_mem_of_isBlankText (by decide) blank)
      rw [← isBalanced_filter, List.filter_append, List.filter_append, paren front, paren back,
        List.nil_append, List.append_nil, isBalanced_filter]

/-- The parentheses of a flat text are balanced. -/
theorem isBalanced_of_flat {commas : Bool} (flat : Text.Flat commas text) :
    isBalanced 0 text = true := by
  induction flat with
  | nil => rfl
  | @plain c rest allowed _ ih =>
      have opening : c ≠ '(' := Text.ne_of_allowed allowed (by decide) (by decide)
      have closing : c ≠ ')' := Text.ne_of_allowed allowed (by decide) (by decide)
      rw [isBalanced, if_neg opening, if_neg closing, ih]
  | @list inner rest listed _ ih =>
      have opening : '(' ∉ inner := Text.not_mem_of_listed listed (by decide) (by decide)
      have closing : ')' ∉ inner := Text.not_mem_of_listed listed (by decide) (by decide)
      have inside := isBalanced_append opening closing 1 (')' :: rest)
      exact inside.trans ih

end Projection

end TableGate

/-!
# Identifiers

An identifier is a letter or underscore followed by letters, digits and underscores, all of them
ASCII.  Names of tables, columns and relations reach a statement as identifiers only, so the main
fact, `isIdentifier_append`, is that the names derived from one are identifiers again.
-/

namespace TableGate

/-- A character that an identifier may start with. -/
def isIdentStart (c : Char) : Bool := c.isAlpha || c == '_'

/-- A character that an identifier may go on with. -/
def isIdentPart (c : Char) : Bool := c.isAlpha || c.isDigit || c == '_'

def isIdentChars : List Char → Bool
  | [] => false
  | first :: rest => isIdentStart first && rest.all isIdentPart

def isIdentifier (text : String) : Bool := isIdentChars text.toList

/-- A name that may stand in a statement. -/
structure Ident where
  text : String
  valid : isIdentifier text = true
deriving DecidableEq, Repr

/-- An identifier stays one when characters that may follow are added. -/
theorem isIdentifier_append {text added : String} (valid : isIdentifier text = true)
    (fitting : added.toList.all isIdentPart = true) : isIdentifier (text ++ added) = true := by
  unfold isIdentifier at valid ⊢
  rw [String.toList_append]
  cases shape : text.toList with
  | nil => simp [shape, isIdentChars] at valid
  | cons first rest =>
      simp only [shape, isIdentChars, Bool.and_eq_true] at valid
      simp only [isIdentChars, List.cons_append, List.all_append, Bool.and_eq_true]
      exact ⟨valid.1, valid.2, fitting⟩

namespace Ident

/-- The identifier with the given text, if the text is one. -/
def ofString? (text : String) : Option Ident :=
  if valid : isIdentifier text = true then some ⟨text, valid⟩ else none

/-- The primary key of every table. -/
def id : Ident := ⟨"id", by decide⟩

/-- The name with more characters that an identifier may go on with. -/
def extend (name : Ident) (added : String) (fitting : added.toList.all isIdentPart = true) :
    Ident :=
  ⟨name.text ++ added, isIdentifier_append name.valid fitting⟩

/-- The column that refers to the row of a relation. -/
def foreignKey (name : Ident) : Ident := name.extend "_id" (by decide)

/-- The name under which a relation's table is joined. -/
def slot (name : Ident) : Ident := name.extend "_rel" (by decide)

def quoted (name : Ident) : String := "\"" ++ name.text ++ "\""

/-- The name in double quotes, with its table's name before it. -/
def qualified (name qualifier : Ident) : String := qualifier.quoted ++ "." ++ name.quoted

/-- Identifiers with the same text are the same. -/
theorem eq_of_text {left right : Ident} (same : left.text = right.text) : left = right := by
  cases left
  cases right
  cases same
  rfl

/-- Reading the text of an identifier gives it back. -/
theorem ofString?_text (name : Ident) : ofString? name.text = some name := by
  simp [ofString?, name.valid]

/-- The identifier that is read has the text that it is read from. -/
theorem text_of_ofString? {text : String} {name : Ident} (read : ofString? text = some name) :
    name.text = text := by
  unfold ofString? at read
  split at read
  · cases read
    rfl
  · cases read

end Ident

end TableGate

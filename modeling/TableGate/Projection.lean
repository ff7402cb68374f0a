import TableGate.Error
import TableGate.Text.Cut

/-!
# Projections

What a request wants to see of each row: all columns, some columns, and relations, each with an
alias, a target table and the fields to show.  A projection is written as tokens separated by
commas: `*`, the name of a column, or `alias:target(field,…)`, where the alias may be left out if it
is the name of the target.
-/

namespace TableGate

/-- The fields of a relation that are shown. -/
inductive Fields
  | all
  | listed (names : List Ident)
deriving DecidableEq, Repr

/-- A related row that is shown under an alias. -/
structure Relation where
  /-- The alias: it names the foreign key and labels the row. -/
  name : Ident
  target : Ident
  fields : Fields
deriving DecidableEq, Repr

/-- What is shown of each row. -/
structure Projection where
  allColumns : Bool := false
  columns : List Ident := []
  relations : List Relation := []
deriving DecidableEq, Repr

/-- What is wrong with a projection, apart from names that are no identifiers. -/
inductive ProjectionFault
  | unbalanced (text : String)
  | trailingText (token : String)
  | noFields (name : Ident)
  | duplicateAlias (name : Ident)
deriving DecidableEq, Repr

def ProjectionFault.reason : ProjectionFault → String
  | .unbalanced text => "unbalanced parentheses in '" ++ text ++ "'"
  | .trailingText token => "trailing text after relation in '" ++ token ++ "'"
  | .noFields name => "relation '" ++ name.text ++ "' lists no fields"
  | .duplicateAlias name => "duplicate relation alias '" ++ name.text ++ "'"

def ProjectionFault.error (fault : ProjectionFault) : Error := .invalidProjection fault.reason

namespace Relation

/-- The alias and the target in front of a field list. -/
def parseHead (head : List Char) : Except Error (Ident × Ident) :=
  match Text.cutAt ':' head with
  | some (label, target) => do
      let name ← Ident.read (String.ofList (Text.trim label))
      let target ← Ident.read (String.ofList (Text.trim target))
      return (name, target)
  | none => do
      let target ← Ident.read (String.ofList (Text.trim head))
      return (target, target)

/-- The non-blank names of a field list, without the blanks around them. -/
def fieldNames (inner : List Char) : List (List Char) :=
  ((inner.splitOn ',').map Text.trim).filter fun name => !name.isEmpty

/-- The fields of a non-empty list of names: a star among them stands for all. -/
def parseFields (names : List (List Char)) : Except Error Fields :=
  if names.contains ['*'] then .ok .all
  else (names.mapM fun name => Ident.read (String.ofList name)).map .listed

/-- The relation of a token, given what stands before and after its first parenthesis. -/
def parse (token head rest : List Char) : Except Error Relation :=
  if rest.getLast? = some ')' then do
    let (name, target) ← parseHead head
    let names := fieldNames rest.dropLast
    if names.isEmpty then throw (ProjectionFault.noFields name).error
    let fields ← parseFields names
    return ⟨name, target, fields⟩
  else throw (ProjectionFault.trailingText (String.ofList token)).error

end Relation

namespace Projection

def hasRelations (projection : Projection) : Bool := !projection.relations.isEmpty

/-- Whether no parenthesis is closed that is not open, and `depth` open ones are all closed. -/
def isBalanced (depth : Nat) : List Char → Bool
  | [] => depth == 0
  | c :: rest =>
      if c = '(' then isBalanced (depth + 1) rest
      else if c = ')' then
        match depth with
        | 0 => false
        | outer + 1 => isBalanced outer rest
      else isBalanced depth rest

/-- The projection with one more token. -/
def addToken (projection : Projection) (token : List Char) : Except Error Projection :=
  if token = ['*'] then .ok { projection with allColumns := true }
  else
    match Text.cutAt '(' token with
    | some (head, rest) => do
        let relation ← Relation.parse token head rest
        if projection.relations.any fun present => present.name == relation.name then
          throw (ProjectionFault.duplicateAlias relation.name).error
        return { projection with relations := projection.relations ++ [relation] }
    | none => do
        let column ← Ident.read (String.ofList token)
        return { projection with columns := projection.columns ++ [column] }

/-- The projection of a text without blanks at its ends. -/
def ofChars (text : List Char) : Except Error Projection :=
  if isBalanced 0 text then ((Text.splitTopLevel text).map Text.trim).foldlM addToken {}
  else throw (ProjectionFault.unbalanced (String.ofList text)).error

/-- Read a projection; no text, or a blank one, asks for all columns. -/
def parse (select : Option String) : Except Error Projection :=
  let text := Text.trim (select.getD "").toList
  ofChars (if text.isEmpty then ['*'] else text)

end Projection

end TableGate

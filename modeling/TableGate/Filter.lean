import TableGate.Error
import TableGate.Query
import TableGate.Sql.Condition
import TableGate.Text.Cut

/-!
# Filters

A filter names a column, an operator and an operand.  Operands are bound as values; only the words
`true`, `false` and `null` after `eq` and `is` are literals of the statement.
-/

namespace TableGate

inductive Operator
  | eq | neq | gt | gte | lt | lte | like | ilike | is | oneOf
deriving DecidableEq, Repr

namespace Operator

def parse? : String → Option Operator
  | "eq" => some .eq
  | "neq" => some .neq
  | "gt" => some .gt
  | "gte" => some .gte
  | "lt" => some .lt
  | "lte" => some .lte
  | "like" => some .like
  | "ilike" => some .ilike
  | "is" => some .is
  | "in" => some .oneOf
  | _ => none

/-- Whether the operator may stand in a group of alternatives. -/
def allowedInGroup : Operator → Bool
  | .eq | .is | .gt | .gte | .lt | .lte => true
  | .neq | .like | .ilike | .oneOf => false

end Operator

/-- The words that stand for themselves. -/
inductive Literal
  | flag (value : Bool)
  | null
deriving DecidableEq, Repr

/-- The literal that an operand is. -/
def Literal.ofOperand? : String → Option Literal
  | "true" => some (.flag true)
  | "false" => some (.flag false)
  | "null" => some .null
  | _ => none

structure Filter where
  column : Ident
  operator : Operator
  operand : String
deriving DecidableEq, Repr

namespace Filter

/-- The items of a list operand: cut at the commas outside quotes and parentheses, without the
blanks and the quotes around them. -/
def listItems (operand : String) : List String :=
  (Text.splitTopLevel (Text.inner '(' ')' (Text.trim operand.toList))).map fun item =>
    String.ofList (Text.inner '"' '"' (Text.trim item))

/-- The condition of a filter, on the column of the given table. -/
def predicate (table : Option Ident) (filter : Filter) : Sql.Predicate :=
  let column : Sql.Column := ⟨table, filter.column⟩
  let compare (comparison : Sql.Comparison) : Sql.Predicate :=
    .compare column comparison (.ofOperand filter.operand)
  match filter.operator, Literal.ofOperand? filter.operand with
  | .eq, some .null => .isNull column
  | .is, some .null => .isNull column
  | .eq, some (.flag value) => .equalsFlag column value
  | .is, some (.flag value) => .isFlag column value
  | .is, none => .notDistinct column (.ofOperand filter.operand)
  | .oneOf, _ => .within column ((listItems filter.operand).map Datum.ofOperand)
  | .eq, none => compare .equal
  | .neq, _ => compare .unequal
  | .gt, _ => compare .greater
  | .gte, _ => compare .atLeast
  | .lt, _ => compare .less
  | .lte, _ => compare .atMost
  | .like, _ => compare .like
  | .ilike, _ => compare .ilike

/-- The filter of a parameter: none where its value names no operator. -/
def ofParameter (name value : String) : Except Error (Option Filter) := do
  let column ← Ident.read name
  match Text.cutAt '.' value.toList with
  | none => return none
  | some (operator, operand) =>
      return (Operator.parse? (String.ofList operator)).map fun operator =>
        ⟨column, operator, String.ofList operand⟩

/-- The column, the operator and the operand of an alternative, between its first two dots. -/
def cutAlternative? (text : List Char) : Option (List Char × List Char × List Char) := do
  let (column, rest) ← Text.cutAt '.' text
  let (operator, operand) ← Text.cutAt '.' rest
  return (column, operator, operand)

/-- The filter of an alternative: none where it lacks a part or its operator may not stand in a
group. -/
def ofAlternative (text : List Char) : Except Error (Option Filter) :=
  match cutAlternative? text with
  | none => .ok none
  | some (column, operator, operand) => do
      let column ← Ident.read (String.ofList (Text.trim column))
      return ((Operator.parse? (String.ofList operator)).filter Operator.allowedInGroup).map
        fun operator => ⟨column, operator, String.ofList operand⟩

end Filter

end TableGate

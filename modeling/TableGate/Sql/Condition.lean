import TableGate.Sql.Token

/-!
# Conditions

The conditions of a `WHERE` or `ON` clause.  A predicate compares one column with values; a
condition is a predicate or a group of alternatives, which is written in parentheses, so that
conditions can be joined by `AND` without regard to what they are.
-/

namespace TableGate.Sql

/-- A column, with its table's name before it or without. -/
structure Column where
  table : Option Ident
  name : Ident
deriving DecidableEq, Repr

def Column.tokens (column : Column) : Fragment :=
  match column.table with
  | some table => [.name table, .word .dot, .name column.name]
  | none => [.name column.name]

/-- How a column is compared with a value. -/
inductive Comparison
  | equal | unequal | greater | atLeast | less | atMost | like | ilike
deriving DecidableEq, Repr

def Comparison.word : Comparison → Word
  | .equal => .equal
  | .unequal => .unequal
  | .greater => .greater
  | .atLeast => .atLeast
  | .less => .less
  | .atMost => .atMost
  | .like => .like
  | .ilike => .ilike

/-- A condition on one column. -/
inductive Predicate
  | compare (column : Column) (comparison : Comparison) (value : Datum)
  | isNull (column : Column)
  | equalsFlag (column : Column) (flag : Bool)
  | isFlag (column : Column) (flag : Bool)
  | notDistinct (column : Column) (value : Datum)
  /-- The column has one of the values; never true where there are none. -/
  | within (column : Column) (values : List Datum)
deriving Repr

def Predicate.tokens : Predicate → Fragment
  | .compare column comparison value => column.tokens ++ [.word comparison.word, .value value]
  | .isNull column => column.tokens ++ [.word .isNull]
  | .equalsFlag column flag =>
      column.tokens ++ [.word (if flag then .equalsTrue else .equalsFalse)]
  | .isFlag column flag => column.tokens ++ [.word (if flag then .isTrue else .isFalse)]
  | .notDistinct column value => column.tokens ++ [.word .notDistinct, .value value]
  | .within _ [] => [.word .never]
  | .within column values =>
      column.tokens ++
        .word .within :: Fragment.enclosed (Fragment.list (values.map fun value => [.value value]))

/-- A predicate, or alternatives of which one has to hold. -/
inductive Condition
  | single (predicate : Predicate)
  | anyOf (alternatives : List Predicate)
deriving Repr

def Condition.tokens : Condition → Fragment
  | .single predicate => predicate.tokens
  | .anyOf alternatives =>
      Fragment.enclosed ([.word .either].intercalate (alternatives.map Predicate.tokens))

/-- The values of a condition, from left to right. -/
def Condition.values (condition : Condition) : List Datum := condition.tokens.values

/-- A `WHERE` clause, or nothing where there is no condition. -/
def whereClause : List Condition → Fragment
  | [] => []
  | conditions =>
      .word .filtered :: [.word .both].intercalate (conditions.map Condition.tokens)

end TableGate.Sql

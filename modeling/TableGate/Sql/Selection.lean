import TableGate.Projection
import TableGate.Tenant

/-!
# Selections

The columns of a select and the joins of its relations.  A relation's table is joined under a name
of its own, on the equality of its `id` with the foreign key that the alias names; a table that
belongs to tenants is pinned to the tenant in the same clause.  The joined row is shown as one
object, or as null where there is none.
-/

namespace TableGate.Sql

/-- A relation whose table has been resolved. -/
structure Join where
  relation : Relation
  tenant : Option TenantPredicate
deriving Repr

namespace Join

/-- The name that the relation's table is joined under. -/
def slot (join : Join) : Ident := join.relation.name.slot

/-- The join clause of a relation of the given table. -/
def clause (source : Ident) (join : Join) : Fragment :=
  [.word .joined, .name join.relation.target, .word .spaceBetween, .name join.slot,
    .word .matching] ++
  (Column.mk (some join.slot) .id).tokens ++ .word .equal ::
  (Column.mk (some source) join.relation.name.foreignKey).tokens ++
  match join.tenant with
  | some predicate => .word .both :: (predicate.on (some join.slot)).tokens
  | none => []

def object (join : Join) : Fragment :=
  match join.relation.fields with
  | .all => .word .rowToJson :: Fragment.enclosed [.name join.slot]
  | .listed names =>
      .word .buildObject :: Fragment.enclosed (Fragment.list (names.map fun name =>
        [.label name, .word .comma] ++ (Column.mk (some join.slot) name).tokens))

/-- The column that shows the joined row under the relation's alias. -/
def output (join : Join) : Fragment :=
  .word .whenNull :: (Column.mk (some join.slot) .id).tokens ++ .word .thenNull ::
    join.object ++ [.word .endAs, .name join.relation.name]

end Join

/-- The columns and the joins of a select from a table. -/
structure Selection where
  source : Ident
  allColumns : Bool
  columns : List Ident
  joins : List Join
deriving Repr

namespace Selection

def wholeRow (source : Ident) : Fragment := [.name source, .word .dot, .word .whole]

/-- The columns of the table itself: all of them where none is asked for. -/
def baseOutputs (selection : Selection) : List Fragment :=
  let named := selection.columns.map fun name => (Column.mk (some selection.source) name).tokens
  if selection.allColumns || selection.columns.isEmpty then wholeRow selection.source :: named
  else named

def outputs (selection : Selection) : List Fragment :=
  selection.baseOutputs ++ selection.joins.map Join.output

def clauses (selection : Selection) : List Fragment :=
  selection.joins.map (Join.clause selection.source)

/-- The columns, the table and the joins. -/
def tokens (selection : Selection) : Fragment :=
  .word .select :: Fragment.list selection.outputs ++
    [.word .source, .name selection.source] ++
    selection.clauses.flatMap fun clause => .word .spaceBetween :: clause

def relations (selection : Selection) : List (Ident × Relation) :=
  selection.joins.map fun join => (join.relation.name, join.relation)

end Selection

end TableGate.Sql

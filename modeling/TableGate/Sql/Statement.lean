import TableGate.Sql.Selection

/-!
# Statements

The four statements on a table.  The tenant's predicate stands apart from the filters of the
request, and comes first in the `WHERE` clause.
-/

namespace TableGate.Sql

/-- One column of the order of the rows. -/
structure OrderTerm where
  column : Ident
  descending : Bool
deriving DecidableEq, Repr

/-- How many rows a page has at most, and how many are left out before it. -/
structure Page where
  limit : Nat
  offset : Nat
deriving DecidableEq, Repr

/-- A select, of a page or of all the rows. -/
structure Select where
  selection : Selection
  tenant : Option TenantPredicate
  filters : List Condition
  order : List OrderTerm := []
  page : Option Page := none
deriving Repr

/-- An insert of rows; a cell without a value takes the default of its column. -/
structure Insert where
  table : Ident
  columns : List Ident
  rows : List (List (Option Datum))
deriving Repr

/-- An update of the rows that the filters select. -/
structure Update where
  table : Ident
  assignments : List (Ident × Datum)
  tenant : Option TenantPredicate
  filters : List Condition
deriving Repr

/-- A delete of the rows that the filters select. -/
structure Delete where
  table : Ident
  tenant : Option TenantPredicate
  filters : List Condition
deriving Repr

/-- A statement of one of the four kinds. -/
inductive Statement
  | select (statement : Select)
  | insert (statement : Insert)
  | update (statement : Update)
  | delete (statement : Delete)
deriving Repr

/-- The conditions of a statement: that of the tenant, if there is one, and the filters. -/
def conditions (table : Option Ident) (tenant : Option TenantPredicate)
    (filters : List Condition) : List Condition :=
  match tenant with
  | some predicate => .single (predicate.on table) :: filters
  | none => filters

/-- A column of the table, and the direction that rows are ordered in. -/
def OrderTerm.tokens (table : Ident) (term : OrderTerm) : Fragment :=
  (Column.mk (some table) term.column).tokens ++
    [.word (if term.descending then .descending else .ascending)]

/-- The clause of the order, if there is one. -/
def orderClause (table : Ident) : List OrderTerm → Fragment
  | [] => []
  | terms => .word .ordered :: Fragment.list (terms.map (OrderTerm.tokens table))

/-- The clauses of a page: no offset is written where no row is skipped. -/
def Page.tokens (page : Page) : Fragment :=
  [.word .limited, .numeral page.limit] ++
    if page.offset = 0 then [] else [.word .skipping, .numeral page.offset]

namespace Select

/-- The condition on the tenant, then those of the filters. -/
def conditions (select : Select) : List Condition :=
  Sql.conditions (some select.selection.source) select.tenant select.filters

/-- The selection, the conditions, the order and the page of a select. -/
def tokens (select : Select) : Fragment :=
  select.selection.tokens ++ whereClause select.conditions ++
    orderClause select.selection.source select.order ++
    (select.page.map Page.tokens).getD []

end Select

namespace Insert

/-- A cell that binds its value, or is left to the default of its column. -/
def cell : Option Datum → Fragment
  | some value => [.value value]
  | none => [.word .defaultCell]

/-- The tokens of an insert.  Where no column is given, one row of defaults is inserted. -/
def tokens (insert : Insert) : Fragment :=
  [.word .insertInto, .name insert.table] ++
    (match insert.columns with
    | [] => [.word .defaultValues]
    | columns =>
        .word .spaceBetween ::
        Fragment.enclosed (Fragment.list (columns.map fun name => [.name name])) ++
        .word .values ::
        Fragment.list
          (insert.rows.map fun row => Fragment.enclosed (Fragment.list (row.map cell)))) ++
    [.word .returning]

end Insert

namespace Update

/-- A column and the value that it is assigned. -/
def assignment : Ident × Datum → Fragment
  | (column, value) => [.name column, .word .equal, .value value]

/-- The condition on the tenant, then those of the filters; no column is qualified. -/
def conditions (update : Update) : List Condition :=
  Sql.conditions none update.tenant update.filters

/-- The assignments and the conditions of an update. -/
def tokens (update : Update) : Fragment :=
  [.word .update, .name update.table, .word .assigning] ++
    Fragment.list (update.assignments.map assignment) ++
    whereClause update.conditions ++ [.word .returning]

end Update

namespace Delete

/-- The condition on the tenant, then those of the filters; no column is qualified. -/
def conditions (delete : Delete) : List Condition :=
  Sql.conditions none delete.tenant delete.filters

/-- The conditions of a delete. -/
def tokens (delete : Delete) : Fragment :=
  [.word .deleteFrom, .name delete.table] ++ whereClause delete.conditions ++ [.word .returning]

end Delete

namespace Statement

/-- What a statement of any kind is made up of. -/
def tokens : Statement → Fragment
  | .select statement => statement.tokens
  | .insert statement => statement.tokens
  | .update statement => statement.tokens
  | .delete statement => statement.tokens

/-- The text of a statement, its placeholders numbered from one. -/
def text (statement : Statement) : String := Fragment.text 1 statement.tokens

/-- The values that a statement binds, in the order of its tokens. -/
def values (statement : Statement) : List Datum := statement.tokens.values

end Statement

end TableGate.Sql

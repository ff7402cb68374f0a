import TableGate.Compile.Filters
import TableGate.Sql.Statement

/-!
# Compiling reads

A projection becomes a selection when every relation's target is a table of the catalog that the
request may use.  There is a select of a page of the rows that the filters leave, and one of the
rows with given keys.  Both check the tenant first and share the selection, so rows that are read
again by their keys look like rows that are read.
-/

namespace TableGate.Compile

open Sql (Condition Join OrderTerm Page Select Selection)

/-! ### Relations -/

/-- The values that a join binds: the tenant, where the target belongs to tenants. -/
def joinValues (join : Join) : List Datum := (join.tenant.map TenantPredicate.value).toList

/-- Resolve the target of a relation. -/
def join (scope : Scope) (relation : Relation) : Except Error Join := do
  let target ← scope.table relation.target.text
  let tenant ← scope.enforce target
  return ⟨{ relation with target := target.name }, tenant⟩

/-- Resolve a projection: the columns of the table, and a join for each relation. -/
def selection (scope : Scope) (table : Table) (projection : Projection) : Outcome Selection :=
  let accept (relation : Relation) : Outcome (Option Join) :=
    (Outcome.ofCheck (join scope relation)).map some
  (acceptAll joinValues accept projection.relations).map fun joins =>
    ⟨table.name, projection.allColumns, projection.columns, joins⟩

/-! ### Selects -/

/-- One column of the order; only the exact word `desc` after the first dot sorts descending. -/
def orderTerm (token : List Char) : Except Error OrderTerm := do
  let (column, direction) := (Text.cutAt '.' token).getD (token, [])
  return ⟨← Ident.read (String.ofList column), direction == "desc".toList⟩

def order (query : Query) : Except Error (List OrderTerm) :=
  let tokens := ((query.order?.getD "").toList.splitOn ',').map Text.trim
  (tokens.filter fun token => !token.isEmpty).mapM orderTerm

/-- The page of the rows: never longer than the largest page. -/
def page (maxLimit : Nat) (query : Query) : Page :=
  ⟨min (query.limit?.getD maxLimit) maxLimit, query.offset?.getD 0⟩

def select (scope : Scope) (table : Table) (projection : Projection) (query : Query) :
    Except Error Select := do
  let tenant ← scope.enforce table
  let selection ← (selection scope table projection).toExcept
  let filters ← (filters (some table.name) query.pairs).toExcept
  let order ← order query
  return ⟨selection, tenant, filters, order, some (page scope.catalog.maxLimit query)⟩

/-- Compile the select of the rows with the given keys. -/
def selectByKeys (scope : Scope) (table : Table) (projection : Projection) (keys : List Datum) :
    Except Error Select := do
  let tenant ← scope.enforce table
  let selection ← (selection scope table projection).toExcept
  return { selection, tenant, filters := [.single (.within ⟨some table.name, .id⟩ keys)] }

end TableGate.Compile

import TableGate.Compile.Filters
import TableGate.Record
import TableGate.Sql.Statement
import TableGate.Tenant

/-!
# Compiling writes

Inserts, updates and deletes check the tenant first.  The tenant column of a table that belongs to
tenants is never taken from the body, an empty text is no foreign key, and rows are updated or
deleted only where a filter selects them.
-/

namespace TableGate.Compile

open Sql (Condition Delete Insert Update)

/-- The value of a field: an empty text in a column that refers to another row refers to none. -/
def fieldValue (name : String) (value : Json) : Datum :=
  match value with
  | .string "" => if "_id".toList.isSuffixOf name.toList then .null else .ofJson (.string "")
  | value => .ofJson value

/-- The columns and values of a record.  Every name has to be an identifier; null fields are left
out where `dropNulls` says so, and the tenant column always. -/
def assignments (tenant : Option TenantPredicate) (dropNulls : Bool) (record : Record) :
    Except Error (List (Ident × Datum)) := do
  let named ← record.fields.mapM fun (name, value) => return (← Ident.read name, value)
  let kept := named.filter fun (column, value) =>
    !(dropNulls && value.isNull) && tenant.map TenantPredicate.column != some column
  return kept.map fun (column, value) => (column, fieldValue column.text value)

/-- The columns and values of a row to insert: those of its record, and the tenant. -/
def rowAssignments (tenant : Option TenantPredicate) (record : Record) :
    Except Error (List (Ident × Datum)) := do
  let fields ← assignments tenant true record
  return fields ++ (tenant.map fun predicate => (predicate.column, predicate.value)).toList

/-- The members of a list in the order in which they are first seen, after those seen before. -/
def firstSeen {α : Type} [DecidableEq α] (seen : List α) (items : List α) : List α :=
  items.foldl (fun seen item => if item ∈ seen then seen else seen ++ [item]) seen

def insert (scope : Scope) (table : Table) (records : List Record) : Except Error Insert := do
  let tenant ← scope.enforce table
  if records.isEmpty then throw (.badRequest "insert body has no rows")
  let rows ← records.mapM (rowAssignments tenant)
  let columns := firstSeen [] (rows.flatMap fun row => row.map (·.1))
  if columns.isEmpty ∧ rows.length > 1 then throw (.badRequest "bulk insert rows have no fields")
  return ⟨table.name, columns, rows.map fun row => columns.map fun column => row.lookup column⟩

/-- The filters of a write, of which there has to be one. -/
def requiredFilters (action : String) (query : Query) : Except Error (List Condition) := do
  let filters ← (equalityFilters none query.pairs).toExcept
  if filters.isEmpty then throw (.missingFilter action)
  return filters

/-- Compile the update of the rows that the query selects.  The key of a row is never assigned. -/
def update (scope : Scope) (table : Table) (patch : Record) (query : Query) :
    Except Error Update := do
  let tenant ← scope.enforce table
  let fields ← assignments tenant false patch
  let assigned := fields.filter fun (column, _) => column != .id
  if assigned.isEmpty then throw (.emptyUpdateSet table.name.text)
  let filters ← requiredFilters ("update on " ++ table.name.text) query
  return ⟨table.name, assigned, tenant, filters⟩

/-- Compile the delete of the rows that the query selects. -/
def delete (scope : Scope) (table : Table) (query : Query) : Except Error Delete := do
  let tenant ← scope.enforce table
  let filters ← requiredFilters ("delete on " ++ table.name.text) query
  return ⟨table.name, tenant, filters⟩

end TableGate.Compile

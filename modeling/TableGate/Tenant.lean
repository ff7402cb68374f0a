import TableGate.Catalog
import TableGate.Sql.Condition

/-!
# Tenants

The tenant on whose behalf a request runs, and the scope of a request: the catalog together with its
tenant.  A table that belongs to tenants is only ever used with a predicate that pins its tenant
column; `enforce` gives that predicate, or refuses the table where the request has no tenant.
-/

namespace TableGate

/-- The tenant of one request.  Only a scoped context with a non-empty tenant is active. -/
structure TenantContext where
  tenantId : Option String := none
  isScoped : Bool := false
deriving DecidableEq, Repr

namespace TenantContext

def none : TenantContext := {}

def forTenant (tenantId : String) : TenantContext := ⟨some tenantId, true⟩

/-- The tenant, if the context is active. -/
def active? (context : TenantContext) : Option String :=
  if context.isScoped then context.tenantId.filter fun tenant => !tenant.isEmpty else Option.none

end TenantContext

/-- The condition that a row belongs to a tenant. -/
structure TenantPredicate where
  column : Ident
  tenantId : String
deriving DecidableEq, Repr

namespace TenantPredicate

/-- The tenant as a bound value: untyped text, whatever it looks like. -/
def value (predicate : TenantPredicate) : Datum := .text predicate.tenantId

/-- The condition on the tenant column of a table. -/
def on (predicate : TenantPredicate) (table : Option Ident) : Sql.Predicate :=
  .compare ⟨table, predicate.column⟩ .equal predicate.value

end TenantPredicate

/-- What a request may use: the tables of the catalog, on behalf of its tenant. -/
structure Scope where
  catalog : Catalog
  tenant : TenantContext

namespace Scope

def table (scope : Scope) (name : String) : Except Error Table := scope.catalog.lookup name

/-- The tenant predicate that the table has to be used with: none for a table that all tenants
share. -/
def enforce (scope : Scope) (table : Table) : Except Error (Option TenantPredicate) :=
  if table.tenantScoped then
    match scope.tenant.active? with
    | some tenantId => .ok (some ⟨scope.catalog.tenantColumn, tenantId⟩)
    | none => .error (.tenantRequired table.name.text)
  else .ok none

end Scope

end TableGate

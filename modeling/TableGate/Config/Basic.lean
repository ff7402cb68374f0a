import TableGate.Error

/-!
# Configuration

The settings of a gateway: which tables it serves, which of them belong to tenants, the column that
holds the tenant, and the limits of a page and of the connection pool.  `validate` states what makes
a configuration usable, naming the first fault.
-/

namespace TableGate

structure TableEntry where
  name : String
  tenantScoped : Bool := true
deriving DecidableEq, Repr

structure PoolSettings where
  maxConnections : Nat := 5
  acquireTimeoutSeconds : Nat := 5
deriving DecidableEq, Repr

/-- The settings of a gateway. -/
structure Config where
  tables : List TableEntry
  tenantColumn : String := "negocio_id"
  maxLimit : Nat := 1000
  pool : PoolSettings := {}
deriving DecidableEq, Repr

namespace Config

/-- The first fault of the tables, where the given names have been listed before. -/
def validateTables (listed : List String) : List TableEntry → Except ConfigError Unit
  | [] => .ok ()
  | entry :: rest =>
      if isIdentifier entry.name = false then .error (.invalidTableName entry.name)
      else if entry.name ∈ listed then .error (.duplicateTable entry.name)
      else validateTables (entry.name :: listed) rest

def validate (config : Config) : Except ConfigError Unit :=
  match validateTables [] config.tables with
  | .error fault => .error fault
  | .ok () =>
      if isIdentifier config.tenantColumn = false then
        .error (.tenantColumn config.tenantColumn)
      else if config.maxLimit = 0 then .error .zeroLimit
      else .ok ()

end Config

/-- The address of the store: the given setting, or a local one. -/
def databaseUrl (setting : Option String) : String :=
  setting.getD "postgres://localhost/negocios"

end TableGate

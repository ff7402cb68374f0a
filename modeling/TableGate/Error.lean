import TableGate.Ident

/-!
# Errors

Everything that can go wrong, by cause, with the message, the code and the HTTP status of each.  A
failure of the store is told apart by its SQLSTATE: integrity (class 23) and data (class 22) errors
are violations of a constraint, whatever else goes wrong is an error of the store.
-/

namespace TableGate

/-- What is wrong with a configuration. -/
inductive ConfigError
  /-- The name of a table is not an identifier. -/
  | invalidTableName (name : String)
  /-- A table is listed twice. -/
  | duplicateTable (name : String)
  /-- The text is missing or is not a configuration. -/
  | load (reason : String)
  /-- A setting has a value that cannot be used. -/
  | validation (reason : String)
deriving DecidableEq, Repr

namespace ConfigError

def message : ConfigError → String
  | .invalidTableName name => "invalid table name in config: '" ++ name ++ "'"
  | .duplicateTable name => "duplicate table in config: " ++ name
  | .load reason => "config load: " ++ reason
  | .validation reason => "validation: " ++ reason

def tenantColumn (column : String) : ConfigError :=
  .validation ("tenant_column '" ++ column ++ "' is not a valid identifier")

def zeroLimit : ConfigError := .validation "max_limit must be positive"

end ConfigError

/-- How the store, or the way to it, can fail. -/
inductive StoreError
  /-- The store rejected a statement, with its SQLSTATE if it gave one. -/
  | rejected (code : Option String) (text : String)
  | rowNotFound
  | poolTimedOut
  | poolClosed
  | workerCrashed
  | protocol (detail : String)
  | columnNotFound (name : String)
  /-- A row was returned that cannot be read. -/
  | undecodableRow (detail : String)
deriving DecidableEq, Repr

def StoreError.message : StoreError → String
  | .rejected _ text => "error returned from database: " ++ text
  | .rowNotFound => "no rows returned by a query that expected to return at least one row"
  | .poolTimedOut => "pool timed out while waiting for an open connection"
  | .poolClosed => "attempted to acquire a connection on a closed pool"
  | .workerCrashed => "attempted to communicate with a crashed background worker"
  | .protocol detail => "encountered unexpected or invalid data: " ++ detail
  | .columnNotFound name => "no column found for name: " ++ name
  | .undecodableRow detail => "error occurred while decoding column 0: " ++ detail

/-- Why a request fails. -/
inductive Error
  | config (cause : ConfigError)
  | invalidIdentifier (text : String)
  | unknownTable (name : String)
  | tenantRequired (table : String)
  | emptyUpdateSet (table : String)
  | missingFilter (action : String)
  | invalidProjection (reason : String)
  | constraintViolation (code text : String)
  | notFound (what : String)
  | badRequest (reason : String)
  | database (cause : StoreError)
deriving DecidableEq, Repr

namespace Error

def message : Error → String
  | .config cause => cause.message
  | .invalidIdentifier text => "invalid identifier: '" ++ text ++ "'"
  | .unknownTable name => "unknown table: " ++ name
  | .tenantRequired table => "tenant required for table " ++ table
  | .emptyUpdateSet table => "update on " ++ table ++ " has no columns to set"
  | .missingFilter action => action ++ " requires at least one equality filter"
  | .invalidProjection reason => "invalid select: " ++ reason
  | .constraintViolation code text => "constraint violation (" ++ code ++ "): " ++ text
  | .notFound what => "not found: " ++ what
  | .badRequest reason => "bad request: " ++ reason
  | .database cause => "database: " ++ cause.message

/-- Whether an SQLSTATE is of the class with the given two characters. -/
def isOfClass (characters : String) (code : String) : Bool :=
  characters.toList.isPrefixOf code.toList

/-- The HTTP status of a violated constraint, and its code. -/
def violation (code : String) : Nat × String :=
  if code = "23505" then (409, "unique_violation")
  else if code = "23503" then (400, "foreign_key_violation")
  else if code = "23502" then (400, "not_null_violation")
  else if isOfClass "22" code then (422, "invalid_value")
  else (400, "constraint_violation")

/-- The HTTP status of the error and the code that names it to the client. -/
def statusAndCode : Error → Nat × String
  | .config _ => (500, "config_error")
  | .invalidIdentifier _ => (400, "invalid_identifier")
  | .unknownTable _ => (404, "unknown_table")
  | .tenantRequired _ => (403, "tenant_required")
  | .emptyUpdateSet _ => (400, "empty_update_set")
  | .missingFilter _ => (400, "missing_filter")
  | .invalidProjection _ => (400, "invalid_select")
  | .constraintViolation code _ => violation code
  | .notFound _ => (404, "not_found")
  | .badRequest _ => (400, "bad_request")
  | .database .rowNotFound => (404, "not_found")
  | .database .poolTimedOut => (503, "pool_timeout")
  | .database _ => (500, "database_error")

def status (error : Error) : Nat := error.statusAndCode.1

def code (error : Error) : String := error.statusAndCode.2

/-- The error of a request whose statement failed. -/
def ofStore : StoreError → Error
  | .rejected (some code) text =>
      if isOfClass "23" code || isOfClass "22" code then .constraintViolation code text
      else .database (.rejected (some code) text)
  | cause => .database cause

end Error

/-- Read a name that a request gives. -/
def Ident.read (text : String) : Except Error Ident :=
  match Ident.ofString? text with
  | some name => .ok name
  | none => .error (.invalidIdentifier text)

end TableGate

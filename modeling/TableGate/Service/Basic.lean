import TableGate.Compile.Write
import TableGate.Service.Rehydrate

/-!
# The service

Reads and writes on the tables of a scope.  A statement is compiled before the store is used, so a
request whose statement cannot be compiled never reaches it.
-/

namespace TableGate

/-- What a write did: the rows it returned, and the rows to answer with. -/
structure WriteOutcome where
  returned : List Json
  rows : List Json
deriving Repr

/-- A write that is ready to be executed. -/
structure Write where
  statement : Sql.Statement
  table : Table
  /-- The projection of the rows to answer with; none where they are answered as returned. -/
  projection : Option Projection

namespace Write

/-- Execute a write, and read the written rows again where a projection asks for it. -/
def run (write : Write) (scope : Scope) (store : Store) : Exchange WriteOutcome :=
  store.acquire fun store =>
    (store.execute write.statement).andThen fun returned store =>
      match write.projection with
      | none => ⟨.ok ⟨returned, returned⟩, [], store⟩
      | some projection =>
          (Rehydrate.rows scope write.table projection returned store).map fun rows =>
            ⟨returned, rows⟩

end Write

namespace Service

/-- The select that a query asks for. -/
def prepareSelect (scope : Scope) (name : String) (query : Query) : Except Error Sql.Select := do
  let table ← scope.table name
  let projection ← Projection.parse query.select?
  Compile.select scope table projection query

/-- The insert that a body of records asks for. -/
def prepareInsert (scope : Scope) (name : String) (records : List Record) (query : Query) :
    Except Error Write := do
  let table ← scope.table name
  let projection ← Projection.parse query.select?
  return ⟨.insert (← Compile.insert scope table records), table, some projection⟩

/-- The update that a body of one record asks for. -/
def prepareUpdate (scope : Scope) (name : String) (patch : Record) (query : Query) :
    Except Error Write := do
  let table ← scope.table name
  let projection ← Projection.parse query.select?
  return ⟨.update (← Compile.update scope table patch query), table, some projection⟩

/-- The delete that a query asks for. -/
def prepareDelete (scope : Scope) (name : String) (query : Query) : Except Error Write := do
  let table ← scope.table name
  return ⟨.delete (← Compile.delete scope table query), table, none⟩

/-- Execute a write that could be prepared. -/
def runWrite (scope : Scope) (prepared : Except Error Write) (store : Store) :
    Exchange WriteOutcome :=
  match prepared with
  | .error error => .fail error store
  | .ok write => write.run scope store

def select (scope : Scope) (name : String) (query : Query) (store : Store) :
    Exchange (List Json) :=
  match prepareSelect scope name query with
  | .error error => .fail error store
  | .ok statement => store.acquire fun store => store.execute (.select statement)

def insert (scope : Scope) (name : String) (records : List Record) (query : Query)
    (store : Store) : Exchange WriteOutcome :=
  runWrite scope (prepareInsert scope name records query) store

def update (scope : Scope) (name : String) (patch : Record) (query : Query) (store : Store) :
    Exchange WriteOutcome :=
  runWrite scope (prepareUpdate scope name patch query) store

def delete (scope : Scope) (name : String) (query : Query) (store : Store) :
    Exchange WriteOutcome :=
  runWrite scope (prepareDelete scope name query) store

end Service

end TableGate

import TableGate.Config.Basic
import TableGate.Json.Interpretation

/-!
# Reading a configuration

A configuration is a JSON text.  Each record is an object, or an array of its fields in order, the
last of which may be left out if they have a default.  A member that is no field is ignored whatever
its value; a field given twice, or with a value of another type, is refused.
-/

namespace TableGate.Config

open Json (Document Scalar RawText)

/-- The values of a record's fields, in order, `none` for a field that is left out. -/
def recordFields? (names : List String) : Document → Option (List (Option Document))
  | .array items =>
      if items.length ≤ names.length then
        some (items.map some ++ List.replicate (names.length - items.length) none)
      else none
  | .object members => do
      let named ← members.mapM fun (text, value) => text.string?.map fun name => (name, value)
      if names.all fun name => (named.filter fun member => member.1 == name).length ≤ 1 then
        some (names.map fun name => named.lookup name)
      else none
  | .scalar _ => none

def text? : Document → Option String
  | .scalar (.text spelled) => spelled.string?
  | _ => none

def flag? : Document → Option Bool
  | .scalar (.bool value) => some value
  | _ => none

/-- The number of a field, below `bound`, written as a plain run of digits. -/
def number? (bound : Nat) : Document → Option Nat
  | .scalar (.numeral spelled) => spelled.naturalBelow? bound
  | _ => none

/-- The value of a field, or its default where it is left out. -/
def orDefault {α : Type} (default : α) (read? : Document → Option α) :
    Option Document → Option α
  | none => some default
  | some value => read? value

/-- A table of the configuration; it belongs to tenants unless it says that it does not. -/
def table? (document : Document) : Option TableEntry := do
  match ← recordFields? ["name", "tenant_scoped"] document with
  | [some name, owned] => return ⟨← text? name, ← orDefault true flag? owned⟩
  | _ => none

def tables? : Document → Option (List TableEntry)
  | .array items => items.mapM table?
  | _ => none

def pool? (document : Document) : Option PoolSettings := do
  let standard : PoolSettings := {}
  match ← recordFields? ["max_connections", "acquire_timeout_secs"] document with
  | [connections, timeout] =>
      return ⟨← orDefault standard.maxConnections (number? (Nat.pow 2 32)) connections,
        ← orDefault standard.acquireTimeoutSeconds (number? (Nat.pow 2 64)) timeout⟩
  | _ => none

/-- The configuration of a document. -/
def ofDocument? (document : Document) : Option Config := do
  let standard : Config := { tables := [] }
  match ← recordFields? ["tables", "tenant_column", "max_limit", "pool"] document with
  | [some tables, column, limit, pool] =>
      return ⟨← tables? tables, ← orDefault standard.tenantColumn text? column,
        ← orDefault standard.maxLimit (number? (Nat.pow 2 64)) limit,
        ← orDefault standard.pool pool? pool⟩
  | _ => none

def parse (text : String) : Except ConfigError Config :=
  match (Document.whole? text).bind ofDocument? with
  | some config => .ok config
  | none => .error (.load "the text is not a configuration")

/-- Read a configuration file, if there is one. -/
def load : Option String → Except ConfigError Config
  | some text => parse text
  | none => .error (.load "there is no configuration file")

end TableGate.Config

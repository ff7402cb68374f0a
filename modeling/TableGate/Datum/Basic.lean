import TableGate.Json.Printer
import TableGate.Datum.Uuid
import TableGate.Datum.Calendar

/-!
# Bound values

The values that are bound to the placeholders of a statement.  A JSON value is bound by its type; a
JSON text that spells a UUID, a moment or a date, tried in this order, is bound as one.  Operands of
a query are always bound as untyped text.
-/

namespace TableGate

/-- A value bound to a placeholder. -/
inductive Datum
  | null
  | bool (value : Bool)
  | integer (value : Int)
  | double (value : Double)
  /-- Text whose type the store infers from its context. -/
  | text (value : String)
  | uuid (value : Uuid)
  | timestamp (value : Timestamp)
  | date (value : Date)
  | json (value : Json)
deriving Repr, Inhabited

namespace Datum

/-- The value of a JSON text: a UUID, a moment or a date if it spells one. -/
def ofText (spelled : String) : Datum :=
  match Uuid.read? spelled with
  | some found => .uuid found
  | none =>
      match Timestamp.read? spelled with
      | some moment => .timestamp moment
      | none =>
          match Date.read? spelled with
          | some day => .date day
          | none => .text spelled

/-- The value of a JSON number: integers beyond the signed 64-bit range become the nearest
double. -/
def ofNumber : Json.Number → Datum
  | .integer value =>
      if -0x8000000000000000 ≤ value ∧ value < 0x8000000000000000 then .integer value
      else
        match Double.ofNat? (decide (value < 0)) value.natAbs with
        | some nearest => .double nearest
        | none => .text (String.ofList (Json.Number.integer value).text)
  | .double value => .double value

/-- The value of a field of a request body. -/
def ofJson : Json → Datum
  | .null => .null
  | .bool value => .bool value
  | .number value => ofNumber value
  | .string value => ofText value
  | .array items => .json (.array items)
  | .object members => .json (.object members)

/-- The value of an operand of a query: untyped text. -/
def ofOperand (operand : String) : Datum := .text operand

end Datum

end TableGate

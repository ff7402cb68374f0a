import TableGate.Compile.Read
import TableGate.Store

/-!
# Rehydration

Written rows are read again by their keys, so that the answer to a write shows the relations that
its projection asks for.  A row takes the place of the written row with the same key; a written row
whose key was not found stays as it was returned.  The main fact is `realign_length`: no row is lost
or added.
-/

namespace TableGate

/-- The text of a key: a text itself, any other value as JSON. -/
def Json.keyText : Json → String
  | .string key => key
  | value => value.text

/-- The key of a written row: none where the row has no `id` or a null one. -/
def Json.rowKey? (row : Json) : Option String :=
  ((row.field? "id").filter fun key => !key.isNull).map Json.keyText

namespace Rehydrate

/-- The rows by the text of their `id`, the last one first, so that it is the one found. -/
def keyed (fetched : List Json) : List (String × Json) :=
  (fetched.filterMap fun row => (row.field? "id").map fun key => (key.keyText, row)).reverse

/-- Put a fetched row in the place of each written row with its key; each fetched row is used
once. -/
def realign (fetched : List (String × Json)) : List (String × Json) → List Json
  | [] => []
  | (key, written) :: rest =>
      match fetched.lookup key with
      | some row => row :: realign (fetched.filter fun entry => entry.1 != key) rest
      | none => written :: realign fetched rest

theorem realign_length (fetched written : List (String × Json)) :
    (realign fetched written).length = written.length := by
  induction written generalizing fetched with
  | nil => rfl
  | cons entry rest ih =>
      obtain ⟨key, row⟩ := entry
      rw [realign]
      split <;> simp [ih]

/-- The written rows with the relations of the projection.  Rows are read again only if relations
are asked for and every written row has a key. -/
def rows (scope : Scope) (table : Table) (projection : Projection) (written : List Json)
    (store : Store) : Exchange (List Json) :=
  if projection.hasRelations = false ∨ written = [] then ⟨.ok written, [], store⟩
  else
    match written.mapM Json.rowKey? with
    | none => ⟨.ok written, [], store⟩
    | some keys =>
        match Compile.selectByKeys scope table projection (keys.map Datum.text) with
        | .error error => .fail error store
        | .ok select =>
            (store.execute (.select select)).map fun fetched =>
              realign (keyed fetched) (keys.zip written)

end Rehydrate

end TableGate

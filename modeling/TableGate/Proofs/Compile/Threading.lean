import TableGate.Proofs.Compile.Paging
import TableGate.Proofs.Compile.Rereading

/-!
# Statements drafted in order

A statement can be written as its parts are met.  A value is bound to the draft where it is met
(`Draft.push`), so the order of binding numbers the placeholders; each part is a text that holds
the placeholders of its values; and the text of the statement is put together when all parts are
there.  The tenants of the joins are bound first, then the tenant of the table, then the filters or
the keys; an update binds what it assigns before its conditions, and an insert binds cell by cell.

Work on a draft is compared with checks that are made without one, step by step
(`Drafting.run_bind`).  Texts that are written one after another are those of fragments in a row
(`Drafting.run_mapM`, `Drafting.run_filterMapM`).
-/

namespace TableGate

open Sql (Column Fragment)
open Compile (Outcome acceptAll assignments firstSeen rowAssignments)

/-- Work on a draft, which may be refused. -/
abbrev Drafting := StateT Draft (Except Error)

/-- The sign between a column and an operand. -/
def Operator.sign : Operator → String
  | .eq => "="
  | .neq => "<>"
  | .gt => ">"
  | .gte => ">="
  | .lt => "<"
  | .lte => "<="
  | .like => "LIKE"
  | .ilike => "ILIKE"
  | .is => "IS"
  | .oneOf => "IN"

namespace Drafting

variable (scope : Scope) (table : Table) (qualifier : Option Ident)

/-! ### Parts -/

/-- Bind a value; its placeholder. -/
def push (value : Datum) : Drafting String := modifyGet fun draft => (draft.push value).swap

/-- Bind a value, and write it after a column and the words between them. -/
def compared (column : Column) (words : String) (value : Datum) : Drafting String := do
  let placeholder ← push value
  return column.text ++ words ++ placeholder

/-- Bind values, and write that a column has one of them. -/
def within (column : Column) (values : List Datum) : Drafting String := do
  if values.isEmpty then return "FALSE"
  let placeholders ← values.mapM push
  return column.text ++ " IN (" ++ ", ".intercalate placeholders ++ ")"

/-- Bind the tenant, and write the condition that a row is the tenant's. -/
def tenant (predicate : TenantPredicate) : Drafting String :=
  compared ⟨qualifier, predicate.column⟩ " = " predicate.value

/-- Bind the operands of a filter, and write its condition. -/
def filter (filter : Filter) : Drafting String :=
  let column : Column := ⟨qualifier, filter.column⟩
  let operand := Datum.ofOperand filter.operand
  match filter.operator, Literal.ofOperand? filter.operand with
  | .eq, some .null => return column.text ++ " IS NULL"
  | .is, some .null => return column.text ++ " IS NULL"
  | .eq, some (.flag true) => return column.text ++ " = TRUE"
  | .eq, some (.flag false) => return column.text ++ " = FALSE"
  | .is, some (.flag true) => return column.text ++ " IS TRUE"
  | .is, some (.flag false) => return column.text ++ " IS FALSE"
  | .is, none => compared column " IS NOT DISTINCT FROM " operand
  | .oneOf, _ => within column ((Filter.listItems filter.operand).map Datum.ofOperand)
  | operator, _ => compared column (" " ++ operator.sign ++ " ") operand

/-- Write the condition of a filter that is read, if it is one. -/
def filterIfAny (read : Except Error (Option Filter)) : Drafting (Option String) := do
  (← read).mapM (filter qualifier)

/-- Write a group of alternatives, if any of them is left. -/
def group (text : String) : Drafting (Option String) := do
  let pieces := Text.splitTopLevel (Text.inner '(' ')' (Text.trim text.toList))
  let conditions ← pieces.filterMapM fun piece => filterIfAny qualifier (Filter.ofAlternative piece)
  if conditions.isEmpty then return none
  return some ("(" ++ " OR ".intercalate conditions ++ ")")

/-- Write the condition of one parameter of a read. -/
def readFilter (parameter : String × String) : Drafting (Option String) :=
  if parameter.1 = "or" then group qualifier parameter.2
  else if Query.isReserved parameter.1 then return none
  else filterIfAny qualifier (Filter.ofParameter parameter.1 parameter.2)

/-- Write the condition of one parameter of a write. -/
def writeFilter (parameter : String × String) : Drafting (Option String) :=
  if Query.isReserved parameter.1 then return none
  else
    filterIfAny qualifier ((Filter.ofParameter parameter.1 parameter.2).map fun found =>
      found.filter fun found => found.operator == .eq)

/-- Resolve the target of a relation, and write the join; a target that belongs to tenants binds the
tenant. -/
def join (source : Ident) (relation : Relation) : Drafting String := do
  let target ← scope.table relation.target.text
  let pinned ← scope.enforce target
  let keys := Relation.joinText source { relation with target := target.name }
  match pinned with
  | none => return keys
  | some predicate => return keys ++ " AND " ++ (← tenant (some relation.name.slot) predicate)

/-- Bind the value that a column is assigned. -/
def assignment (field : Ident × Datum) : Drafting String :=
  compared ⟨none, field.1⟩ " = " field.2

/-- Write a cell: the placeholder of its value, or the default. -/
def cell : Option Datum → Drafting String
  | some value => push value
  | none => return "DEFAULT"

/-- Write the cells of a row, column by column. -/
def row (columns : List Ident) (fields : List (Ident × Datum)) : Drafting String := do
  let cells ← columns.mapM fun column => cell (fields.lookup column)
  return "(" ++ ", ".intercalate cells ++ ")"

/-! ### Statements -/

/-- The clause of the order, if there is one. -/
def orderText (source : Ident) (terms : List Sql.OrderTerm) : String :=
  if terms.isEmpty then ""
  else
    " ORDER BY " ++ ", ".intercalate (terms.map fun term =>
      term.column.qualified source ++ if term.descending then " DESC" else " ASC")

/-- Bind the tenant, then the values of the filters, and write the clause of the conditions. -/
def whereClause (owner : Option TenantPredicate) (filters : Drafting (List String)) :
    Drafting String := do
  let pinned ← owner.toList.mapM (tenant qualifier)
  let conditions ← filters
  return Isolation.whereText (pinned ++ conditions)

/-- Draft a page of the rows that the filters leave. -/
def select (projection : Projection) (query : Query) : Drafting String := do
  let owner ← scope.enforce table
  let joins ← projection.relations.mapM (join scope table.name)
  let conditions ← whereClause (some table.name) owner
    (query.pairs.filterMapM (readFilter (some table.name)))
  let terms ← Compile.order query
  let page := Compile.page scope.catalog.maxLimit query
  return projection.openingText table.name joins ++ conditions ++ orderText table.name terms ++
    Sql.pageText page.limit page.skipped?

/-- Draft the select of the rows with the given keys. -/
def selectByKeys (projection : Projection) (keys : List Datum) : Drafting String := do
  let owner ← scope.enforce table
  let joins ← projection.relations.mapM (join scope table.name)
  let conditions ← whereClause (some table.name) owner
    (List.singleton <$> within ⟨some table.name, .id⟩ keys)
  return projection.openingText table.name joins ++ conditions

/-- Draft an insert of rows. -/
def insert (records : List Record) : Drafting String := do
  let owner ← scope.enforce table
  if records.isEmpty then throw (.badRequest "insert body has no rows")
  let rows ← (records.mapM (rowAssignments owner) : Except Error _)
  let columns := firstSeen [] (rows.flatMap fun row => row.map (·.1))
  if columns.isEmpty then
    if rows.length > 1 then throw (.badRequest "bulk insert rows have no fields")
    return "INSERT INTO " ++ table.name.quoted ++ " DEFAULT VALUES RETURNING *"
  let tuples ← rows.mapM (row columns)
  return "INSERT INTO " ++ table.name.quoted ++ " (" ++
    ", ".intercalate (columns.map Ident.quoted) ++ ") VALUES " ++ ", ".intercalate tuples ++
    " RETURNING *"

/-- Write the filters of a write, of which there has to be one. -/
def requiredFilters (action : String) (query : Query) : Drafting (List String) := do
  let filters ← query.pairs.filterMapM (writeFilter none)
  if filters.isEmpty then throw (.missingFilter action)
  return filters

/-- Draft the update of the rows that the query selects. -/
def update (patch : Record) (query : Query) : Drafting String := do
  let owner ← scope.enforce table
  let fields ← assignments owner false patch
  let assigned := fields.filter fun field => field.1 != .id
  if assigned.isEmpty then throw (.emptyUpdateSet table.name.text)
  let sets ← assigned.mapM assignment
  let conditions ← whereClause none owner
    (requiredFilters ("update on " ++ table.name.text) query)
  return "UPDATE " ++ table.name.quoted ++ " SET " ++ ", ".intercalate sets ++ conditions ++
    " RETURNING *"

/-- Draft the delete of the rows that the query selects. -/
def delete (query : Query) : Drafting String := do
  let owner ← scope.enforce table
  let conditions ← whereClause none owner
    (requiredFilters ("delete on " ++ table.name.text) query)
  return "DELETE FROM " ++ table.name.quoted ++ conditions ++ " RETURNING *"

/-! ### Steps -/

section

variable {draft : Draft}

/-- A check leaves the draft as it is. -/
theorem run_check {α : Type} (check : Except Error α) (draft : Draft) :
    (liftM check : Drafting α).run draft = check.map fun found => (found, draft) := by
  cases check <;> rfl

/-- Steps on a draft that give what checks give, each in its own way, do so one after another. -/
theorem run_bind {α β γ δ : Type} {step : Drafting α} {next : α → Drafting γ}
    {check : Except Error β} {other : β → Except Error δ} {view : β → α × Draft}
    {change : δ → γ × Draft} (head : step.run draft = check.map view)
    (tail : ∀ found, check = .ok found →
      (next (view found).1).run (view found).2 = (other found).map change) :
    (step >>= next).run draft = (check >>= other).map change := by
  rw [StateT.run_bind, head]
  cases check with
  | error error => rfl
  | ok found => exact tail found rfl

/-- A step that succeeds goes on with what it gives, on the draft that it leaves. -/
theorem run_bind_ok {α β : Type} {step : Drafting α} {next : α → Drafting β} {drafted : α × Draft}
    (head : step.run draft = .ok drafted) :
    (step >>= next).run draft = (next drafted.1).run drafted.2 := by
  rw [StateT.run_bind, head]
  rfl

/-- What is refused before a step is refused before a check. -/
theorem run_guard {α β : Type} {refused : Prop} [Decidable refused] {error : Error}
    {next : Drafting α} {other : Except Error β} {change : β → α × Draft}
    (tail : next.run draft = other.map change) :
    StateT.run (do if refused then throw error
                   next) draft =
      Except.map change (do if refused then throw error
                            other) := by
  by_cases check : refused
  · simp only [check, ↓reduceIte]
    rfl
  · simpa only [check, ↓reduceIte] using tail

/-- Parts that are written one after another are placed in a row. -/
theorem run_mapM {α β : Type} {step : α → Drafting String} {check : α → Except Error β}
    {part : β → Fragment}
    (each : ∀ item draft, (step item).run draft =
      (check item).map fun found => draft.write (part found))
    (items : List α) (draft : Draft) :
    (items.mapM step).run draft =
      (items.mapM check).map fun found => (draft.place (found.map part)).swap := by
  induction items generalizing draft with
  | nil =>
      change _ = Except.ok (draft.place []).swap
      rw [List.mapM_nil, StateT.run_pure, Draft.place_nil]
      rfl
  | cons item rest ih =>
      rw [List.mapM_cons, List.mapM_cons, StateT.run_bind, each]
      cases check item with
      | error error => rfl
      | ok found =>
          change (do
            let drafted ← (rest.mapM step).run (draft.write (part found)).2
            pure ((draft.write (part found)).1 :: drafted.1, drafted.2)) = _
          rw [ih]
          cases rest.mapM check with
          | error error => rfl
          | ok others =>
              change _ = Except.ok (draft.place (part found :: others.map part)).swap
              rw [Draft.place_cons]
              rfl

/-- Parts that are never refused are placed in a row. -/
theorem run_mapM_ok {α : Type} {step : α → Drafting String} {part : α → Fragment}
    (each : ∀ item draft, (step item).run draft = .ok (draft.write (part item)))
    (items : List α) (draft : Draft) :
    (items.mapM step).run draft = .ok (draft.place (items.map part)).swap := by
  have checked (item : α) (draft : Draft) : (step item).run draft =
      (pure item : Except Error α).map fun found => draft.write (part found) := each item draft
  rw [run_mapM checked, List.mapM_pure, List.map_id']
  rfl

/-- Parts that are written one after another, or left out, are placed in a row. -/
theorem run_filterMapM {α β : Type} {step : α → Drafting (Option String)}
    {accept : α → Outcome (Option β)} {part : β → Fragment} (values : β → List Datum)
    (each : ∀ item draft, (step item).run draft =
      (accept item).toExcept.map fun found => draft.writeAny (found.map part))
    (items : List α) (draft : Draft) :
    (items.filterMapM step).run draft =
      (acceptAll values accept items).toExcept.map fun found =>
        (draft.place (found.map part)).swap := by
  induction items generalizing draft with
  | nil =>
      change _ = Except.ok (draft.place []).swap
      rw [List.filterMapM_nil, StateT.run_pure, Draft.place_nil]
      rfl
  | cons item rest ih =>
      rw [List.filterMapM_cons, StateT.run_bind, each, acceptAll]
      cases accept item with
      | error refusal => rfl
      | ok found =>
          cases found with
          | none =>
              -- an item that is left out leaves the draft as it is
              exact ih draft
          | some accepted =>
              change (do
                let drafted ← (rest.filterMapM step).run (draft.write (part accepted)).2
                pure ((draft.write (part accepted)).1 :: drafted.1, drafted.2)) = _
              rw [ih]
              dsimp only
              cases acceptAll values accept rest with
              | error refusal => rfl
              | ok others =>
                  change _ = Except.ok (draft.place (part accepted :: others.map part)).swap
                  rw [Draft.place_cons]
                  rfl

end

end Drafting

end TableGate

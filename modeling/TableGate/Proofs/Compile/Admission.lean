import Mathlib.Data.List.Nodup
import TableGate.Proofs.Compile.Assignment
import TableGate.Proofs.Compile.Parameter
import TableGate.Proofs.Statement.Layout

/-!
# Which writes are compiled

An update or a delete is compiled exactly where its checks pass, made in a fixed order
(`deleteChecks`, `updateChecks`), the first failure deciding the error.  What is compiled is never
without a filter: its conditions are the tenant's and the equalities that the query asks for, of
which there is one at least (`Selects`).  The main theorem is `writes_admitted`.
-/

namespace TableGate

open Sql (Condition placeholder)

/-- An update may assign the column of a name, which is neither the key nor holds the tenant. -/
def Scope.assignable (scope : Scope) (table : Table) (name : String) : Bool :=
  name != "id" && !scope.reserves table name

namespace Compile

variable {scope : Scope} {table : Table} {query : Query} {patch : Record}
  {tenant : Option TenantPredicate}

/-! ### What is asked of a write -/

/-- What a delete needs: a table that may be used, names of columns, and a filter. -/
structure DeleteAllowed (scope : Scope) (table : Table) (query : Query) : Prop where
  usable : MayUse scope table
  filtersNamed : ∀ name ∈ query.filterNames, isIdentifier name = true
  filtered : ∃ parameter ∈ query.pairs, Query.asksEquality parameter = true

/-- What an update needs: names of columns for its fields, and a field to assign, besides what a
delete needs. -/
structure UpdateAllowed (scope : Scope) (table : Table) (patch : Record) (query : Query) : Prop
    extends DeleteAllowed scope table query where
  fieldsNamed : ∀ name ∈ patch.names, isIdentifier name = true
  assigning : ∃ name ∈ patch.names, scope.assignable table name = true

/-- An update has to assign something. -/
def Check.assignment (scope : Scope) (table : Table) (patch : Record) : Check :=
  .of (∀ name ∈ patch.names, scope.assignable table name = false)
    (.emptyUpdateSet table.name.text)

/-- The checks of the filters of a write. -/
def filterChecks (action : String) (query : Query) : List Check :=
  query.filterNames.map .name ++ [.filter action query]

/-- The checks of a delete, in their order. -/
def deleteChecks (scope : Scope) (table : Table) (query : Query) : List Check :=
  .tenant scope table :: filterChecks ("delete on " ++ table.name.text) query

/-- The checks of an update, in their order. -/
def updateChecks (scope : Scope) (table : Table) (patch : Record) (query : Query) : List Check :=
  .tenant scope table :: (patch.names.map .name ++
    .assignment scope table patch :: filterChecks ("update on " ++ table.name.text) query)

theorem passes_filterChecks_iff {action : String} :
    (∀ check ∈ filterChecks action query, check.Passes) ↔
      (∀ name ∈ query.filterNames, isIdentifier name = true) ∧
        ∃ parameter ∈ query.pairs, Query.asksEquality parameter = true := by
  simp [filterChecks, or_imp, forall_and, passes_name_iff, Check.filter, Check.passes_of_iff]

theorem passes_deleteChecks_iff :
    (∀ check ∈ deleteChecks scope table query, check.Passes) ↔
      DeleteAllowed scope table query := by
  rw [deleteChecks, List.forall_mem_cons, passes_tenant_iff, passes_filterChecks_iff]
  constructor
  · rintro ⟨usable, filtersNamed, filtered⟩
    exact { usable, filtersNamed, filtered }
  · exact fun allowed => ⟨allowed.usable, allowed.filtersNamed, allowed.filtered⟩

theorem passes_updateChecks_iff :
    (∀ check ∈ updateChecks scope table patch query, check.Passes) ↔
      UpdateAllowed scope table patch query := by
  have assigning : (Check.assignment scope table patch).Passes ↔
      ∃ name ∈ patch.names, scope.assignable table name = true := by
    simp [Check.assignment, Check.passes_of_iff]
  rw [updateChecks, List.forall_mem_cons, List.forall_mem_append, List.forall_mem_cons,
    passes_tenant_iff, passes_filterChecks_iff, passes_names_iff, assigning]
  constructor
  · rintro ⟨usable, fieldsNamed, assigning, filtersNamed, filtered⟩
    exact { usable, fieldsNamed, assigning, filtersNamed, filtered }
  · intro allowed
    exact ⟨allowed.usable, allowed.fieldsNamed, allowed.assigning, allowed.filtersNamed,
      allowed.filtered⟩

/-! ### Assignments of an update -/

/-- An update assigns the fields that it may assign, nulls included. -/
theorem forall₂_of_patch {fields : List (Ident × Datum)}
    (enforced : scope.enforce table = .ok tenant)
    (read : assignments tenant false patch = .ok fields) :
    List.Forall₂ Assigns (patch.fields.filter fun field => scope.assignable table field.1)
      (fields.filter fun (column, _) => column != .id) := by
  -- The key is left out after the fields are read; on the fields the two filters are one.
  have kept : (patch.fields.filter fun field => scope.assignable table field.1) =
      (assignedFields scope table false patch).filter fun field => field.1 != "id" := by
    rw [assignedFields, List.filter_filter]
    rfl
  rw [kept]
  refine List.rel_filter ?_ (forall₂_of_assignments enforced read)
  rintro field ⟨column, value⟩ assigns
  have named : column.text = field.1 := assigns.name
  change (field.1 != "id") = true ↔ (column != Ident.id) = true
  rw [bne_iff_ne, bne_iff_ne, ← named, not_iff_not]
  exact ⟨fun same => Ident.eq_of_text same, fun same => congrArg Ident.text same⟩

theorem nodup_of_patch {assigned : List (Ident × Datum)} {kept : String × Json → Bool}
    (assigns : List.Forall₂ Assigns (patch.fields.filter kept) assigned) :
    (assigned.map Prod.fst).Nodup := by
  have distinct : ((patch.fields.filter kept).map Prod.fst).Nodup :=
    patch.nodup_names.sublist (List.filter_sublist.map Prod.fst)
  rw [← names_of_forall₂ assigns] at distinct
  exact List.Nodup.of_map _ distinct

/-! ### Checks -/

theorem makes_delete (scope : Scope) (table : Table) (query : Query) :
    Makes (deleteChecks scope table query) (delete scope table query) := by
  refine (makes_enforce scope table).bind fun tenant _ => ?_
  exact (makes_requiredFilters _ query).map _

theorem makes_update (scope : Scope) (table : Table) (patch : Record) (query : Query) :
    Makes (updateChecks scope table patch query) (update scope table patch query) := by
  refine (makes_enforce scope table).bind fun tenant enforced => ?_
  refine (makes_assignments tenant false patch).bind fun fields read => ?_
  refine Makes.guard ?_ ((makes_requiredFilters _ query).map _)
  have counts := (forall₂_of_patch enforced read).length_eq
  rw [List.isEmpty_iff_length_eq_zero, ← counts, List.length_eq_zero_iff, List.filter_eq_nil_iff]
  simp [Record.names]

/-! ### Conditions of a write -/

/-- The condition that the rows are those of the tenant, in a table that belongs to tenants. -/
inductive Pins (scope : Scope) (table : Table) : List Condition → Prop
  | shared (free : table.tenantScoped = false) : Pins scope table []
  | tenant {tenantId : String} (owned : table.tenantScoped = true)
      (active : scope.tenant.active? = some tenantId) :
      Pins scope table
        [.single (.compare ⟨none, scope.catalog.tenantColumn⟩ .equal (.text tenantId))]

/-- The conditions that select the rows of a write: the tenant's, and the equalities that the query
asks for, of which there is one at least. -/
inductive Selects (scope : Scope) (table : Table) (query : Query) : List Condition → Prop
  | filtered {pinned equalities : List Condition} (pins : Pins scope table pinned)
      (asked : List.Forall₂ Condition.AskedBy (query.pairs.filter Query.asksEquality) equalities)
      (present : equalities ≠ []) : Selects scope table query (pinned ++ equalities)

theorem Selects.ne_nil {conditions : List Condition}
    (selects : Selects scope table query conditions) : conditions ≠ [] := by
  cases selects with
  | filtered pins asked present => exact List.append_ne_nil_of_right_ne_nil _ present

theorem selects_of_equalityFilters {filters : List Condition}
    (enforced : scope.enforce table = .ok tenant)
    (compiled : equalityFilters none query.pairs = .ok filters) (present : filters ≠ []) :
    Selects scope table query (Sql.conditions none tenant filters) := by
  have asked := forall₂_of_equalityFilters compiled
  rcases Scope.enforce_eq_ok enforced with ⟨free, rfl⟩ | ⟨owned, tenantId, active, rfl⟩
  · exact .filtered (.shared free) asked present
  · exact .filtered (.tenant owned active) asked present

/-! ### Statements -/

/-- A delete of the rows that the query selects. -/
structure Deletes (scope : Scope) (table : Table) (query : Query) (statement : Sql.Statement)
    (conditions : List Condition) : Prop where
  selects : Selects scope table query conditions
  text : statement.text = "DELETE FROM " ++ table.name.quoted ++ " WHERE " ++
    " AND ".intercalate (Sql.Fragment.texts 1 (conditions.map Condition.tokens)) ++ " RETURNING *"
  values : statement.values = conditions.flatMap Condition.values

/-- An update of the rows that the query selects, which assigns each field of the patch once that
it may assign. -/
structure Updates (scope : Scope) (table : Table) (patch : Record) (query : Query)
    (statement : Sql.Statement) (assigned : List (Ident × Datum)) (conditions : List Condition) :
    Prop where
  assigns : List.Forall₂ Assigns (patch.fields.filter fun field => scope.assignable table field.1)
    assigned
  once : (assigned.map Prod.fst).Nodup
  selects : Selects scope table query conditions
  text : statement.text = "UPDATE " ++ table.name.quoted ++ " SET " ++
    ", ".intercalate (assigned.mapIdx fun index assignment =>
      assignment.1.quoted ++ " = " ++ placeholder (index + 1)) ++ " WHERE " ++
    " AND ".intercalate
      (Sql.Fragment.texts (assigned.length + 1) (conditions.map Condition.tokens)) ++
    " RETURNING *"
  values : statement.values = assigned.map Prod.snd ++ conditions.flatMap Condition.values

theorem deletes_of_compiled {statement : Sql.Delete}
    (compiled : delete scope table query = .ok statement) :
    ∃ conditions, Deletes scope table query (.delete statement) conditions := by
  obtain ⟨tenant, filters, enforced, accepted, present, rfl⟩ := delete_eq_ok compiled
  have selects := selects_of_equalityFilters enforced accepted present
  refine ⟨Sql.conditions none tenant filters, selects, ?_, Sql.Delete.values_tokens _⟩
  refine (Sql.Delete.text_tokens _).trans ?_
  rw [Sql.Delete.conditions, Sql.text_whereClause selects.ne_nil]
  simp only [String.append_assoc]

theorem updates_of_compiled {statement : Sql.Update}
    (compiled : update scope table patch query = .ok statement) :
    ∃ assigned conditions,
      Updates scope table patch query (.update statement) assigned conditions := by
  obtain ⟨tenant, fields, filters, enforced, read, accepted, present, rfl⟩ := update_eq_ok compiled
  have selects := selects_of_equalityFilters enforced accepted present
  have assigns := forall₂_of_patch enforced read
  refine ⟨_, Sql.conditions none tenant filters, assigns, nodup_of_patch assigns, selects, ?_, ?_⟩
  · refine (Sql.Update.text_tokens _).trans ?_
    rw [Sql.Update.conditions, Sql.text_whereClause selects.ne_nil, Sql.texts_assignments,
      Sql.values_assignments, List.length_map, Nat.add_comm 1]
    simp only [String.append_assoc, Nat.add_comm 1]
  · refine (Sql.Update.values_tokens _).trans ?_
    rw [Sql.values_assignments]
    rfl

/-- A delete and an update are compiled exactly where they are allowed, and refused with the error
of the first check that fails.  Their statements select rows by one equality at least besides the
tenant, and an update assigns what it may. -/
theorem writes_admitted (scope : Scope) (table : Table) (query : Query) :
    Admits (delete scope table query) (DeleteAllowed scope table query)
        (deleteChecks scope table query)
        (fun statement => ∃ conditions, Deletes scope table query (.delete statement) conditions) ∧
      ∀ patch, Admits (update scope table patch query) (UpdateAllowed scope table patch query)
        (updateChecks scope table patch query)
        (fun statement => ∃ assigned conditions,
          Updates scope table patch query (.update statement) assigned conditions) := by
  constructor
  · have makes := makes_delete scope table query
    exact makes.admits passes_deleteChecks_iff fun _ => deletes_of_compiled
  · intro patch
    have makes := makes_update scope table patch query
    exact makes.admits passes_updateChecks_iff fun _ => updates_of_compiled

/-- A table of shifts, each of which belongs to a tenant. -/
def shiftTable : Table := ⟨⟨"shifts", by decide⟩, true⟩

/-- A patch with a null, no team, and two fields that no update assigns. -/
def shiftPatch : Record :=
  .ofFields [("tenant_id", .string "south"), ("team_id", .string ""), ("note", .null),
    ("id", .string "7")]

/-- Parameters of which one is reserved, one asks for something else and one for equality. -/
def shiftQuery : Query := ⟨[("order", "eq.1"), ("state", "neq.open"), ("room", "eq.null")]⟩

theorem writes_admitted_shifts :
    UpdateAllowed ⟨.ofTable shiftTable, .forTenant "north"⟩ shiftTable shiftPatch shiftQuery ∧
      ((update ⟨.ofTable shiftTable, .forTenant "north"⟩ shiftTable shiftPatch shiftQuery).map
          fun statement => (Sql.Statement.update statement).text).toOption =
        some ("UPDATE \"shifts\" SET \"note\" = $1, \"team_id\" = $2 WHERE \"tenant_id\" = $3 " ++
          "AND \"room\" IS NULL RETURNING *") ∧
      update ⟨.ofTable shiftTable, .none⟩ shiftTable (.ofFields [("1st", .null)])
          ⟨[("x y", "eq.")]⟩ = .error (.tenantRequired "shifts") := by
  obtain ⟨-, updates⟩ :=
    writes_admitted ⟨.ofTable shiftTable, .forTenant "north"⟩ shiftTable shiftQuery
  obtain ⟨-, barred⟩ :=
    writes_admitted ⟨.ofTable shiftTable, .none⟩ shiftTable ⟨[("x y", "eq.")]⟩
  have text : ((update ⟨.ofTable shiftTable, .forTenant "north"⟩ shiftTable shiftPatch
      shiftQuery).map fun statement => (Sql.Statement.update statement).text).toOption =
        some ("UPDATE \"shifts\" SET \"note\" = $1, \"team_id\" = $2 WHERE \"tenant_id\" = $3 " ++
          "AND \"room\" IS NULL RETURNING *") := by
    decide +kernel
  obtain ⟨statement, compiled, -⟩ := exists_ok_of_toOption text
  have refused := (barred (.ofFields [("1st", .null)])).refused (.tenantRequired "shifts")
  exact ⟨(updates shiftPatch).succeeds.mp ⟨statement, compiled⟩, text,
    refused.mpr (.here ⟨⟨rfl, rfl⟩, rfl⟩)⟩

end Compile

end TableGate

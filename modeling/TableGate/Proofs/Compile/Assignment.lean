import Mathlib.Data.List.Forall2
import TableGate.Proofs.Compile.Check
import TableGate.Proofs.Compile.Naming

/-!
# Assignments of a write

A body assigns its fields one by one, in the order of their names (`forall₂_of_assignments`): the
tenant's column is left out, an empty text is no foreign key, and any other value is bound as it is
(`Binds`).  The names of all fields have to be identifiers, whether they are left out or not
(`makes_assignments`).
-/

namespace TableGate

/-- The column of a name holds the tenant, in a table that belongs to tenants. -/
def Scope.reserves (scope : Scope) (table : Table) (name : String) : Bool :=
  table.tenantScoped && name == scope.catalog.tenantColumn.text

theorem Scope.reserves_iff {scope : Scope} {table : Table} {column : Ident} :
    scope.reserves table column.text = true ↔
      table.tenantScoped = true ∧ column = scope.catalog.tenantColumn := by
  rw [reserves, Bool.and_eq_true, beq_iff_eq]
  exact and_congr_right fun _ => ⟨Ident.eq_of_text, congrArg Ident.text⟩

theorem Json.charsBefore_irrefl (text : List Char) : charsBefore text text = false := by
  induction text with
  | nil => rfl
  | cons c rest ih => simp [charsBefore, ih]

/-- A record gives each name once. -/
theorem Record.nodup_names (record : Record) : record.names.Nodup := by
  refine List.pairwise_map.mpr (record.sorted.imp fun {left right} before same => ?_)
  rw [same, Json.isBefore, Json.charsBefore_irrefl] at before
  exact absurd before nofun

namespace Compile

/-- What is bound for the value of a field: an empty text refers to nothing in a field whose name
ends in `_id`, any other value stands for itself. -/
inductive Binds (name : String) : Json → Datum → Prop
  | nothing (refers : "_id".toList <:+ name.toList) : Binds name (.string "") .null
  | value {value : Json} (other : ¬ ("_id".toList <:+ name.toList ∧ value = .string "")) :
      Binds name value (.ofJson value)

theorem binds_fieldValue (name : String) (value : Json) :
    Binds name value (fieldValue name value) := by
  unfold fieldValue
  split
  · split
    · next refers => exact .nothing (List.isSuffixOf_iff_suffix.mp refers)
    · next apart => exact .value fun both => apart (List.isSuffixOf_iff_suffix.mpr both.1)
  · next full => exact .value fun both => full both.2

/-- A column is assigned the value of a field. -/
structure Assigns (field : String × Json) (assignment : Ident × Datum) : Prop where
  name : assignment.1.text = field.1
  value : Binds field.1 field.2 assignment.2

variable {scope : Scope} {table : Table} {tenant : Option TenantPredicate} {record : Record}
  {dropNulls : Bool} {fields : List (String × Json)} {assigned : List (Ident × Datum)}

theorem names_of_forall₂ (assigns : List.Forall₂ Assigns fields assigned) :
    (assigned.map Prod.fst).map Ident.text = fields.map Prod.fst := by
  induction assigns with
  | nil => rfl
  | cons first _ ih => rw [List.map_cons, List.map_cons, List.map_cons, ih, first.name]

/-- The predicate of the tenant is on the column that is reserved for it. -/
theorem reserves_of_enforce (enforced : scope.enforce table = .ok tenant) (column : Ident) :
    (tenant.map TenantPredicate.column != some column) = !scope.reserves table column.text := by
  rw [Bool.eq_iff_iff, bne_iff_ne, Bool.not_eq_true', ← Bool.not_eq_true, Scope.reserves_iff]
  rcases Scope.enforce_eq_ok enforced with ⟨shared, rfl⟩ | ⟨owned, tenantId, -, rfl⟩
  · simp [shared]
  · simp [owned, eq_comm]

/-- The fields that a record assigns: not the tenant's column, and nulls only where they count. -/
def assignedFields (scope : Scope) (table : Table) (dropNulls : Bool) (record : Record) :
    List (String × Json) :=
  record.fields.filter fun field =>
    !(dropNulls && field.2.isNull) && !scope.reserves table field.1

theorem forall₂_of_assignments (enforced : scope.enforce table = .ok tenant)
    (read : assignments tenant dropNulls record = .ok assigned) :
    List.Forall₂ Assigns (assignedFields scope table dropNulls record) assigned := by
  obtain ⟨named, fields, shape⟩ := bind_eq_ok.mp read
  cases shape
  have each : List.Forall₂ (fun (field : String × Json) (entry : Ident × Json) =>
      entry.1.text = field.1 ∧ entry.2 = field.2) record.fields named := by
    refine (mapM_eq_ok_iff.mp fields).imp fun field entry step => ?_
    obtain ⟨column, found, same⟩ := bind_eq_ok.mp step
    cases same
    exact ⟨Ident.text_of_read found, rfl⟩
  rw [List.forall₂_map_right_iff]
  -- A field is kept for its name and its value, which the column it is read as shares with it.
  refine (List.rel_filter ?_ each).imp ?_
  · rintro ⟨name, value⟩ ⟨column, other⟩ ⟨named, rfl⟩
    obtain rfl : column.text = name := named
    change (!_ && !scope.reserves table column.text) = true ↔
      (!_ && tenant.map TenantPredicate.column != some column) = true
    rw [reserves_of_enforce enforced]
  · rintro ⟨name, value⟩ ⟨column, other⟩ ⟨named, rfl⟩
    obtain rfl : column.text = name := named
    exact ⟨rfl, binds_fieldValue _ _⟩

/-- The names of a body's fields are the only ones that are checked. -/
theorem makes_assignments (tenant : Option TenantPredicate) (dropNulls : Bool) (record : Record) :
    Makes (record.names.map .name) (assignments tenant dropNulls record) := by
  have checks : (record.fields.flatMap fun field => [Check.name field.1]) =
      record.names.map .name := by
    rw [Record.names, List.map_map, List.map_eq_flatMap]
    rfl
  have read : Makes (record.fields.flatMap fun field => [Check.name field.1])
      (record.fields.mapM fun field => return (← Ident.read field.1, field.2)) :=
    Makes.mapM fun field _ => (makes_read field.1).bind fun column _ => makes_ok _
  rw [← checks]
  exact read.map _

end Compile

end TableGate

import Mathlib.Data.List.Induction
import Mathlib.Data.List.ReduceOption
import TableGate.Proofs.Compile.Assignment
import TableGate.Proofs.Statement.Layout

/-!
# Rows of an insert

An insert has a column for each name that one of its records gives a value to, in the order in which
the names are first seen (`IsFirstSeen`), and one row for each record.  A cell holds what the record
puts into its column (`Fills`); it is written as the placeholder of that value, or as the default
(`Written`).  Which inserts are compiled depends on their checks, made in a fixed order
(`insertChecks`).  The main theorem is `insert_lossless`.
-/

namespace TableGate.Compile

open Sql (Fragment placeholder)
open Sql.Fragment (texts)

/-! ### The order in which items are first seen -/

/-- The items of a list, each once, in the order in which they are first seen. -/
structure IsFirstSeen {α : Type} [DecidableEq α] (items found : List α) : Prop where
  nodup : found.Nodup
  mem_iff : ∀ item, item ∈ found ↔ item ∈ items
  ordered : found.Pairwise fun left right => items.idxOf left < items.idxOf right

/-- Nothing is first seen exactly where there is nothing. -/
theorem IsFirstSeen.eq_nil_iff {α : Type} [DecidableEq α] {items found : List α}
    (first : IsFirstSeen items found) : found = [] ↔ items = [] := by
  rw [List.eq_nil_iff_forall_not_mem, List.eq_nil_iff_forall_not_mem]
  exact forall_congr' fun item => not_congr (first.mem_iff item)

section

variable {α β : Type} [DecidableEq α] [DecidableEq β] {seen items : List α} {item : α}

/-- Items are seen part by part. -/
theorem firstSeen_append (seen left right : List α) :
    firstSeen seen (left ++ right) = firstSeen (firstSeen seen left) right :=
  List.foldl_append

/-- Items that have been seen add nothing. -/
theorem firstSeen_of_subset (old : items ⊆ seen) : firstSeen seen items = seen := by
  induction items with
  | nil => rfl
  | cons item rest ih =>
      obtain ⟨head, tail⟩ := List.cons_subset.mp old
      rw [firstSeen, List.foldl_cons, if_pos head]
      exact ih tail

/-- An item that is fresh is seen after the others. -/
theorem firstSeen_singleton_of_not_mem (fresh : item ∉ seen) :
    firstSeen seen [item] = seen ++ [item] :=
  if_neg fresh

/-- Each item is found once, in the order in which the items are first seen. -/
theorem isFirstSeen_firstSeen (items : List α) : IsFirstSeen items (firstSeen [] items) := by
  refine ⟨nodup_firstSeen List.nodup_nil, fun item => ?_, ?_⟩
  · rw [mem_firstSeen]
    exact or_iff_right List.not_mem_nil
  -- From the end: one more item moves none of the positions before it.
  · induction items using List.reverseRecOn with
    | nil => exact List.Pairwise.nil
    | append_singleton items item ih =>
        have listed : ∀ other ∈ firstSeen [] items, other ∈ items :=
          fun other member => (mem_firstSeen.mp member).resolve_left List.not_mem_nil
        have stable : (firstSeen [] items).Pairwise fun left right =>
            (items ++ [item]).idxOf left < (items ++ [item]).idxOf right := by
          refine ih.imp_of_mem fun first second before => ?_
          rw [List.idxOf_append_of_mem (listed _ first), List.idxOf_append_of_mem (listed _ second)]
          exact before
        rw [firstSeen_append]
        by_cases old : item ∈ firstSeen [] items
        · rw [firstSeen_of_subset (List.cons_subset.mpr ⟨old, List.nil_subset _⟩)]
          exact stable
        · rw [firstSeen_singleton_of_not_mem old, List.pairwise_append]
          refine ⟨stable, List.pairwise_singleton _ _, fun other member last same => ?_⟩
          obtain rfl := List.mem_singleton.mp same
          have fresh : last ∉ items := fun member => old (mem_firstSeen.mpr (.inr member))
          rw [List.idxOf_append_of_mem (listed other member), List.idxOf_append_of_notMem fresh]
          exact Nat.lt_add_right _ (List.idxOf_lt_length_of_mem (listed other member))

/-- Items that are renamed apart are first seen in the same order. -/
theorem firstSeen_map {change : α → β} (injective : Function.Injective change)
    (seen items : List α) :
    firstSeen (seen.map change) (items.map change) = (firstSeen seen items).map change := by
  induction items generalizing seen with
  | nil => rfl
  | cons item rest ih =>
      have decided : change item ∈ seen.map change ↔ item ∈ seen :=
        List.mem_map_of_injective injective
      rw [List.map_cons, firstSeen, firstSeen, List.foldl_cons, List.foldl_cons]
      by_cases old : item ∈ seen
      · rw [if_pos old, if_pos (decided.mpr old)]
        exact ih seen
      · rw [if_neg old, if_neg (mt decided.mp old), ← List.map_singleton, ← List.map_append]
        exact ih (seen ++ [item])

/-- Items that have been seen make no difference after each part of a list. -/
theorem firstSeen_flatMap_of_subset {γ : Type} {part : γ → List α} {again : List α}
    (old : again ⊆ seen) (parts : List γ) :
    firstSeen seen (parts.flatMap fun piece => part piece ++ again) =
      firstSeen seen (parts.flatMap part) := by
  induction parts generalizing seen with
  | nil => rfl
  | cons piece rest ih =>
      have later : again ⊆ firstSeen seen (part piece) :=
        fun item member => mem_firstSeen.mpr (.inl (old member))
      rw [List.flatMap_cons, List.flatMap_cons, firstSeen_append, firstSeen_append,
        firstSeen_of_subset later, firstSeen_append, ih later]

end

variable {scope : Scope} {table : Table} {tenant : Option TenantPredicate} {record : Record}
  {records : List Record}

/-! ### Columns -/

/-- The name of the column that holds the tenant, in a table that belongs to tenants. -/
def tenantNames (scope : Scope) (table : Table) : List String :=
  if table.tenantScoped then [scope.catalog.tenantColumn.text] else []

/-- The names that a record gives values to, in their order. -/
def givenNames (scope : Scope) (table : Table) (record : Record) : List String :=
  (assignedFields scope table true record).map Prod.fst

/-- The names of an insert in the order in which they are seen: the tenant's column comes after
those of the first record. -/
def seenNames (scope : Scope) (table : Table) : List Record → List String
  | [] => []
  | first :: others =>
      givenNames scope table first ++ tenantNames scope table ++
        others.flatMap (givenNames scope table)

/-- One record has no column exactly where its fields are null and no tenant is added. -/
theorem seenNames_singleton_eq_nil_iff :
    seenNames scope table [record] = [] ↔
      table.tenantScoped = false ∧ ∀ field ∈ record.fields, field.2.isNull = true := by
  rw [seenNames, List.flatMap_nil, List.append_nil, List.append_eq_nil_iff, givenNames,
    List.map_eq_nil_iff, assignedFields, List.filter_eq_nil_iff, tenantNames]
  cases owned : table.tenantScoped with
  | true => simp
  | false => simp [Scope.reserves, owned]

/-- A row has the columns that its record gives, and the tenant's. -/
theorem names_of_rowAssignments {row : List (Ident × Datum)}
    (enforced : scope.enforce table = .ok tenant)
    (read : rowAssignments tenant record = .ok row) :
    (row.map Prod.fst).map Ident.text =
      givenNames scope table record ++ tenantNames scope table := by
  obtain ⟨fields, assigned, shape⟩ := bind_eq_ok.mp read
  cases shape
  rw [List.map_append, List.map_append,
    names_of_forall₂ (forall₂_of_assignments enforced assigned), givenNames, tenantNames]
  rcases Scope.enforce_eq_ok enforced with ⟨shared, rfl⟩ | ⟨owned, tenantId, -, rfl⟩
  · rw [shared]
    rfl
  · rw [owned]
    rfl

/-- The rows have the columns that their records give, each with the tenant's after them. -/
theorem names_of_rows {rows : List (List (Ident × Datum))}
    (enforced : scope.enforce table = .ok tenant)
    (read : records.mapM (rowAssignments tenant) = .ok rows) :
    (rows.flatMap fun row => row.map Prod.fst).map Ident.text =
      records.flatMap fun record => givenNames scope table record ++ tenantNames scope table := by
  have each := (mapM_eq_ok_iff.mp read).imp fun _ _ step => names_of_rowAssignments enforced step
  clear read
  induction each with
  | nil => rfl
  | cons first _ ih => rw [List.flatMap_cons, List.map_append, first, ih, List.flatMap_cons]

/-- Every row names the tenant's column; it counts in the first one. -/
theorem firstSeen_seenNames (scope : Scope) (table : Table) (records : List Record) :
    firstSeen []
        (records.flatMap fun record => givenNames scope table record ++ tenantNames scope table) =
      firstSeen [] (seenNames scope table records) := by
  cases records with
  | nil => rfl
  | cons first others =>
      have old : tenantNames scope table ⊆
          firstSeen [] (givenNames scope table first ++ tenantNames scope table) :=
        fun name member => mem_firstSeen.mpr (.inr (List.mem_append_right _ member))
      rw [List.flatMap_cons, firstSeen_append]
      exact (firstSeen_flatMap_of_subset old others).trans (firstSeen_append _ _ _).symm

/-- The columns of an insert are named in the order in which the names are first seen. -/
theorem isFirstSeen_columns {rows : List (List (Ident × Datum))}
    (enforced : scope.enforce table = .ok tenant)
    (read : records.mapM (rowAssignments tenant) = .ok rows) :
    IsFirstSeen (seenNames scope table records)
      ((firstSeen [] (rows.flatMap fun row => row.map Prod.fst)).map Ident.text) := by
  have injective : Function.Injective Ident.text := fun _ _ => Ident.eq_of_text
  rw [← firstSeen_map injective, names_of_rows enforced read, List.map_nil, firstSeen_seenNames]
  exact isFirstSeen_firstSeen _

/-! ### Cells -/

/-- What a record puts into a column: the tenant into the column that holds it, whatever the record
says, otherwise the record's value unless it is null, and the default where there is none. -/
inductive Fills (scope : Scope) (table : Table) (record : Record) (column : Ident) :
    Option Datum → Prop
  | tenant {tenantId : String} (reserved : scope.reserves table column.text = true)
      (active : scope.tenant.active? = some tenantId) :
      Fills scope table record column (some (.text tenantId))
  | given {value : Json} {datum : Datum} (free : scope.reserves table column.text = false)
      (listed : (column.text, value) ∈ record.fields) (present : value.isNull = false)
      (binds : Binds column.text value datum) : Fills scope table record column (some datum)
  | default (free : scope.reserves table column.text = false)
      (absent : ∀ value, (column.text, value) ∈ record.fields → value.isNull = true) :
      Fills scope table record column none

/-- A column is looked up among the fields that are assigned. -/
theorem lookup_of_forall₂ {fields : List (String × Json)} {assigned : List (Ident × Datum)}
    (assigns : List.Forall₂ Assigns fields assigned) (column : Ident) :
    (∃ value datum, (column.text, value) ∈ fields ∧ Binds column.text value datum ∧
        assigned.lookup column = some datum) ∨
      (∀ value, (column.text, value) ∉ fields) ∧ assigned.lookup column = none := by
  induction assigns with
  | nil => exact .inr ⟨fun _ => List.not_mem_nil, rfl⟩
  | @cons field assignment fields assigned first _ ih =>
      obtain ⟨name, value⟩ := field
      obtain ⟨other, datum⟩ := assignment
      obtain rfl : other.text = name := first.name
      by_cases same : column = other
      · subst same
        exact .inl ⟨value, datum, List.mem_cons_self, first.value, List.lookup_cons_self⟩
      · rw [List.lookup_cons, beq_eq_false_iff_ne.mpr same]
        rcases ih with ⟨value, datum, listed, binds, found⟩ | ⟨absent, missing⟩
        · exact .inl ⟨value, datum, List.mem_cons_of_mem _ listed, binds, found⟩
        · refine .inr ⟨fun value member => ?_, missing⟩
          rcases List.mem_cons.mp member with head | later
          · exact same (Ident.eq_of_text (Prod.mk.inj head).1)
          · exact absent value later

/-- A column that a record does not give is left to its default. -/
theorem fills_default {column : Ident} (free : scope.reserves table column.text = false)
    (absent : ∀ value, (column.text, value) ∉ assignedFields scope table true record) :
    Fills scope table record column none := by
  refine .default free fun value listed => ?_
  cases null : value.isNull with
  | true => rfl
  | false => exact absurd (List.mem_filter.mpr ⟨listed, by simp [null, free]⟩) (absent value)

/-- The tenant is bound in its own column only. -/
theorem lookup_tenant_of_ne {column : Ident}
    (apart : tenant.map TenantPredicate.column ≠ some column) :
    (tenant.map fun predicate => (predicate.column, predicate.value)).toList.lookup column =
      none := by
  cases tenant with
  | none => rfl
  | some predicate =>
      have other : column ≠ predicate.column := fun same => apart (congrArg some same.symm)
      change List.lookup column [(predicate.column, predicate.value)] = none
      rw [List.lookup_cons, beq_eq_false_iff_ne.mpr other]
      rfl

/-- Each cell of a row is what its record gives the column. -/
theorem fills_lookup {row : List (Ident × Datum)} (enforced : scope.enforce table = .ok tenant)
    (read : rowAssignments tenant record = .ok row) (column : Ident) :
    Fills scope table record column (row.lookup column) := by
  cases reserved : scope.reserves table column.text with
  | true =>
      obtain ⟨owned, rfl⟩ := Scope.reserves_iff.mp reserved
      rcases Scope.enforce_eq_ok enforced with ⟨shared, -⟩ | ⟨-, tenantId, active, rfl⟩
      · rw [owned] at shared
        exact absurd shared nofun
      · have found := rowAssignments_eq_ok read
        change row.lookup scope.catalog.tenantColumn = some (.text tenantId) at found
        rw [found]
        exact .tenant reserved active
  | false =>
      -- Any other column is looked up among the fields, in front of the tenant.
      obtain ⟨fields, assigned, shape⟩ := bind_eq_ok.mp read
      cases shape
      have apart := reserves_of_enforce enforced column
      rw [reserved, Bool.not_false, bne_iff_ne] at apart
      rw [List.lookup_append, lookup_tenant_of_ne apart, Option.or_none]
      rcases lookup_of_forall₂ (forall₂_of_assignments enforced assigned) column with
        ⟨value, datum, listed, binds, found⟩ | ⟨absent, missing⟩
      · obtain ⟨among, kept⟩ := List.mem_filter.mp listed
        simp only [Bool.true_and, Bool.and_eq_true, Bool.not_eq_true'] at kept
        rw [found]
        exact .given reserved among kept.1 binds
      · rw [missing]
        exact fills_default reserved absent

/-! ### Texts -/

/-- How a cell is written: as the placeholder of its value, or as the default. -/
inductive Written (values : List Datum) : Option Datum → String → Prop
  | bound {index : Nat} {value : Datum} (bound : values[index]? = some value) :
      Written values (some value) (placeholder (index + 1))
  | default : Written values none "DEFAULT"

/-- A row binds the values of its cells, and nothing for a default. -/
theorem flatMap_values_cells (cells : List (Option Datum)) :
    (cells.map Sql.Insert.cell).flatMap Fragment.values = cells.reduceOption := by
  induction cells with
  | nil => rfl
  | cons cell rest ih =>
      rw [List.map_cons, List.flatMap_cons, ih]
      cases cell <;> rfl

/-- Rows bind their values one row after another. -/
theorem flatMap_values_rows (rows : List (List (Option Datum))) :
    (rows.map Sql.Insert.row).flatMap Fragment.values = rows.flatten.reduceOption := by
  induction rows with
  | nil => rfl
  | cons cells rest ih =>
      rw [List.map_cons, List.flatMap_cons, ih, Sql.Insert.row, Sql.Fragment.values_enclosed,
        Sql.Fragment.values_list, flatMap_values_cells, List.flatten_cons, List.reduceOption_append]

/-- The cells of a row are written with the placeholders that follow those of the cells before. -/
theorem written_cells {values before after : List Datum} {cells : List (Option Datum)}
    (bound : values = before ++ cells.reduceOption ++ after) :
    List.Forall₂ (Written values) cells
      (texts (before.length + 1) (cells.map Sql.Insert.cell)) := by
  induction cells generalizing before with
  | nil => exact .nil
  | cons cell rest ih =>
      cases cell with
      | none => exact .cons .default (ih bound)
      | some value =>
          -- The value joins those that are bound before, and that settles its number.
          have shifted : values = (before ++ [value]) ++ rest.reduceOption ++ after := by
            rw [bound, List.reduceOption_cons_of_some]
            simp
          have here : values[before.length]? = some value := by
            rw [shifted]
            simp
          have others := ih shifted
          rw [List.length_append] at others
          exact .cons (.bound here) others

/-- The rows of an insert are written cell by cell. -/
theorem written_rows {values before : List Datum} {rows : List (List (Option Datum))}
    (bound : values = before ++ rows.flatten.reduceOption) :
    ∃ grid, List.Forall₂ (List.Forall₂ (Written values)) rows grid ∧
      texts (before.length + 1) (rows.map Sql.Insert.row) =
        grid.map fun cells => "(" ++ ", ".intercalate cells ++ ")" := by
  induction rows generalizing before with
  | nil => exact ⟨[], .nil, rfl⟩
  | cons cells rest ih =>
      rw [List.flatten_cons, List.reduceOption_append, ← List.append_assoc] at bound
      obtain ⟨grid, written, shown⟩ := ih bound
      refine ⟨_, .cons (written_cells bound) written, ?_⟩
      rw [List.length_append, Nat.add_right_comm] at shown
      rw [List.map_cons, texts, List.map_cons, Sql.Insert.row, Sql.Fragment.values_enclosed,
        Sql.Fragment.values_list, flatMap_values_cells, shown, Sql.Fragment.text_enclosed,
        Sql.Fragment.text_list]

/-! ### Checks -/

/-- What an insert needs: a table that may be used, names of columns, and a record, which may be
without values if it is the only one. -/
structure InsertAllowed (scope : Scope) (table : Table) (records : List Record) : Prop where
  usable : MayUse scope table
  present : records ≠ []
  named : ∀ record ∈ records, ∀ name ∈ record.names, isIdentifier name = true
  filled : records.length ≤ 1 ∨ seenNames scope table records ≠ []

/-- The checks of an insert, in their order. -/
def insertChecks (scope : Scope) (table : Table) (records : List Record) : List Check :=
  .tenant scope table :: .of (records = []) (.badRequest "insert body has no rows") ::
    (records.flatMap (fun record => record.names.map .name) ++
      [.of (seenNames scope table records = [] ∧ 1 < records.length)
        (.badRequest "bulk insert rows have no fields")])

/-- The checks of an insert pass exactly where it is allowed. -/
theorem passes_insertChecks_iff :
    (∀ check ∈ insertChecks scope table records, check.Passes) ↔
      InsertAllowed scope table records := by
  have names : (∀ check ∈ records.flatMap fun record => record.names.map Check.name,
      check.Passes) ↔ ∀ record ∈ records, ∀ name ∈ record.names, isIdentifier name = true := by
    rw [List.forall_mem_flatMap]
    simp only [passes_names_iff]
  rw [insertChecks, List.forall_mem_cons, List.forall_mem_cons, List.forall_mem_append,
    List.forall_mem_singleton, passes_tenant_iff, Check.passes_of_iff, names, Check.passes_of_iff,
    not_and_or, Nat.not_lt, or_comm]
  constructor
  · rintro ⟨usable, present, named, filled⟩
    exact { usable, present, named, filled }
  · exact fun allowed => ⟨allowed.usable, allowed.present, allowed.named, allowed.filled⟩

/-- An insert makes its checks in their order. -/
theorem makes_insert (scope : Scope) (table : Table) (records : List Record) :
    Makes (insertChecks scope table records) (insert scope table records) := by
  refine (makes_enforce scope table).bind fun tenant enforced => ?_
  refine Makes.guard List.isEmpty_iff ?_
  refine (Makes.mapM fun record _ => (makes_assignments tenant true record).map _).bind
    fun rows read => ?_
  refine Makes.guard ?_ (makes_ok _)
  have counts := (mapM_eq_ok_iff.mp read).length_eq
  have empty := (isFirstSeen_columns enforced read).eq_nil_iff
  rw [List.map_eq_nil_iff] at empty
  rw [List.isEmpty_iff, empty, counts]

/-! ### Statements -/

/-- The rows of an insert, one for each record, and the grid in which their cells are written. -/
structure Inserts (scope : Scope) (table : Table) (records : List Record) (insert : Sql.Insert)
    (grid : List (List String)) : Prop where
  named : IsFirstSeen (seenNames scope table records) (insert.columns.map Ident.text)
  filled : List.Forall₂
    (fun record row => List.Forall₂ (Fills scope table record) insert.columns row)
    records insert.rows
  written : List.Forall₂ (List.Forall₂ (Written (Sql.Statement.insert insert).values))
    insert.rows grid
  values : (Sql.Statement.insert insert).values = insert.rows.flatten.reduceOption
  text : (Sql.Statement.insert insert).text = "INSERT INTO " ++ table.name.quoted ++ " (" ++
    ", ".intercalate (insert.columns.map Ident.quoted) ++ ") VALUES " ++
    ", ".intercalate (grid.map fun cells => "(" ++ ", ".intercalate cells ++ ")") ++ " RETURNING *"

/-- An insert loses nothing of its records: it has a row for each of them, and lacks columns only
for one record without values, in a table that all tenants share. -/
structure IsLossless (scope : Scope) (table : Table) (records : List Record)
    (insert : Sql.Insert) : Prop where
  bare_iff : insert.columns = [] ↔ ∃ record, records = [record] ∧ table.tenantScoped = false ∧
    ∀ field ∈ record.fields, field.2.isNull = true
  bare : insert.columns = [] → (Sql.Statement.insert insert).values = [] ∧
    (Sql.Statement.insert insert).text =
      "INSERT INTO " ++ table.name.quoted ++ " DEFAULT VALUES RETURNING *"
  rows : insert.columns ≠ [] → ∃ grid, Inserts scope table records insert grid

variable {statement : Sql.Insert}

/-- An insert is made into the table of its name. -/
theorem table_of_insert (compiled : insert scope table records = .ok statement) :
    statement.table = table.name := by
  obtain ⟨tenant, rows, -, -, -, rfl⟩ := insert_eq_ok compiled
  rfl

/-- The columns of an insert are those of its records, as they are first seen. -/
theorem named_of_insert (compiled : insert scope table records = .ok statement) :
    IsFirstSeen (seenNames scope table records) (statement.columns.map Ident.text) := by
  obtain ⟨tenant, rows, enforced, -, read, rfl⟩ := insert_eq_ok compiled
  exact isFirstSeen_columns enforced read

/-- Each record has a row, and each of its cells is filled from the record. -/
theorem filled_of_insert (compiled : insert scope table records = .ok statement) :
    List.Forall₂ (fun record row => List.Forall₂ (Fills scope table record) statement.columns row)
      records statement.rows := by
  obtain ⟨tenant, rows, enforced, -, read, rfl⟩ := insert_eq_ok compiled
  rw [List.forall₂_map_right_iff]
  refine (mapM_eq_ok_iff.mp read).imp fun record row step => ?_
  rw [List.forall₂_map_right_iff, List.forall₂_same]
  exact fun column _ => fills_lookup enforced step column

/-- An insert has no columns exactly where its one record gives none and no tenant is added. -/
theorem columns_eq_nil_iff (compiled : insert scope table records = .ok statement) :
    statement.columns = [] ↔ ∃ record, records = [record] ∧ table.tenantScoped = false ∧
      ∀ field ∈ record.fields, field.2.isNull = true := by
  have empty := (named_of_insert compiled).eq_nil_iff
  rw [List.map_eq_nil_iff] at empty
  rw [empty]
  constructor
  · intro unseen
    have makes := makes_insert scope table records
    have allowed := passes_insertChecks_iff.mp (makes.exists_ok_iff.mp ⟨statement, compiled⟩)
    have single : records.length = 1 :=
      Nat.le_antisymm (allowed.filled.resolve_right (not_not_intro unseen))
        (List.length_pos_iff.mpr allowed.present)
    obtain ⟨record, rfl⟩ := List.length_eq_one_iff.mp single
    exact ⟨record, rfl, seenNames_singleton_eq_nil_iff.mp unseen⟩
  · rintro ⟨record, rfl, nulls⟩
    exact seenNames_singleton_eq_nil_iff.mpr nulls

/-- An insert with columns has a grid of cells, each joined to its placeholder and its value. -/
theorem inserts_of_insert (compiled : insert scope table records = .ok statement)
    (present : statement.columns ≠ []) : ∃ grid, Inserts scope table records statement grid := by
  have values : (Sql.Statement.insert statement).values = statement.rows.flatten.reduceOption :=
    (Sql.Insert.values_tokens present).trans (flatMap_values_rows statement.rows)
  obtain ⟨grid, written, shown⟩ := written_rows (values.trans (List.nil_append _).symm)
  refine ⟨grid, named_of_insert compiled, filled_of_insert compiled, written, values, ?_⟩
  refine (Sql.Insert.text_tokens present).trans ?_
  rw [table_of_insert compiled]
  change _ ++ ", ".intercalate (texts ([] : List Datum).length.succ _) ++ _ = _
  rw [shown]

/-- An insert without columns asks for the defaults and binds nothing. -/
theorem bare_of_insert (compiled : insert scope table records = .ok statement)
    (bare : statement.columns = []) : (Sql.Statement.insert statement).values = [] ∧
      (Sql.Statement.insert statement).text =
        "INSERT INTO " ++ table.name.quoted ++ " DEFAULT VALUES RETURNING *" := by
  refine ⟨Sql.Insert.values_tokens_of_nil bare, ?_⟩
  refine (Sql.Insert.text_tokens_of_nil bare).trans ?_
  rw [table_of_insert compiled, String.append_assoc]
  rfl

/-- An insert is compiled exactly where it is allowed, and refused with the error of the first check
that fails.  What is compiled gives every value of the records in its row and its column, and the
tenant in every row. -/
theorem insert_lossless (scope : Scope) (table : Table) (records : List Record) :
    Admits (insert scope table records) (InsertAllowed scope table records)
      (insertChecks scope table records) (IsLossless scope table records) := by
  refine (makes_insert scope table records).admits passes_insertChecks_iff ?_
  intro statement compiled
  exact ⟨columns_eq_nil_iff compiled, bare_of_insert compiled, inserts_of_insert compiled⟩

/-- A table of crates, each of which belongs to a tenant. -/
def crateTable : Table := ⟨⟨"crates", by decide⟩, true⟩

/-- Three crates of which none gives what another gives; the first one names another tenant. -/
def crateRecords : List Record :=
  [.ofFields [("tenant_id", .string "south"), ("mark", .null), ("bay", .string "B")],
    .ofFields [("owner_id", .string ""), ("mark", .bool true)], .ofFields []]

theorem insert_lossless_crates :
    ∃ statement grid,
      insert ⟨.ofTable crateTable, .forTenant "north"⟩ crateTable crateRecords = .ok statement ∧
      (Sql.Statement.insert statement).text = "INSERT INTO \"crates\" " ++
        "(\"bay\", \"tenant_id\", \"mark\", \"owner_id\") VALUES ($1, $2, DEFAULT, DEFAULT), " ++
        "(DEFAULT, $3, $4, $5), (DEFAULT, $6, DEFAULT, DEFAULT) RETURNING *" ∧
      Inserts ⟨.ofTable crateTable, .forTenant "north"⟩ crateTable crateRecords statement
        grid := by
  have written : ((insert ⟨.ofTable crateTable, .forTenant "north"⟩ crateTable crateRecords).map
      fun statement => ((Sql.Statement.insert statement).text, statement.columns.length)).toOption =
        some ("INSERT INTO \"crates\" " ++
          "(\"bay\", \"tenant_id\", \"mark\", \"owner_id\") VALUES ($1, $2, DEFAULT, DEFAULT), " ++
          "(DEFAULT, $3, $4, $5), (DEFAULT, $6, DEFAULT, DEFAULT) RETURNING *", 4) := by
    decide +kernel
  obtain ⟨statement, compiled, shown⟩ := exists_ok_of_toOption written
  obtain ⟨text, count⟩ := Prod.mk.inj shown
  have present : statement.columns ≠ [] := by
    intro bare
    rw [bare] at count
    exact absurd count nofun
  have lossless := (insert_lossless ⟨.ofTable crateTable, .forTenant "north"⟩ crateTable
    crateRecords).compiled statement compiled
  obtain ⟨grid, inserts⟩ := lossless.rows present
  exact ⟨statement, grid, compiled, text, inserts⟩

end TableGate.Compile

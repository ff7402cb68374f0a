import TableGate.Proofs.Compile.Joining

/-!
# Reading rows again

The select of rows by their keys is laid out like the select that a read compiles
(`Compile.laidOut_of_selection`): columns, table and joins come first, then the condition of the
tenant, with the same placeholders bound to the same values.  What follows is the filters, the order
and the page of the one, and the keys of the other (`Compile.selectByKeys_of_select`).
-/

namespace TableGate

open Sql (Column Condition Fragment Statement placeholder)

/-- What a select of a projection begins with: the columns, the table and the joins. -/
def Projection.openingText (source : Ident) (joins : List String) (projection : Projection) :
    String :=
  "SELECT " ++
    ", ".intercalate
      (projection.columnTexts source ++ projection.relations.map Relation.outputText) ++
    " FROM " ++ source.quoted ++ String.join (joins.map fun join => " " ++ join)

/-- The condition that the rows are those of the tenant, as it is written with the given
placeholder, and its value; none for a table that all tenants share. -/
inductive Pinned (scope : Scope) (table : Table) (next : Nat) : List String → List Datum → Prop
  | shared (free : table.tenantScoped = false) : Pinned scope table next [] []
  | owned {tenantId : String} (owned : table.tenantScoped = true)
      (active : scope.tenant.active? = some tenantId) :
      Pinned scope table next
        [(Column.mk (some table.name) scope.catalog.tenantColumn).text ++ " = " ++
          placeholder next]
        [.text tenantId]

/-- A select is written as an opening, the conjuncts of its conditions and an ending, and binds some
values. -/
structure Sql.Select.LaidOut (statement : Sql.Select) (opening : String)
    (conjuncts : List String) (ending : String) (values : List Datum) : Prop where
  text : (Statement.select statement).text =
    opening ++ Isolation.whereText conjuncts ++ ending
  values : (Statement.select statement).values = values

namespace Compile

variable {scope : Scope} {table : Table} {projection : Projection} {query : Query}

theorem pinned_of_enforce {tenant : Option TenantPredicate} (next : Nat)
    (enforced : scope.enforce table = .ok tenant) :
    Pinned scope table next
      (Fragment.texts next ((Sql.conditions (some table.name) tenant []).map Condition.tokens))
      ((Sql.conditions (some table.name) tenant []).flatMap Condition.values) := by
  rcases Scope.enforce_eq_ok enforced with ⟨free, rfl⟩ | ⟨owned, tenantId, active, rfl⟩
  · exact .shared free
  · rw [Sql.conditions, List.map_singleton, List.flatMap_singleton, Condition.values,
      Condition.tokens, Isolation.values_on, Fragment.texts, Isolation.text_on]
    exact .owned owned active

/-- What a projection is resolved to opens a select with its columns and its joins. -/
theorem opening_of_selection {found : Sql.Selection}
    (resolved : selection scope table projection = .ok found) :
    found.source = table.name ∧
      Fragment.text 1 found.tokens =
        projection.openingText table.name (Fragment.texts 1 found.clauses) := by
  obtain ⟨-, outputs, -⟩ := joined_of_selection 1 resolved
  have source : found.source = table.name := by
    obtain ⟨joins, rfl, -⟩ := forall₂_of_selection resolved
    rfl
  refine ⟨source, ?_⟩
  rw [Sql.Selection.text_tokens, Fragment.texts_of_values found.values_outputs, outputs, source]
  rfl

/-- A select of what a projection is resolved to is laid out by the projection and the tenant, up to
its filters, whatever these and its ending are. -/
theorem laidOut_of_selection {tenant : Option TenantPredicate} {found : Sql.Selection}
    (enforced : scope.enforce table = .ok tenant)
    (resolved : selection scope table projection = .ok found) :
    ∃ joins joined pin pinned, Joined scope table.name 1 projection.relations joins joined ∧
      Pinned scope table (joined.length + 1) pin pinned ∧
      ∀ filters order page,
        Sql.Select.LaidOut ⟨found, tenant, filters, order, page⟩
          (projection.openingText table.name joins)
          (pin ++ Fragment.texts (joined.length + pinned.length + 1)
            (filters.map Condition.tokens))
          (Fragment.text 1 (Sql.Select.ending ⟨found, tenant, filters, order, page⟩))
          (joined ++ pinned ++ filters.flatMap Condition.values) := by
  obtain ⟨joined, -, -⟩ := joined_of_selection 1 resolved
  obtain ⟨source, opening⟩ := opening_of_selection resolved
  refine ⟨_, _, _, _, joined, pinned_of_enforce _ enforced, ?_⟩
  intro filters order page
  have conditions : Sql.Select.conditions ⟨found, tenant, filters, order, page⟩ =
      Sql.conditions (some table.name) tenant [] ++ filters := by
    rw [← Sql.conditions_append, ← source]
    rfl
  constructor
  · -- The ending binds nothing, so it is written alike whatever stands before it.
    have ending := Fragment.text_eq_of_values
      (Sql.Select.values_ending ⟨found, tenant, filters, order, page⟩)
    change Fragment.text 1 (Sql.Select.tokens _) = _
    rw [Sql.Select.text_tokens, opening, Isolation.text_where, ending _ 1, conditions,
      List.map_append, Fragment.texts_append, Sql.Selection.values_tokens, List.flatMap_map,
      Nat.add_comm 1, Nat.add_right_comm]
    rfl
  · change Fragment.values (Sql.Select.tokens _) = _
    rw [Sql.Select.values_tokens, Sql.Select.values_ending, conditions, List.flatMap_append,
      List.append_nil, List.append_assoc]

/-- Where a read is compiled, its rows can be read again by any keys.  Both selects have the same
columns, table and joins, bind the same values for the joins and the tenant first, and pin the
tenant with the same placeholder; after that, the rows that are read again have one of the keys and
nothing else is asked of them. -/
theorem selectByKeys_of_select {statement : Sql.Select}
    (compiled : select scope table projection query = .ok statement) (keys : List Datum) :
    ∃ rereading, selectByKeys scope table projection keys = .ok rereading ∧
      ∃ joins joined pin pinned, Joined scope table.name 1 projection.relations joins joined ∧
        Pinned scope table (joined.length + 1) pin pinned ∧
        statement.LaidOut (projection.openingText table.name joins)
          (pin ++ Fragment.texts (joined.length + pinned.length + 1)
            (statement.filters.map Condition.tokens))
          (Fragment.text 1 statement.ending)
          (joined ++ pinned ++ statement.filters.flatMap Condition.values) ∧
        rereading.LaidOut (projection.openingText table.name joins)
          (pin ++ [(Column.mk (some table.name) .id).withinText
            (joined.length + pinned.length + 1) keys.length])
          "" (joined ++ pinned ++ keys) := by
  obtain ⟨tenant, found, filters, order, enforced, resolved, -, -, rfl⟩ := select_eq_ok compiled
  obtain ⟨joins, joined, pin, pinned, follows, pins, laidOut⟩ :=
    laidOut_of_selection enforced resolved
  have again : selectByKeys scope table projection keys = .ok
      { selection := found, tenant,
        filters := [.single (.within ⟨some table.name, .id⟩ keys)] } :=
    bind_eq_ok.mpr ⟨tenant, enforced, bind_eq_ok.mpr ⟨found, by rw [resolved]; rfl, rfl⟩⟩
  refine ⟨_, again, joins, joined, pin, pinned, follows, pins, laidOut _ _ _, ?_⟩
  have keyed := laidOut [.single (.within ⟨some table.name, .id⟩ keys)] [] none
  rw [List.map_singleton, List.flatMap_singleton, Condition.values_within, Fragment.texts,
    Condition.tokens, Sql.Predicate.text_within] at keyed
  exact keyed

/-- The keys of two desks. -/
def deskKeys : List Datum := [.text "7", .text "9"]

/-- All columns of a desk and the room that it stands in. -/
def roomProjection : Projection where
  relations := [⟨roomTable.name, roomTable.name, .all⟩]

/-- The select of the two desks. -/
def roomText : String :=
  "SELECT \"desks\".*, CASE WHEN \"rooms_rel\".\"id\" IS NULL THEN NULL ELSE " ++
    "row_to_json(\"rooms_rel\") END AS \"rooms\" FROM \"desks\" LEFT JOIN \"rooms\" " ++
    "\"rooms_rel\" ON \"rooms_rel\".\"id\" = \"desks\".\"rooms_id\" WHERE " ++
    "\"desks\".\"tenant_id\" = $1 AND \"desks\".\"id\" IN ($2, $3)"

theorem selectByKeys_of_select_desks :
    (∃ statement, select deskScope deskTable roomProjection ⟨[("caption", "eq.A")]⟩ =
        .ok statement) ∧
      ∃ rereading, selectByKeys deskScope deskTable roomProjection deskKeys = .ok rereading ∧
        (Statement.select rereading).text = roomText ∧
        ∃ joins joined pin pinned,
          Joined deskScope deskTable.name 1 roomProjection.relations joins joined ∧
          Pinned deskScope deskTable (joined.length + 1) pin pinned ∧
          rereading.LaidOut (roomProjection.openingText deskTable.name joins)
            (pin ++ [(Column.mk (some deskTable.name) .id).withinText
              (joined.length + pinned.length + 1) 2])
            "" (joined ++ pinned ++ deskKeys) := by
  have paged : ((select deskScope deskTable roomProjection ⟨[("caption", "eq.A")]⟩).map
      Sql.Select.page).toOption = some (some ⟨100, 0⟩) := by
    decide +kernel
  obtain ⟨statement, compiled, -⟩ := exists_ok_of_toOption paged
  obtain ⟨rereading, again, joins, joined, pin, pinned, follows, pins, -, laidOut⟩ :=
    selectByKeys_of_select compiled deskKeys
  have written : ((selectByKeys deskScope deskTable roomProjection deskKeys).map
      fun statement => (Statement.select statement).text).toOption = some roomText := by
    decide +kernel
  rw [again] at written
  exact ⟨⟨statement, compiled⟩, rereading, again, Option.some.inj written, joins, joined, pin,
    pinned, follows, pins, laidOut⟩

end Compile

end TableGate

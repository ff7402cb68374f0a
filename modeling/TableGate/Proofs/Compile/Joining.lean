import TableGate.Proofs.Compile.Drafting
import TableGate.Proofs.Compile.Parameter
import TableGate.Proofs.Config.Resolution
import TableGate.Proofs.Statement.Relation

/-!
# Joining relations

A projection is resolved exactly where the target of each of its relations is a table that may be
used (`Joinable`, `Compile.makes_selection`).  Then every relation is joined, in their order, and
the tenant is bound for each of those whose targets belong to tenants (`Joined`).
-/

namespace TableGate

open Sql (Fragment Join Selection placeholder)

/-- An index of relations has each of them under its alias, and nothing else. -/
structure IsIndex (relations : List Relation) (index : List (Ident × Relation)) : Prop where
  distinct : (index.map Prod.fst).Nodup
  keys : ∀ name, name ∈ index.map Prod.fst ↔ ∃ relation ∈ relations, relation.name = name
  entries : ∀ relation ∈ relations, index.lookup relation.name = some relation

/-- Relations with different aliases are indexed by them. -/
theorem isIndex_of_nodup {relations : List Relation}
    (distinct : (relations.map Relation.name).Nodup) :
    IsIndex relations (relations.map fun relation => (relation.name, relation)) := by
  have names : (relations.map fun relation => (relation.name, relation)).map Prod.fst =
      relations.map Relation.name := List.map_map
  refine ⟨names ▸ distinct, fun name => by rw [names, List.mem_map], ?_⟩
  intro relation member
  obtain ⟨front, back, rfl⟩ := List.append_of_mem member
  apply List.lookup_eq_some_iff.mpr
  refine ⟨front.map fun other => (other.name, other), back.map fun other => (other.name, other),
    List.map_append, ?_⟩
  intro entry before
  obtain ⟨other, among, rfl⟩ := List.mem_map.mp before
  rw [List.map_append, List.nodup_append] at distinct
  have apart := distinct.2.2 other.name (List.mem_map_of_mem among) relation.name
    (List.mem_map_of_mem List.mem_cons_self)
  exact bne_iff_ne.mpr apart.symm

/-- The joins of some relations to a table as they are written, the first placeholder being the one
with the given number, and the values that they bind: one join for each relation, in their order,
which binds the tenant if the target belongs to tenants and nothing otherwise. -/
inductive Joined (scope : Scope) (source : Ident) :
    Nat → List Relation → List String → List Datum → Prop
  | nil {next : Nat} : Joined scope source next [] [] []
  | shared {next : Nat} {relation : Relation} {relations : List Relation} {joins : List String}
      {values : List Datum} {target : Table} (listed : target ∈ scope.catalog.tables)
      (named : target.name = relation.target) (free : target.tenantScoped = false)
      (rest : Joined scope source next relations joins values) :
      Joined scope source next (relation :: relations) (relation.joinText source :: joins) values
  | owned {next : Nat} {relation : Relation} {relations : List Relation} {joins : List String}
      {values : List Datum} {target : Table} {tenantId : String}
      (listed : target ∈ scope.catalog.tables) (named : target.name = relation.target)
      (owned : target.tenantScoped = true) (active : scope.tenant.active? = some tenantId)
      (rest : Joined scope source (next + 1) relations joins values) :
      Joined scope source next (relation :: relations)
        ((relation.joinText source ++ " AND " ++ relation.columnText scope.catalog.tenantColumn ++
          " = " ++ placeholder next) :: joins)
        (.text tenantId :: values)

namespace Compile

/-- The target of a relation is a table that may be used. -/
def Joinable (scope : Scope) (relation : Relation) : Prop :=
  ∃ target ∈ scope.catalog.tables, target.name = relation.target ∧ MayUse scope target

/-- The target of a relation has to be a table, and one that may be used. -/
inductive Check.joining (scope : Scope) (relation : Relation) : Error → Prop
  | unknown (absent : ∀ target ∈ scope.catalog.tables, target.name ≠ relation.target) :
      Check.joining scope relation (.unknownTable relation.target.text)
  | barred {target : Table} (listed : target ∈ scope.catalog.tables)
      (named : target.name = relation.target) (owned : target.tenantScoped = true)
      (inactive : scope.tenant.active? = none) :
      Check.joining scope relation (.tenantRequired relation.target.text)

variable {scope : Scope} {table target : Table} {relation : Relation} {projection : Projection}

/-! ### Targets -/

/-- The target of a relation is found by its name. -/
theorem table_eq_ok_iff :
    scope.table relation.target.text = .ok target ↔
      target ∈ scope.catalog.tables ∧ target.name = relation.target := by
  apply Catalog.lookup_eq_ok_iff.trans
  exact and_congr_right fun _ => ⟨fun same => Ident.eq_of_text same, fun same => congrArg _ same⟩

theorem table_eq_error_iff {error : Error} :
    scope.table relation.target.text = .error error ↔
      (∀ target ∈ scope.catalog.tables, target.name ≠ relation.target) ∧
        error = .unknownTable relation.target.text := by
  constructor
  · intro refused
    have unknown : error = .unknownTable relation.target.text := by
      unfold Scope.table Catalog.lookup at refused
      split at refused
      · exact absurd refused nofun
      · exact (Except.error.inj refused).symm
    refine ⟨?_, unknown⟩
    intro target listed named
    rw [table_eq_ok_iff.mpr ⟨listed, named⟩] at refused
    exact absurd refused nofun
  · rintro ⟨absent, rfl⟩
    apply Catalog.lookup_eq_error_iff.mpr
    intro target found
    obtain ⟨listed, named⟩ := table_eq_ok_iff.mp found
    exact absent target listed named

theorem exists_enforce_iff : (∃ tenant, scope.enforce table = .ok tenant) ↔ MayUse scope table := by
  rw [(makes_enforce scope table).exists_ok_iff, List.forall_mem_singleton, passes_tenant_iff]

/-- A relation is joined to its target, under the tenant if the target belongs to tenants. -/
theorem join_eq_ok_iff {join : Join} :
    Compile.join scope relation = .ok join ↔
      ∃ target ∈ scope.catalog.tables, target.name = relation.target ∧
        ∃ tenant, scope.enforce target = .ok tenant ∧ join = ⟨relation, tenant⟩ := by
  constructor
  · intro joined
    obtain ⟨target, tenant, found, enforced, rfl⟩ := join_eq_ok joined
    obtain ⟨listed, named⟩ := table_eq_ok_iff.mp found
    exact ⟨target, listed, named, tenant, enforced, by rw [named]⟩
  · rintro ⟨target, listed, named, tenant, enforced, rfl⟩
    have found := table_eq_ok_iff.mpr ⟨listed, named⟩
    exact bind_eq_ok.mpr ⟨target, found, bind_eq_ok.mpr ⟨tenant, enforced, by rw [named]; rfl⟩⟩

/-! ### Checks -/

theorem makes_join (scope : Scope) (relation : Relation) :
    Makes [Check.joining scope relation] (Compile.join scope relation) := by
  refine makes_of_iff fun error => ?_
  rw [Compile.join, bind_eq_error, table_eq_error_iff]
  constructor
  · rintro (⟨absent, rfl⟩ | ⟨target, found, rest⟩)
    · exact .unknown absent
    · obtain ⟨listed, named⟩ := table_eq_ok_iff.mp found
      rcases bind_eq_error.mp rest with refused | ⟨tenant, -, shape⟩
      · obtain ⟨owned, inactive, rfl⟩ := Scope.enforce_eq_error refused
        rw [named]
        exact .barred listed named owned inactive
      · exact absurd shape nofun
  · intro refuses
    cases refuses with
    | unknown absent => exact .inl ⟨absent, rfl⟩
    | @barred target listed named owned inactive =>
        have found := table_eq_ok_iff.mpr ⟨listed, named⟩
        refine .inr ⟨target, found, bind_eq_error.mpr (.inl ?_)⟩
        rw [Scope.enforce, if_pos owned, inactive, named]

theorem passes_joining_iff :
    Check.Passes (Check.joining scope relation) ↔ Joinable scope relation := by
  have joins := (makes_join scope relation).exists_ok_iff
  rw [List.forall_mem_singleton] at joins
  rw [← joins]
  simp only [join_eq_ok_iff, Joinable, ← exists_enforce_iff]
  constructor
  · rintro ⟨join, target, listed, named, tenant, enforced, -⟩
    exact ⟨target, listed, named, tenant, enforced⟩
  · rintro ⟨target, listed, named, tenant, enforced⟩
    exact ⟨_, target, listed, named, tenant, enforced, rfl⟩

/-- The targets of the relations are all that is checked of a projection. -/
theorem makes_selection (scope : Scope) (table : Table) (projection : Projection) :
    Makes (projection.relations.map (Check.joining scope))
      (selection scope table projection).toExcept := by
  rw [List.map_eq_flatMap, selection, Outcome.toExcept_map]
  refine (Makes.acceptAll fun relation _ => ?_).map _
  rw [Outcome.toExcept_map, Outcome.toExcept_ofCheck]
  exact (makes_join scope relation).map _

theorem exists_selection_iff :
    (∃ found, selection scope table projection = .ok found) ↔
      ∀ relation ∈ projection.relations, Joinable scope relation := by
  have resolved := (makes_selection scope table projection).exists_ok_iff
  simpa only [Outcome.toExcept_eq_ok, List.forall_mem_map, passes_joining_iff] using resolved

/-! ### Joins -/

/-- Relations are joined one by one. -/
theorem forall₂_of_selection {found : Selection}
    (resolved : selection scope table projection = .ok found) :
    ∃ joins, found = ⟨table.name, projection.allColumns, projection.columns, joins⟩ ∧
      List.Forall₂ (fun relation join => Compile.join scope relation = .ok join)
        projection.relations joins := by
  obtain ⟨joins, accepted, rfl⟩ := map_eq_ok.mp resolved
  have every (relation : Relation) (found : Option Join)
      (read : (Outcome.ofCheck (Compile.join scope relation)).map some = .ok found) :
      found.isSome = true := by
    obtain ⟨join, -, rfl⟩ := map_eq_ok.mp read
    rfl
  have each := forall₂_of_acceptAll every accepted
  rw [List.filter_true] at each
  refine ⟨joins, rfl, each.imp fun relation join read => ?_⟩
  obtain ⟨other, checked, same⟩ := map_eq_ok.mp read
  obtain rfl := Option.some.inj same
  exact Outcome.ofCheck_eq_ok.mp checked

theorem relations_of_forall₂ {relations : List Relation} {joins : List Join}
    (resolved : List.Forall₂ (fun relation join => Compile.join scope relation = .ok join)
      relations joins) : joins.map Join.relation = relations := by
  induction resolved with
  | nil => rfl
  | cons first _ ih =>
      obtain ⟨target, -, -, tenant, -, rfl⟩ := join_eq_ok_iff.mp first
      rw [List.map_cons, ih]

/-- The clauses of the joins and their values, wherever the first placeholder stands. -/
theorem joined_of_forall₂ {relations : List Relation} {joins : List Join} (source : Ident)
    (resolved : List.Forall₂ (fun relation join => Compile.join scope relation = .ok join)
      relations joins) (next : Nat) :
    Joined scope source next relations (Fragment.texts next (joins.map (Join.clause source)))
      ((joins.map (Join.clause source)).flatMap Fragment.values) := by
  induction resolved generalizing next with
  | nil => exact .nil
  | cons first _ ih =>
      obtain ⟨target, listed, named, tenant, enforced, rfl⟩ := join_eq_ok_iff.mp first
      rw [List.map_cons, Fragment.texts, List.flatMap_cons]
      -- Only a target that belongs to tenants takes a placeholder before the others go on.
      rcases Scope.enforce_eq_ok enforced with ⟨free, rfl⟩ | ⟨owned, tenantId, active, rfl⟩
      · rw [Join.text_clause_shared, Join.values_clause_shared]
        exact .shared listed named free (ih next)
      · rw [Join.text_clause_owned, Join.values_clause_owned]
        exact .owned listed named owned active (ih (next + 1))

/-- What a projection is resolved to, wherever the first placeholder stands: its joins, and its
columns as they are written. -/
theorem joined_of_selection {found : Selection} (next : Nat)
    (resolved : selection scope table projection = .ok found) :
    Joined scope table.name next projection.relations (Fragment.texts next found.clauses)
        (found.clauses.flatMap Fragment.values) ∧
      found.outputs.map (Fragment.text next) =
        projection.columnTexts table.name ++ projection.relations.map Relation.outputText ∧
      found.relations = projection.relations.map fun relation => (relation.name, relation) := by
  obtain ⟨joins, rfl, each⟩ := forall₂_of_selection resolved
  have relations := relations_of_forall₂ each
  refine ⟨joined_of_forall₂ table.name each next, Sql.Selection.text_outputs rfl rfl relations, ?_⟩
  rw [← relations, List.map_map]
  rfl

end Compile

/-- Resolve a projection on a draft: the draft with the tenants of its joins, the selection and the
texts of the joins. -/
def Draft.joined (scope : Scope) (table : Table) (draft : Draft) (projection : Projection) :
    Draft × Except Error (Selection × List String) :=
  draft.afterOutcome Selection.clauses (Compile.selection scope table projection)

namespace Compile

/-- A projection with different aliases is resolved exactly where the target of each of its
relations is a table that may be used.  Each relation is then joined once, in their order, under
names that its alias gives, and the tenant is bound for each target that belongs to tenants; the
columns of the table come first, then one labelled column for each relation; and the relations are
indexed by their aliases. -/
theorem joins_follow_aliases (scope : Scope) (table : Table) (draft : Draft)
    (projection : Projection) (distinct : (projection.relations.map Relation.name).Nodup) :
    ((∃ drafted found, draft.joined scope table projection = (drafted, .ok found)) ↔
        ∀ relation ∈ projection.relations, Joinable scope relation) ∧
      ∀ drafted selection joins,
        draft.joined scope table projection = (drafted, .ok (selection, joins)) →
          ∃ values, drafted = draft.bind values ∧
            Joined scope table.name draft.next projection.relations joins values ∧
            selection.outputs.map (Fragment.text draft.next) =
              projection.columnTexts table.name ++ projection.relations.map Relation.outputText ∧
            IsIndex projection.relations selection.relations ∧
            (!selection.relations.isEmpty) = projection.hasRelations := by
  constructor
  · rw [← exists_selection_iff]
    constructor
    · rintro ⟨drafted, ⟨selection, joins⟩, done⟩
      exact ⟨selection, (Draft.afterOutcome_eq_ok.mp done).1⟩
    · rintro ⟨selection, resolved⟩
      exact ⟨_, _, Draft.afterOutcome_eq_ok.mpr ⟨resolved, rfl⟩⟩
  · intro drafted selection joins done
    obtain ⟨resolved, placed⟩ := Draft.afterOutcome_eq_ok.mp done
    obtain ⟨joined, outputs, relations⟩ := joined_of_selection draft.next resolved
    cases placed
    refine ⟨_, rfl, joined, outputs, ?_, ?_⟩
    · rw [relations]
      exact isIndex_of_nodup distinct
    · rw [relations, List.isEmpty_map]
      rfl

/-- A table of desks that belong to tenants. -/
def deskTable : Table := ⟨⟨"desks", by decide⟩, true⟩

/-- A table of clerks that belong to tenants. -/
def clerkTable : Table := ⟨⟨"clerks", by decide⟩, true⟩

/-- A table of rooms that all tenants share. -/
def roomTable : Table := ⟨⟨"rooms", by decide⟩, false⟩

/-- A catalog of desks, clerks and rooms. -/
def deskCatalog : Catalog :=
  { Catalog.ofTable deskTable with
    tables := [deskTable, clerkTable, roomTable]
    names_nodup := by decide }

/-- The scope of a tenant with desks. -/
def deskScope : Scope := ⟨deskCatalog, .forTenant "north"⟩

/-- Two relations to the clerks, with one to the rooms between them. -/
def deskProjection : Projection where
  columns := [⟨"caption", by decide⟩]
  relations := [⟨⟨"keeper", by decide⟩, clerkTable.name, .listed [⟨"surname", by decide⟩]⟩,
    ⟨⟨"place", by decide⟩, roomTable.name, .all⟩, ⟨⟨"guest", by decide⟩, clerkTable.name, .all⟩]

/-- A draft that has a value already. -/
def deskDraft : Draft := { values := [.bool true] }

/-- The joins of the three relations on that draft. -/
def deskJoins : List String :=
  ["LEFT JOIN \"clerks\" \"keeper_rel\" ON \"keeper_rel\".\"id\" = \"desks\".\"keeper_id\" " ++
      "AND \"keeper_rel\".\"tenant_id\" = $2",
    "LEFT JOIN \"rooms\" \"place_rel\" ON \"place_rel\".\"id\" = \"desks\".\"place_id\"",
    "LEFT JOIN \"clerks\" \"guest_rel\" ON \"guest_rel\".\"id\" = \"desks\".\"guest_id\" AND " ++
      "\"guest_rel\".\"tenant_id\" = $3"]

theorem joins_follow_aliases_desks :
    (deskProjection.relations.map Relation.name).Nodup ∧
      ∃ drafted selection values,
        deskDraft.joined deskScope deskTable deskProjection =
            (drafted, .ok (selection, deskJoins)) ∧
          drafted = deskDraft.bind values ∧
          Joined deskScope deskTable.name 2 deskProjection.relations deskJoins values ∧
          IsIndex deskProjection.relations selection.relations := by
  have distinct : (deskProjection.relations.map Relation.name).Nodup := by decide
  obtain ⟨-, follows⟩ := joins_follow_aliases deskScope deskTable deskDraft deskProjection distinct
  have written : ((deskDraft.joined deskScope deskTable deskProjection).2.map Prod.snd).toOption =
      some deskJoins := by
    decide +kernel
  obtain ⟨⟨selection, joins⟩, found, rfl⟩ := exists_ok_of_toOption written
  have done : deskDraft.joined deskScope deskTable deskProjection =
      (_, .ok (selection, deskJoins)) := Prod.ext rfl found
  obtain ⟨values, bound, joined, -, index, -⟩ := follows _ _ _ done
  exact ⟨distinct, _, selection, values, done, bound, joined, index⟩

end Compile

end TableGate

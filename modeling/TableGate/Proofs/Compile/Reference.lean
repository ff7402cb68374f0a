import TableGate.Proofs.Compile.Joining
import TableGate.Proofs.Projection.RoundTrip
import TableGate.Proofs.Statement.Correlation
import TableGate.Store

/-!
# What the names of a read refer to

A compiled read, of a page or of rows by their keys (`Reads`), uses its table under the table's own
name and each relation's target under the relation's slot.  The slots are pairwise different, and a
name refers to two tables exactly where the table itself is called like a slot
(`correlates_of_reads`).  The output columns are named by the columns of the projection and the
aliases of its relations, and one of them may be called like the row that the gateway wraps the
select in (`captures_iff_of_reads`).
-/

namespace TableGate

open Sql (Column Condition Fragment)

theorem Ident.slot_injective : Function.Injective Ident.slot := by
  intro first second same
  exact Ident.eq_of_text ((String.append_left_inj _).mp (congrArg Ident.text same))

namespace Compile

variable {scope : Scope} {table : Table} {projection : Projection} {statement : Sql.Select}

/-- A statement is a read of a table that a projection is compiled to: of a page of the rows that a
query leaves, or of the rows with some keys. -/
inductive Reads (scope : Scope) (table : Table) (projection : Projection) : Sql.Select → Prop
  | page {query : Query} {statement : Sql.Select}
      (compiled : select scope table projection query = .ok statement) :
      Reads scope table projection statement
  | keyed {keys : List Datum} {statement : Sql.Select}
      (compiled : selectByKeys scope table projection keys = .ok statement) :
      Reads scope table projection statement

theorem Reads.resolved (reads : Reads scope table projection statement) :
    selection scope table projection = .ok statement.selection := by
  cases reads with
  | page compiled =>
      obtain ⟨tenant, found, filters, terms, -, resolved, -, -, rfl⟩ := select_eq_ok compiled
      exact resolved
  | keyed compiled =>
      obtain ⟨tenant, found, -, resolved, rfl⟩ := selectByKeys_eq_ok compiled
      exact resolved

theorem Reads.source (reads : Reads scope table projection statement) :
    statement.selection.source = table.name := by
  obtain ⟨joins, shape, -⟩ := forall₂_of_selection reads.resolved
  rw [shape]

theorem Reads.relations (reads : Reads scope table projection statement) :
    statement.selection.joins.map Sql.Join.relation = projection.relations := by
  obtain ⟨joins, shape, each⟩ := forall₂_of_selection reads.resolved
  rw [shape]
  exact relations_of_forall₂ each

theorem table_of_conditions {source : Ident} {tenant : Option TenantPredicate}
    {filters : List Condition}
    (known : ∀ condition ∈ filters, ∀ column ∈ condition.columns, column.table = some source) :
    ∀ condition ∈ Sql.conditions (some source) tenant filters, ∀ column ∈ condition.columns,
      column.table = some source := by
  cases tenant with
  | none => exact known
  | some predicate =>
      refine List.forall_mem_cons.mpr ⟨fun column among => ?_, known⟩
      rw [List.mem_singleton.mp among]
      rfl

/-- Every condition of a read is on a column of its table. -/
theorem Reads.conditions (reads : Reads scope table projection statement) :
    ∀ condition ∈ statement.conditions, ∀ column ∈ condition.columns,
      column.table = some table.name := by
  rw [Sql.Select.conditions, reads.source]
  refine table_of_conditions fun condition present column among => ?_
  cases reads with
  | page compiled =>
      obtain ⟨tenant, found, filters, terms, -, -, filtered, -, rfl⟩ := select_eq_ok compiled
      exact (columns_of_filters filtered condition present column among).1
  | keyed compiled =>
      obtain ⟨tenant, found, -, -, rfl⟩ := selectByKeys_eq_ok compiled
      rw [List.mem_singleton.mp present] at among
      rw [List.mem_singleton.mp among]
      rfl

/-! ### Tables -/

/-- How a read names the tables that it uses: its own table and the targets of its relations, each
target under the slot of its relation. -/
structure Correlates (table : Table) (projection : Projection) (statement : Fragment) : Prop where
  tables : statement.correlations = (table.name, table.name) ::
    projection.relations.map fun relation => (relation.name.slot, relation.target)
  slots : (projection.relations.map fun relation => relation.name.slot).Nodup
  known : ∀ name ∈ statement.qualifiers, name ∈ statement.tableNames
  distinct_iff : statement.tableNames.Nodup ↔
    ∀ relation ∈ projection.relations, relation.name.slot ≠ table.name
  unambiguous_iff : (∀ name ∈ statement.qualifiers, statement.tableNames.count name = 1) ↔
    ∀ relation ∈ projection.relations, relation.name.slot ≠ table.name

theorem Reads.correlations (reads : Reads scope table projection statement) :
    statement.tokens.correlations = (table.name, table.name) ::
      projection.relations.map fun relation => (relation.name.slot, relation.target) := by
  rw [Sql.Select.correlations_tokens, reads.source, ← reads.relations, List.map_map]
  rfl

theorem Reads.tableNames (reads : Reads scope table projection statement) :
    statement.tokens.tableNames =
      table.name :: projection.relations.map fun relation => relation.name.slot := by
  rw [Fragment.tableNames, reads.correlations, List.map_cons, List.map_map]
  rfl

theorem Reads.qualifier_mem (reads : Reads scope table projection statement) :
    ∀ name ∈ statement.tokens.qualifiers, name ∈ statement.tokens.tableNames := by
  rw [reads.tableNames, ← reads.relations, List.map_map]
  apply Fragment.QualifiedBy.known
  refine Sql.Select.qualifiedBy_tokens ?_ ?_ ?_
  · rw [reads.source]
    exact List.mem_cons_self
  · exact fun join among => List.mem_cons_of_mem _ (List.mem_map_of_mem among)
  · intro condition present column among named shape
    rw [reads.conditions condition present column among] at shape
    cases shape
    exact List.mem_cons_self

/-- The slot of each relation qualifies a column. -/
theorem Reads.slot_mem (reads : Reads scope table projection statement) {relation : Relation}
    (among : relation ∈ projection.relations) :
    relation.name.slot ∈ statement.tokens.qualifiers := by
  rw [← reads.relations] at among
  obtain ⟨join, joined, rfl⟩ := List.mem_map.mp among
  exact Sql.Select.slot_mem_qualifiers joined

theorem Reads.correlates (distinct : projection.aliases.Nodup)
    (reads : Reads scope table projection statement) :
    Correlates table projection statement.tokens := by
  have slots : (projection.relations.map fun relation => relation.name.slot).Nodup := by
    have mapped := distinct.map Ident.slot_injective
    rwa [Projection.aliases, List.map_map] at mapped
  have distinct_iff : statement.tokens.tableNames.Nodup ↔
      ∀ relation ∈ projection.relations, relation.name.slot ≠ table.name := by
    rw [reads.tableNames, List.nodup_cons, List.mem_map]
    constructor
    · rintro ⟨apart, -⟩ relation among same
      exact apart ⟨relation, among, same⟩
    · intro apart
      refine ⟨?_, slots⟩
      rintro ⟨relation, among, same⟩
      exact apart relation among same
  refine ⟨reads.correlations, slots, reads.qualifier_mem, distinct_iff, ?_⟩
  constructor
  · -- A slot that is the table's name stands for both of them.
    intro once relation among same
    have twice := once _ (reads.slot_mem among)
    have listed : table.name ∈ projection.relations.map fun relation => relation.name.slot :=
      List.mem_map.mpr ⟨relation, among, same⟩
    rw [reads.tableNames, same, List.count_cons_self, Nat.add_eq_right,
      List.count_eq_zero] at twice
    exact twice listed
  · intro apart name qualifies
    exact List.count_eq_one_of_mem (distinct_iff.mpr apart) (reads.qualifier_mem name qualifies)

theorem Reads.mayUse (reads : Reads scope table projection statement) : MayUse scope table := by
  apply exists_enforce_iff.mp
  cases reads with
  | page compiled =>
      obtain ⟨tenant, found, filters, terms, enforced, -⟩ := select_eq_ok compiled
      exact ⟨tenant, enforced⟩
  | keyed compiled =>
      obtain ⟨tenant, found, enforced, -⟩ := selectByKeys_eq_ok compiled
      exact ⟨tenant, enforced⟩

theorem selectByKeys_of_resolved {tenant : Option TenantPredicate} {found : Sql.Selection}
    (enforced : scope.enforce table = .ok tenant)
    (resolved : selection scope table projection = .ok found) (keys : List Datum) :
    selectByKeys scope table projection keys = .ok
      { selection := found, tenant, filters := [.single (.within ⟨some table.name, .id⟩ keys)] } :=
  bind_eq_ok.mpr ⟨tenant, enforced,
    bind_eq_ok.mpr ⟨found, Outcome.toExcept_eq_ok.mpr resolved, rfl⟩⟩

/-- What can be resolved on a table that may be used can be read by keys. -/
theorem exists_reads (usable : MayUse scope table)
    (joinable : ∀ relation ∈ projection.relations, Joinable scope relation) :
    ∃ statement, Reads scope table projection statement := by
  obtain ⟨tenant, enforced⟩ := exists_enforce_iff.mpr usable
  obtain ⟨found, resolved⟩ := exists_selection_iff.mpr joinable
  exact ⟨_, .keyed (selectByKeys_of_resolved enforced resolved [])⟩

/-- A read names its table and the targets of its relations, each target by a slot of its own, and
qualifies its columns by these names only.  The slot of a relation may be the name of the table
itself: exactly then a name is used for two tables, and some column is qualified by it.  So the
tables that can be read under a name that is used twice are those that are called like a slot. -/
theorem correlates_of_reads (listed : table ∈ scope.catalog.tables) :
    (∀ text projection statement, Projection.parse text = .ok projection →
        Reads scope table projection statement →
          Correlates table projection statement.tokens) ∧
      ((∃ text projection statement, Projection.parse text = .ok projection ∧
          Reads scope table projection statement ∧ ¬ statement.tokens.tableNames.Nodup) ↔
        MayUse scope table ∧ ∃ name : Ident, name.slot = table.name) := by
  have follows (text : Option String) (projection : Projection) (statement : Sql.Select)
      (parsed : Projection.parse text = .ok projection)
      (reads : Reads scope table projection statement) :
      Correlates table projection statement.tokens :=
    reads.correlates (Projection.isSound_of_parse parsed).distinct
  refine ⟨follows, ?_, ?_⟩
  · rintro ⟨text, projection, statement, parsed, reads, clash⟩
    rw [(follows text projection statement parsed reads).distinct_iff] at clash
    push Not at clash
    obtain ⟨relation, -, same⟩ := clash
    exact ⟨reads.mayUse, relation.name, same⟩
  · rintro ⟨usable, name, same⟩
    -- The table is joined with itself.
    let joined : Projection := { relations := [⟨name, table.name, .all⟩] }
    have sound : joined.IsSound :=
      ⟨List.nodup_singleton name, List.forall_mem_singleton.mpr (by nofun)⟩
    have parsed := Projection.parse_of_written sound (.inr (.inr (List.cons_ne_nil _ _)))
      (Projection.written_print sound)
    have joinable : ∀ relation ∈ joined.relations, Joinable scope relation :=
      List.forall_mem_singleton.mpr ⟨table, listed, rfl, usable⟩
    obtain ⟨statement, reads⟩ := exists_reads usable joinable
    refine ⟨_, joined, statement, parsed, reads, fun distinct => ?_⟩
    have apart := (follows _ joined statement parsed reads).distinct_iff.mp distinct
    exact apart _ (List.mem_singleton_self _) same

/-- A table that is called like the slot of a relation. -/
def wardenTable : Table := ⟨⟨"warden_rel", by decide⟩, false⟩

/-- The scope of a request without a tenant, with that table and rooms. -/
def wardenScope : Scope where
  catalog :=
    { Catalog.ofTable wardenTable with
      tables := [wardenTable, roomTable]
      names_nodup := by decide }
  tenant := .none

/-- All columns of the table, and a room under the alias of that slot. -/
def wardenProjection : Projection where
  allColumns := true
  relations := [⟨⟨"warden", by decide⟩, roomTable.name, .all⟩]

/-- The select of the table with its rooms: both are called `warden_rel`. -/
def wardenText : String :=
  "SELECT \"warden_rel\".*, CASE WHEN \"warden_rel\".\"id\" IS NULL THEN NULL ELSE " ++
    "row_to_json(\"warden_rel\") END AS \"warden\" FROM \"warden_rel\" LEFT JOIN \"rooms\" " ++
    "\"warden_rel\" ON \"warden_rel\".\"id\" = \"warden_rel\".\"warden_id\" LIMIT 100"

theorem correlates_of_reads_wardens :
    wardenTable ∈ wardenScope.catalog.tables ∧
      Projection.parse (some "*,warden:rooms(*)") = .ok wardenProjection ∧
      ∃ statement, select wardenScope wardenTable wardenProjection ⟨[]⟩ = .ok statement ∧
        (Sql.Statement.select statement).text = wardenText ∧
        Correlates wardenTable wardenProjection statement.tokens ∧
        ¬ statement.tokens.tableNames.Nodup := by
  have listed : wardenTable ∈ wardenScope.catalog.tables := List.mem_cons_self
  have parsed : Projection.parse (some "*,warden:rooms(*)") = .ok wardenProjection := by rfl
  have written : ((select wardenScope wardenTable wardenProjection ⟨[]⟩).map
      fun statement => (Sql.Statement.select statement).text).toOption = some wardenText := by
    decide +kernel
  obtain ⟨statement, compiled, text⟩ := exists_ok_of_toOption written
  have correlates := (correlates_of_reads listed).1 _ _ statement parsed (.page compiled)
  refine ⟨listed, parsed, statement, compiled, text, correlates, fun distinct => ?_⟩
  exact correlates.distinct_iff.mp distinct _ (List.mem_singleton_self _) (by decide)

/-! ### Outputs -/

end Compile

namespace Sql

/-- The name of an output column: the one that it ends with, if it does. -/
def Fragment.outputName? (output : Fragment) : Option Ident :=
  match output.getLast? with
  | some (.name ident) => some ident
  | _ => none

theorem Fragment.outputName?_append_name (front : Fragment) (ident : Ident) :
    outputName? (front ++ [.name ident]) = some ident := by
  rw [outputName?, List.getLast?_concat]

theorem Join.outputName?_output (join : Join) :
    join.output.outputName? = some join.relation.name := by
  have ends : join.output = (.word .whenNull :: (Column.mk (some join.slot) .id).tokens ++
      .word .thenNull :: join.object ++ [.word .endAs]) ++ [.name join.relation.name] := by
    simp [output]
  rw [ends, Fragment.outputName?_append_name]

/-- The names of the columns that a select puts out; the columns of a whole row are not named. -/
def Select.outputNames (select : Select) : List Ident :=
  select.selection.outputs.filterMap Fragment.outputName?

theorem Select.outputNames_eq (select : Select) :
    select.outputNames =
      select.selection.columns ++ select.selection.joins.map fun join => join.relation.name := by
  have named (source : Ident) (columns : List Ident) : (columns.map fun name =>
      (Column.mk (some source) name).tokens).filterMap Fragment.outputName? = columns := by
    rw [List.filterMap_map]
    exact List.filterMap_some
  have base : select.selection.baseOutputs.filterMap Fragment.outputName? =
      select.selection.columns := by
    unfold Selection.baseOutputs
    split
    · exact named _ _
    · exact named _ _
  rw [outputNames, Selection.outputs, List.filterMap_append, base, List.filterMap_map,
    ← List.filterMap_eq_map]
  exact congrArg _ (List.filterMap_congr fun join _ => join.outputName?_output)

end Sql

/-- The name that the rows of a statement are returned by. -/
def Command.rowName : Ident := ⟨"r", by decide⟩

/-- A select whose rows are not reached by their name: one of its columns has it. -/
def Sql.Select.CapturesRow (select : Sql.Select) : Prop := Command.rowName ∈ select.outputNames

/-- A statement on a table is executed as a table expression that is called like its rows, and what
is returned is what that name stands for there. -/
theorem Command.text_rows (statement : Sql.Statement) :
    (Command.rows statement).text =
      "WITH " ++ rowName.text ++ " AS (" ++ statement.text ++ ") SELECT row_to_json(" ++
        rowName.text ++ ") AS row FROM " ++ rowName.text := by
  simp only [String.append_assoc]
  rfl

namespace Compile

theorem Reads.outputNames (reads : Reads scope table projection statement) :
    statement.outputNames = projection.columns ++ projection.aliases := by
  obtain ⟨joins, shape, each⟩ := forall₂_of_selection reads.resolved
  rw [Sql.Select.outputNames_eq, shape, Projection.aliases, ← relations_of_forall₂ each,
    List.map_map]
  rfl

/-- Columns are not checked, so a read of more columns is compiled too. -/
theorem Reads.withColumns (reads : Reads scope table projection statement) (columns : List Ident) :
    Reads scope table { projection with columns }
      { statement with selection := { statement.selection with columns } } := by
  have resolved (found : Sql.Selection)
      (compiled : selection scope table projection = .ok found) :
      selection scope table { projection with columns } = .ok { found with columns } := by
    obtain ⟨joins, accepted, rfl⟩ := map_eq_ok.mp compiled
    exact map_eq_ok.mpr ⟨joins, accepted, rfl⟩
  cases reads with
  | @page query _ compiled =>
      obtain ⟨tenant, found, filters, terms, enforced, selected, filtered, ordered, rfl⟩ :=
        select_eq_ok compiled
      apply @Reads.page _ _ _ query
      refine bind_eq_ok.mpr ⟨tenant, enforced, ?_⟩
      refine bind_eq_ok.mpr ⟨_, Outcome.toExcept_eq_ok.mpr (resolved found selected), ?_⟩
      exact bind_eq_ok.mpr ⟨filters, Outcome.toExcept_eq_ok.mpr filtered,
        bind_eq_ok.mpr ⟨terms, ordered, rfl⟩⟩
  | @keyed keys _ compiled =>
      obtain ⟨tenant, found, enforced, selected, rfl⟩ := selectByKeys_eq_ok compiled
      exact .keyed (selectByKeys_of_resolved enforced (resolved found selected) keys)

/-- The rows of a read are returned by a name, and the outputs of the read are named by the columns
and the aliases of its projection, whatever they are.  So the name means a column, and not the row,
exactly where the projection has it, and every projection that is read can be asked for with it. -/
theorem captures_iff_of_reads {text : Option String}
    (parsed : Projection.parse text = .ok projection)
    (reads : Reads scope table projection statement) :
    (Command.rows (.select statement)).text =
        "WITH " ++ Command.rowName.text ++ " AS (" ++ (Sql.Statement.select statement).text ++
          ") SELECT row_to_json(" ++ Command.rowName.text ++ ") AS row FROM " ++
          Command.rowName.text ∧
      statement.outputNames = projection.columns ++ projection.aliases ∧
      (statement.CapturesRow ↔
        Command.rowName ∈ projection.columns ∨ Command.rowName ∈ projection.aliases) ∧
      ∃ other wider captured, Projection.parse (some other) = .ok wider ∧
        wider = { projection with columns := projection.columns ++ [Command.rowName] } ∧
        Reads scope table wider captured ∧ captured.CapturesRow := by
  have outputs := reads.outputNames
  refine ⟨Command.text_rows _, outputs, ?_, ?_⟩
  · rw [Sql.Select.CapturesRow, outputs, List.mem_append]
  · have ⟨distinct, fields⟩ := Projection.isSound_of_parse parsed
    have more := reads.withColumns (projection.columns ++ [Command.rowName])
    have sound : Projection.IsSound
        { projection with columns := projection.columns ++ [Command.rowName] } :=
      ⟨distinct, fields⟩
    have again := Projection.parse_of_written sound (.inr (.inl (List.concat_ne_nil _ _)))
      (Projection.written_print sound)
    refine ⟨_, _, _, again, rfl, more, ?_⟩
    rw [Sql.Select.CapturesRow, more.outputNames]
    exact List.mem_append_left _ (List.mem_append_right _ (List.mem_singleton_self _))

/-- The column of a room that is called like the rows of a statement. -/
def namedProjection : Projection where
  columns := [Command.rowName]

/-- The select of that column of the rooms, as it is executed. -/
def namedText : String :=
  "WITH r AS (SELECT \"rooms\".\"r\" FROM \"rooms\" LIMIT 100) SELECT row_to_json(r) AS row FROM r"

theorem captures_iff_of_reads_named :
    Projection.parse (some "r") = .ok namedProjection ∧
      ∃ statement, select deskScope roomTable namedProjection ⟨[("select", "r")]⟩ =
          .ok statement ∧
        (Command.rows (.select statement)).text = namedText ∧
        statement.outputNames = [Command.rowName] ∧ statement.CapturesRow := by
  have parsed : Projection.parse (some "r") = .ok namedProjection := by rfl
  have written : ((select deskScope roomTable namedProjection ⟨[("select", "r")]⟩).map
      fun statement => (Command.rows (.select statement)).text).toOption = some namedText := by
    decide +kernel
  obtain ⟨statement, compiled, text⟩ := exists_ok_of_toOption written
  obtain ⟨-, outputs, captures_iff, -⟩ := captures_iff_of_reads parsed (.page compiled)
  exact ⟨parsed, statement, compiled, text, outputs, captures_iff.mpr (.inl List.mem_cons_self)⟩

end Compile

end TableGate

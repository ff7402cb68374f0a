import TableGate.Proofs.Compile.Outcome
import TableGate.Proofs.Statement.Naming

/-!
# Where the names of a statement come from

Names reach a statement from the parameters of a query, from its alternatives and its order, from
the projection and from the fields of a body, each read as an identifier on its own way.  `Knows`
lists what they can be: names of the catalog, the key, what the call gives, and what follows from
the alias of a relation.  A compiled statement is named by these only (`Call.namedBy`), so its text
is lexically safe (`Call.lexicallySafe_of_compile`).
-/

namespace TableGate

open Sql (Column Condition Predicate)

/-! ### What a call gives -/

/-- The names of the parameters that are filters. -/
def Query.filterNames (query : Query) : List String :=
  (query.pairs.map Prod.fst).filter fun name => !isReserved name

/-- The names of the columns in the groups of alternatives. -/
def Query.alternativeNames (query : Query) : List String :=
  (query.pairs.filter fun parameter => parameter.1 == "or").flatMap fun parameter =>
    (Compile.groupPieces parameter.2).filterMap fun piece =>
      (Filter.cutAlternative? piece).map fun parts => String.ofList (Text.trim parts.1)

/-- The names of the columns to order by. -/
def Query.orderNames (query : Query) : List String :=
  (((query.order?.getD "").toList.splitOn ',').map Text.trim).map fun token =>
    String.ofList ((Text.cutAt '.' token).getD (token, [])).1

/-- The texts that a query gives as names. -/
def Query.names (query : Query) : List String :=
  query.filterNames ++ query.alternativeNames ++ query.orderNames

def Fields.names : Fields → List Ident
  | .all => []
  | .listed names => names

/-- The names in a projection: columns, aliases, targets and fields. -/
def Projection.names (projection : Projection) : List Ident :=
  projection.columns ++ projection.relations.flatMap fun relation =>
    relation.name :: relation.target :: relation.fields.names

def Record.names (record : Record) : List String := record.fields.map Prod.fst

namespace Compile

/-- The texts that a call gives as names. -/
def Call.given : Call → List String
  | .select projection query => projection.names.map Ident.text ++ query.names
  | .selectByKeys projection _ => projection.names.map Ident.text
  | .insert records => records.flatMap Record.names
  | .update patch query => patch.names ++ query.names
  | .delete query => query.names

def Call.relations : Call → List Relation
  | .select projection _ => projection.relations
  | .selectByKeys projection _ => projection.relations
  | .insert _ | .update _ _ | .delete _ => []

/-- A name is given by a call. -/
def Call.Gives (call : Call) (name : Ident) : Prop := name.text ∈ call.given

instance (call : Call) (name : Ident) : Decidable (call.Gives name) :=
  inferInstanceAs (Decidable (_ ∈ _))

/-- The names that a call may use. -/
inductive Call.Knows (catalog : Catalog) (call : Call) : Ident → Prop
  | table {table : Table} (listed : table ∈ catalog.tables) : Knows catalog call table.name
  | tenantColumn : Knows catalog call catalog.tenantColumn
  | key : Knows catalog call .id
  | given {name : Ident} (gives : call.Gives name) : Knows catalog call name
  | foreignKey {relation : Relation} (among : relation ∈ call.relations) :
      Knows catalog call relation.name.foreignKey
  | slot {relation : Relation} (among : relation ∈ call.relations) :
      Knows catalog call relation.name.slot

/-! ### Names that are read -/

theorem name_of_ofParameter {name value : String} {filter : Filter}
    (read : Filter.ofParameter name value = .ok (some filter)) : filter.column.text = name := by
  obtain ⟨column, named, rest⟩ := bind_eq_ok.mp read
  cases cut : Text.cutAt '.' value.toList with
  | none =>
      rw [cut] at rest
      exact absurd rest nofun
  | some parts =>
      rw [cut] at rest
      obtain ⟨operator, -, rfl⟩ := Option.map_eq_some_iff.mp (Except.ok.inj rest)
      exact Ident.text_of_read named

theorem name_of_ofAlternative {piece : List Char} {filter : Filter}
    (read : Filter.ofAlternative piece = .ok (some filter)) :
    ∃ parts, Filter.cutAlternative? piece = some parts ∧
      filter.column.text = String.ofList (Text.trim parts.1) := by
  unfold Filter.ofAlternative at read
  split at read
  · exact absurd read nofun
  · next column operator operand cut =>
      obtain ⟨found, named, shape⟩ := bind_eq_ok.mp read
      obtain ⟨kept, -, rfl⟩ := Option.map_eq_some_iff.mp (Except.ok.inj shape)
      exact ⟨_, cut, Ident.text_of_read named⟩

theorem column_predicate (filter : Filter) (qualifier : Option Ident) :
    (filter.predicate qualifier).column = ⟨qualifier, filter.column⟩ := by
  unfold Filter.predicate
  split <;> rfl

variable {qualifier : Option Ident} {query : Query} {conditions : List Condition}

/-- The column of a filter is named by its parameter. -/
theorem columns_of_parameter {parameter : String × String} {filter : Filter}
    (listed : parameter ∈ query.pairs) (plain : ¬ Query.isReserved parameter.1 = true)
    (read : Filter.ofParameter parameter.1 parameter.2 = .ok (some filter)) :
    ∀ column ∈ (Condition.single (filter.predicate qualifier)).columns,
      column.table = qualifier ∧ column.name.text ∈ query.filterNames := by
  intro column member
  obtain rfl := List.mem_singleton.mp member
  rw [column_predicate]
  refine ⟨rfl, List.mem_filter.mpr ⟨?_, ?_⟩⟩
  · exact List.mem_map.mpr ⟨parameter, listed, (name_of_ofParameter read).symm⟩
  · simpa [name_of_ofParameter read] using plain

/-- The columns of a group of alternatives are named in its pieces. -/
theorem columns_of_group {parameter : String × String} {condition : Condition}
    (listed : parameter ∈ query.pairs) (named : parameter.1 = "or")
    (compiled : group qualifier parameter.2 = .ok (some condition)) :
    ∀ column ∈ condition.columns,
      column.table = qualifier ∧ column.name.text ∈ query.alternativeNames := by
  obtain ⟨alternatives, rfl, each⟩ := group_eq_some compiled
  intro column member
  obtain ⟨alternative, present, rfl⟩ := List.mem_map.mp member
  obtain ⟨piece, among, filter, read, rfl⟩ := each alternative present
  obtain ⟨parts, cut, spelled⟩ := name_of_ofAlternative read
  have group : parameter ∈ query.pairs.filter fun parameter => parameter.1 == "or" :=
    List.mem_filter.mpr ⟨listed, beq_iff_eq.mpr named⟩
  rw [column_predicate]
  refine ⟨rfl, List.mem_flatMap.mpr ⟨parameter, group, List.mem_filterMap.mpr ⟨piece, among, ?_⟩⟩⟩
  rw [cut, spelled, Option.map_some]

/-- The columns of a read's filters are named in its query. -/
theorem columns_of_filters (compiled : filters qualifier query.pairs = .ok conditions) :
    ∀ condition ∈ conditions, ∀ column ∈ condition.columns,
      column.table = qualifier ∧ column.name.text ∈ query.names := by
  intro condition present column member
  obtain ⟨parameter, listed, ⟨named, alternatives⟩ | ⟨plain, filter, read, rfl⟩⟩ :=
    mem_of_filters compiled present
  · obtain ⟨same, given⟩ := columns_of_group listed named alternatives column member
    exact ⟨same, List.mem_append_left _ (List.mem_append_right _ given)⟩
  · obtain ⟨same, given⟩ := columns_of_parameter listed plain read column member
    exact ⟨same, List.mem_append_left _ (List.mem_append_left _ given)⟩

/-- The columns of a write's filters are named in its query. -/
theorem columns_of_equalityFilters
    (compiled : equalityFilters qualifier query.pairs = .ok conditions) :
    ∀ condition ∈ conditions, ∀ column ∈ condition.columns,
      column.table = qualifier ∧ column.name.text ∈ query.names := by
  intro condition present column member
  obtain ⟨parameter, listed, plain, filter, read, rfl⟩ := mem_of_equalityFilters compiled present
  obtain ⟨same, given⟩ := columns_of_parameter listed plain read column member
  exact ⟨same, List.mem_append_left _ (List.mem_append_left _ given)⟩

/-- The columns of the order are named in the query. -/
theorem name_of_order {terms : List Sql.OrderTerm} (read : order query = .ok terms) :
    ∀ term ∈ terms, term.column.text ∈ query.names := by
  intro term member
  obtain ⟨token, listed, compiled⟩ := mem_of_mapM read member
  obtain ⟨column, named, shape⟩ := bind_eq_ok.mp compiled
  cases shape
  apply List.mem_append_right
  exact List.mem_map.mpr ⟨token, (List.mem_filter.mp listed).1, (Ident.text_of_read named).symm⟩

/-! ### Fields of a body -/

variable {tenant : Option TenantPredicate} {record : Record}

/-- The columns that are assigned are named by the fields of the record. -/
theorem name_of_assignments {dropNulls : Bool} {assigned : List (Ident × Datum)}
    (read : assignments tenant dropNulls record = .ok assigned) :
    ∀ entry ∈ assigned, entry.1.text ∈ record.names := by
  obtain ⟨named, fields, shape⟩ := bind_eq_ok.mp read
  cases shape
  intro entry member
  obtain ⟨kept, present, rfl⟩ := List.mem_map.mp member
  obtain ⟨field, listed, step⟩ := mem_of_mapM fields (List.mem_filter.mp present).1
  obtain ⟨column, found, same⟩ := bind_eq_ok.mp step
  cases same
  exact List.mem_map.mpr ⟨field, listed, (Ident.text_of_read found).symm⟩

/-- A row to insert has the columns of its record and that of the tenant. -/
theorem name_of_rowAssignments {row : List (Ident × Datum)}
    (read : rowAssignments tenant record = .ok row) :
    ∀ entry ∈ row, entry.1.text ∈ record.names ∨
      ∃ predicate, tenant = some predicate ∧ entry.1 = predicate.column := by
  obtain ⟨fields, assigned, shape⟩ := bind_eq_ok.mp read
  cases shape
  intro entry member
  rcases List.mem_append.mp member with field | last
  · exact .inl (name_of_assignments assigned entry field)
  · obtain ⟨predicate, present, rfl⟩ := Option.map_eq_some_iff.mp (Option.mem_toList.mp last)
    exact .inr ⟨predicate, present, rfl⟩

/-! ### Calls -/

theorem mem_of_table {catalog : Catalog} {name : String} {table : Table}
    (found : catalog.lookup name = .ok table) : table ∈ catalog.tables := by
  unfold Catalog.lookup at found
  split at found
  · next search =>
      cases found
      exact List.mem_of_find?_eq_some search
  · exact absurd found nofun

theorem column_of_enforce {scope : Scope} {table : Table}
    (enforced : scope.enforce table = .ok tenant) :
    ∀ predicate, tenant = some predicate → predicate.column = scope.catalog.tenantColumn := by
  rintro predicate rfl
  rcases Scope.enforce_eq_ok enforced with ⟨-, none⟩ | ⟨-, tenantId, -, same⟩
  · exact absurd none nofun
  · cases same
    rfl

variable {scope : Scope} {table : Table}

/-- The condition on the tenant comes on top of known conditions. -/
theorem namedBy_conditions {names : Ident → Prop}
    (enforced : scope.enforce table = .ok tenant) (column : names scope.catalog.tenantColumn)
    (source : ∀ found, qualifier = some found → names found)
    (filters : ∀ condition ∈ conditions, ∀ column ∈ condition.columns,
      column.table = qualifier ∧ names column.name) :
    ∀ condition ∈ Sql.conditions qualifier tenant conditions, condition.NamedBy names := by
  have rest : ∀ condition ∈ conditions, condition.NamedBy names := by
    intro condition member found present
    obtain ⟨same, known⟩ := filters condition member found present
    exact ⟨fun table shape => source table (same ▸ shape), known⟩
  intro condition member
  cases tenant with
  | none => exact rest condition member
  | some predicate =>
      rcases List.mem_cons.mp member with rfl | later
      · intro found present
        obtain rfl := List.mem_singleton.mp present
        have pinned : names predicate.column := by
          rw [column_of_enforce enforced predicate rfl]
          exact column
        exact ⟨source, pinned⟩
      · exact rest condition later

variable {projection : Projection} {call : Call} {statement : Sql.Statement}

/-- The target of a joined relation is a table of the catalog. -/
theorem namedBy_join {relation : Relation} {join : Sql.Join}
    (among : relation ∈ call.relations)
    (gives : ∀ name ∈ relation.name :: relation.target :: relation.fields.names, call.Gives name)
    (resolved : Compile.join scope relation = .ok join) :
    join.NamedBy (call.Knows scope.catalog) call.Gives := by
  obtain ⟨target, tenant, found, enforced, rfl⟩ := join_eq_ok resolved
  constructor
  · exact .table (mem_of_table found)
  · exact .given (gives relation.name List.mem_cons_self)
  · change call.Knows scope.catalog relation.name.foreignKey
    exact .foreignKey among
  · change call.Knows scope.catalog relation.name.slot
    exact .slot among
  · exact .key
  · intro listed shape name member
    have fields : relation.fields = .listed listed := shape
    have within : name ∈ relation.fields.names := by
      rw [fields]
      exact member
    have given := gives name (List.mem_cons_of_mem _ (List.mem_cons_of_mem _ within))
    exact ⟨.given given, given⟩
  · intro predicate pinned
    rw [column_of_enforce enforced predicate pinned]
    exact .tenantColumn

theorem namedBy_selection {selection : Sql.Selection} (listed : table ∈ scope.catalog.tables)
    (relations : projection.relations ⊆ call.relations)
    (gives : ∀ name ∈ projection.names, call.Gives name)
    (resolved : Compile.selection scope table projection = .ok selection) :
    selection.source = table.name ∧ selection.NamedBy (call.Knows scope.catalog) call.Gives := by
  obtain ⟨joins, rfl, related⟩ := selection_eq_ok resolved
  refine ⟨rfl, .table listed, ?_, ?_⟩
  · intro column member
    exact .given (gives column (List.mem_append_left _ member))
  · intro join member
    obtain ⟨relation, present, joined⟩ := related join member
    refine namedBy_join (relations present) (fun name within => ?_) joined
    exact gives name (List.mem_append_right _ (List.mem_flatMap.mpr ⟨relation, present, within⟩))

theorem namedBy_select {query : Query} {select : Sql.Select}
    (listed : table ∈ scope.catalog.tables)
    (compiled : Compile.select scope table projection query = .ok select) :
    select.NamedBy ((Call.select projection query).Knows scope.catalog)
      (Call.select projection query).Gives := by
  have gives : ∀ name ∈ projection.names, (Call.select projection query).Gives name :=
    fun name member => List.mem_append_left _ (List.mem_map_of_mem member)
  obtain ⟨tenant, selection, filters, terms, enforced, resolved, filtered, ordered, rfl⟩ :=
    select_eq_ok compiled
  obtain ⟨source, named⟩ := namedBy_selection listed (List.Subset.refl _) gives resolved
  refine ⟨named, ?_, ?_⟩
  · apply namedBy_conditions enforced .tenantColumn
    · intro found shape
      exact Option.some.inj shape ▸ named.source
    · intro condition member column present
      obtain ⟨same, given⟩ := columns_of_filters filtered condition member column present
      exact ⟨same.trans (congrArg some source.symm), .given (List.mem_append_right _ given)⟩
  · intro term member
    exact .given (List.mem_append_right _ (name_of_order ordered term member))

theorem namedBy_selectByKeys {keys : List Datum} {select : Sql.Select}
    (listed : table ∈ scope.catalog.tables)
    (compiled : Compile.selectByKeys scope table projection keys = .ok select) :
    select.NamedBy ((Call.selectByKeys projection keys).Knows scope.catalog)
      (Call.selectByKeys projection keys).Gives := by
  have gives : ∀ name ∈ projection.names, (Call.selectByKeys projection keys).Gives name :=
    fun name member => List.mem_map_of_mem member
  obtain ⟨tenant, selection, enforced, resolved, rfl⟩ := selectByKeys_eq_ok compiled
  obtain ⟨source, named⟩ := namedBy_selection listed (List.Subset.refl _) gives resolved
  refine ⟨named, ?_, fun term member => absurd member List.not_mem_nil⟩
  apply namedBy_conditions enforced .tenantColumn
  · intro found shape
    exact Option.some.inj shape ▸ named.source
  · intro condition member column present
    obtain rfl := List.mem_singleton.mp member
    obtain rfl := List.mem_singleton.mp present
    exact ⟨congrArg some source.symm, .key⟩

theorem namedBy_insert {records : List Record} {insert : Sql.Insert}
    (listed : table ∈ scope.catalog.tables)
    (compiled : Compile.insert scope table records = .ok insert) :
    insert.NamedBy ((Call.insert records).Knows scope.catalog) := by
  obtain ⟨tenant, rows, enforced, -, read, rfl⟩ := insert_eq_ok compiled
  refine ⟨.table listed, fun column member => ?_⟩
  have within := (mem_firstSeen.mp member).resolve_left List.not_mem_nil
  obtain ⟨row, present, cell⟩ := List.mem_flatMap.mp within
  obtain ⟨entry, among, rfl⟩ := List.mem_map.mp cell
  obtain ⟨record, given, assigned⟩ := mem_of_mapM read present
  rcases name_of_rowAssignments assigned entry among with field | ⟨predicate, pinned, same⟩
  · exact .given (List.mem_flatMap.mpr ⟨record, given, field⟩)
  · rw [same, column_of_enforce enforced predicate pinned]
    exact .tenantColumn

/-- The conditions of a write are on the tenant and on columns that its query names. -/
theorem namedBy_writeConditions {query : Query} {filters : List Condition}
    (enforced : scope.enforce table = .ok tenant)
    (gives : query.names ⊆ call.given)
    (compiled : equalityFilters none query.pairs = .ok filters) :
    ∀ condition ∈ Sql.conditions none tenant filters,
      condition.NamedBy (call.Knows scope.catalog) := by
  apply namedBy_conditions enforced .tenantColumn
  · exact fun found shape => absurd shape nofun
  · intro condition member column present
    obtain ⟨same, given⟩ := columns_of_equalityFilters compiled condition member column present
    exact ⟨same, .given (gives given)⟩

theorem namedBy_update {patch : Record} {query : Query} {update : Sql.Update}
    (listed : table ∈ scope.catalog.tables)
    (compiled : Compile.update scope table patch query = .ok update) :
    update.NamedBy ((Call.update patch query).Knows scope.catalog) := by
  obtain ⟨tenant, fields, filters, enforced, read, filtered, -, rfl⟩ := update_eq_ok compiled
  refine ⟨.table listed, fun entry member => ?_, ?_⟩
  · have given := name_of_assignments read entry (List.mem_filter.mp member).1
    exact .given (List.mem_append_left _ given)
  · exact namedBy_writeConditions enforced (List.subset_append_right _ _) filtered

theorem namedBy_delete {query : Query} {delete : Sql.Delete}
    (listed : table ∈ scope.catalog.tables)
    (compiled : Compile.delete scope table query = .ok delete) :
    delete.NamedBy ((Call.delete query).Knows scope.catalog) := by
  obtain ⟨tenant, filters, enforced, filtered, -, rfl⟩ := delete_eq_ok compiled
  exact ⟨.table listed, namedBy_writeConditions enforced (List.Subset.refl _) filtered⟩

/-- A compiled statement has only names that its call may use. -/
theorem Call.namedBy (listed : table ∈ scope.catalog.tables)
    (compiled : call.compile scope table = .ok statement) :
    statement.NamedBy (call.Knows scope.catalog) call.Gives := by
  cases call with
  | select projection query =>
      obtain ⟨select, read, rfl⟩ := map_eq_ok.mp compiled
      exact namedBy_select listed read
  | selectByKeys projection keys =>
      obtain ⟨select, read, rfl⟩ := map_eq_ok.mp compiled
      exact namedBy_selectByKeys listed read
  | insert records =>
      obtain ⟨insert, written, rfl⟩ := map_eq_ok.mp compiled
      exact namedBy_insert listed written
  | update patch query =>
      obtain ⟨update, written, rfl⟩ := map_eq_ok.mp compiled
      exact namedBy_update listed written
  | delete query =>
      obtain ⟨delete, written, rfl⟩ := map_eq_ok.mp compiled
      exact namedBy_delete listed written

/-- The text of every compiled statement is made up of words of the fixed vocabulary, quoted names
that its call may use, quoted labels that it gives, placeholders, and the numerals of a page. -/
theorem Call.lexicallySafe_of_compile (listed : table ∈ scope.catalog.tables)
    (compiled : call.compile scope table = .ok statement) :
    ∃ lexemes, Sql.LexicallySafe (call.Knows scope.catalog) call.Gives lexemes statement.text :=
  ⟨_, Sql.Statement.lexicallySafe (call.namedBy listed compiled)⟩

/-- A table of members, each of whom may have another one as mentor. -/
def memberTable : Table := ⟨⟨"members", by decide⟩, false⟩

/-- The members together with their mentors, sought with an operand full of quotes and marks. -/
def memberCall : Call :=
  .select ⟨false, [⟨"nick", by decide⟩],
      [⟨⟨"mentor", by decide⟩, ⟨"members", by decide⟩, .listed [⟨"nick", by decide⟩]⟩]⟩
    ⟨[("or", "( nick .eq.\"';--/*\",age.gt.$1)"), ("order", " nick.desc"), ("limit", "5"),
      ("offset", "2")]⟩

theorem Call.lexicallySafe_of_compile_members :
    ∃ statement lexemes, memberCall.compile ⟨.ofTable memberTable, .none⟩ memberTable =
        .ok statement ∧
      statement.text = "SELECT \"members\".\"nick\", CASE WHEN \"mentor_rel\".\"id\" IS NULL " ++
        "THEN NULL ELSE json_build_object('nick', \"mentor_rel\".\"nick\") END AS \"mentor\" " ++
        "FROM \"members\" LEFT JOIN \"members\" \"mentor_rel\" ON \"mentor_rel\".\"id\" = " ++
        "\"members\".\"mentor_id\" WHERE (\"members\".\"nick\" = $1 OR " ++
        "\"members\".\"age\" > $2) ORDER BY \"members\".\"nick\" DESC LIMIT 5 OFFSET 2" ∧
      Sql.LexicallySafe (memberCall.Knows (.ofTable memberTable)) memberCall.Gives lexemes
        statement.text := by
  have listed : memberTable ∈ (Catalog.ofTable memberTable).tables := List.mem_cons_self
  have written : ((memberCall.compile ⟨.ofTable memberTable, .none⟩ memberTable).map
      Sql.Statement.text).toOption = some (
          "SELECT \"members\".\"nick\", CASE WHEN \"mentor_rel\".\"id\" IS NULL " ++
          "THEN NULL ELSE json_build_object('nick', \"mentor_rel\".\"nick\") END AS \"mentor\" " ++
          "FROM \"members\" LEFT JOIN \"members\" \"mentor_rel\" ON \"mentor_rel\".\"id\" = " ++
          "\"members\".\"mentor_id\" WHERE (\"members\".\"nick\" = $1 OR " ++
          "\"members\".\"age\" > $2) ORDER BY \"members\".\"nick\" DESC LIMIT 5 OFFSET 2") := by
    decide +kernel
  cases compiled : memberCall.compile ⟨.ofTable memberTable, .none⟩ memberTable with
  | error error =>
      rw [compiled] at written
      exact absurd written nofun
  | ok statement =>
      rw [compiled] at written
      obtain ⟨lexemes, safe⟩ := Call.lexicallySafe_of_compile listed compiled
      exact ⟨statement, lexemes, rfl, Option.some.inj written, safe⟩

end Compile

end TableGate

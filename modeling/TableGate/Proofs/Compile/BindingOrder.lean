import TableGate.Proofs.Compile.Threading

/-!
# The order of binding

A call that is drafted in order gives the statement that it compiles to (`Compile.Call.draft_eq`).
Each part is written like the fragment that is compiled for it, with the numbers that are next on
the draft (`Drafting.run_filter`, `Drafting.run_join`, `Drafting.run_row`), and the parts stand in
the text of the statement in the order in which their values are bound (`Drafting.run_whereClause`,
`Drafting.write_selection`, `Drafting.write_update`, `Drafting.write_insert`).
-/

namespace TableGate

open Sql (Column Condition Fragment Join Predicate Word)
open Compile (Outcome acceptAll firstSeen)

namespace Drafting

variable {scope : Scope} {table : Table} {qualifier : Option Ident}

/-! ### Conditions are placed -/

/-- A value is bound and written as its placeholder. -/
theorem run_push (value : Datum) (draft : Draft) :
    (push value).run draft = .ok (draft.write [.value value]) := by
  rw [Draft.write, Fragment.text_value_cons, Fragment.text_nil, String.append_empty]
  rfl

/-- A compared value is bound, and written after the column and the words. -/
theorem run_compared (column : Column) (word : Word) (value : Datum) (draft : Draft) :
    (compared column word.text value).run draft =
      .ok (draft.write (column.tokens ++ [.word word, .value value])) := by
  rw [compared, run_bind_ok (run_push value draft), Draft.write, Draft.write,
    Column.text_tokens_append, Fragment.values_append, Column.values_tokens,
    Fragment.text_word_cons, ← String.append_assoc]
  rfl

/-- A column with words after it binds nothing. -/
theorem run_worded (column : Column) (word : Word) (draft : Draft) :
    (pure (column.text ++ word.text) : Drafting String).run draft =
      .ok (draft.write (column.tokens ++ [.word word])) := by
  have unbound : (column.tokens ++ [.word word] : Fragment).values = [] := by
    rw [Fragment.values_append, Column.values_tokens]
    rfl
  rw [Draft.write_of_values draft unbound, Column.text_tokens_append, Fragment.text_word_cons,
    Fragment.text_nil, String.append_empty]
  rfl

/-- The values of a list are bound in their order. -/
theorem run_within (column : Column) (values : List Datum) (draft : Draft) :
    (within column values).run draft =
      .ok (draft.write (Predicate.within column values).tokens) := by
  have bound : (Predicate.within column values).tokens.values = values :=
    Condition.values_within column values
  rw [Draft.write, Predicate.text_within, bound]
  cases values with
  | nil =>
      rw [Draft.bind_nil]
      rfl
  | cons value rest =>
      have pushed := run_mapM_ok run_push (value :: rest) draft
      have single : ((value :: rest).map fun value => ([.value value] : Fragment)).flatMap
          Fragment.values = value :: rest := by
        rw [List.flatMap_map]
        exact List.flatMap_singleton' _
      rw [Draft.place, Sql.texts_values, single] at pushed
      exact run_bind_ok pushed

/-- The tenant is bound as one value. -/
theorem run_tenant (predicate : TenantPredicate) (draft : Draft) :
    (tenant qualifier predicate).run draft = .ok (draft.write (predicate.on qualifier).tokens) :=
  run_compared _ .equal _ draft

/-- A filter is written as its predicate, whatever its operator is. -/
theorem run_filter (filter : Filter) (draft : Draft) :
    (Drafting.filter qualifier filter).run draft =
      .ok (draft.write (filter.predicate qualifier).tokens) := by
  unfold Drafting.filter Filter.predicate
  cases filter.operator with
  | eq =>
      rcases Literal.ofOperand? filter.operand with _ | ⟨_ | _⟩ | _
      · exact run_compared _ .equal _ draft
      · exact run_worded _ .equalsFalse draft
      · exact run_worded _ .equalsTrue draft
      · exact run_worded _ .isNull draft
  | is =>
      rcases Literal.ofOperand? filter.operand with _ | ⟨_ | _⟩ | _
      · exact run_compared _ .notDistinct _ draft
      · exact run_worded _ .isFalse draft
      · exact run_worded _ .isTrue draft
      · exact run_worded _ .isNull draft
  | oneOf => exact run_within _ _ draft
  | neq => exact run_compared _ .unequal _ draft
  | gt => exact run_compared _ .greater _ draft
  | gte => exact run_compared _ .atLeast _ draft
  | lt => exact run_compared _ .less _ draft
  | lte => exact run_compared _ .atMost _ draft
  | like => exact run_compared _ .like _ draft
  | ilike => exact run_compared _ .ilike _ draft

/-- A filter that is read is written, in whatever condition its predicate stands alone. -/
theorem run_filterIfAny {β : Type} (part : β → Fragment) (shape : Filter → β)
    (alone : ∀ filter, part (shape filter) = (filter.predicate qualifier).tokens)
    (read : Except Error (Option Filter)) (draft : Draft) :
    (filterIfAny qualifier read).run draft =
      (Outcome.toExcept ((Outcome.ofCheck read).map (Option.map shape))).map fun found =>
        draft.writeAny (found.map part) := by
  rw [filterIfAny, StateT.run_bind, run_check, Outcome.toExcept_map, Outcome.toExcept_ofCheck]
  rcases read with error | found | found
  · rfl
  · rfl
  · change StateT.run (some <$> filter qualifier found) draft =
      Except.ok (draft.writeAny (some (part (shape found))))
    rw [StateT.run_map, run_filter, alone]
    rfl

/-- The alternatives of a group are written one after another; a group with none binds nothing. -/
theorem run_group (text : String) (draft : Draft) :
    (group qualifier text).run draft =
      (Compile.group qualifier text).toExcept.map fun found =>
        draft.writeAny (found.map Condition.tokens) := by
  have alternative (piece : List Char) := run_filterIfAny Predicate.tokens
    (Filter.predicate qualifier) (fun _ => rfl) (Filter.ofAlternative piece)
  unfold group Compile.group
  dsimp only
  rw [StateT.run_bind, run_filterMapM (fun predicate => predicate.tokens.values) alternative,
    Outcome.toExcept_map]
  cases Outcome.toExcept (acceptAll _ _ _) with
  | error refusal => rfl
  | ok found =>
      cases found with
      | nil =>
          change Except.ok (none, draft.bind []) = Except.ok (none, draft)
          rw [Draft.bind_nil]
      | cons first others =>
          have enclosed : draft.write (Condition.anyOf (first :: others)).tokens =
              ("(" ++ " OR ".intercalate
                  (draft.place ((first :: others).map Predicate.tokens)).2 ++ ")",
                (draft.place ((first :: others).map Predicate.tokens)).1) := by
            rw [Draft.write, Condition.tokens, Fragment.text_enclosed, Fragment.values_enclosed,
              Fragment.text_intercalate, Fragment.values_intercalate]
            rfl
          -- the parentheses are put around texts that are numbered already
          change _ = Except.ok (draft.writeAny (some (Condition.anyOf (first :: others)).tokens))
          rw [Draft.writeAny, enclosed]
          rfl

/-- A parameter of a read is written like the condition that it is compiled to. -/
theorem run_readFilter (parameter : String × String) (draft : Draft) :
    (readFilter qualifier parameter).run draft =
      (Compile.readFilter qualifier parameter).toExcept.map fun found =>
        draft.writeAny (found.map Condition.tokens) := by
  unfold readFilter Compile.readFilter
  split
  · exact run_group _ draft
  · split
    · rfl
    · exact run_filterIfAny Condition.tokens (fun filter => .single (filter.predicate qualifier))
        (fun _ => rfl) _ draft

/-- A parameter of a write is written like the condition that it is compiled to. -/
theorem run_writeFilter (parameter : String × String) (draft : Draft) :
    (writeFilter qualifier parameter).run draft =
      (Compile.writeFilter qualifier parameter).toExcept.map fun found =>
        draft.writeAny (found.map Condition.tokens) := by
  unfold writeFilter Compile.writeFilter
  split
  · rfl
  · refine (run_filterIfAny Condition.tokens (fun filter => .single (filter.predicate qualifier))
      (fun _ => rfl) _ draft).trans ?_
    cases Filter.ofParameter parameter.1 parameter.2 <;> rfl

/-- The filters of a read are bound in the order of the parameters. -/
theorem run_readFilters (parameters : List (String × String)) (draft : Draft) :
    (parameters.filterMapM (readFilter qualifier)).run draft =
      (Compile.filters qualifier parameters).toExcept.map fun found =>
        (draft.place (found.map Condition.tokens)).swap :=
  run_filterMapM Condition.values run_readFilter parameters draft

/-- The filters of a write are bound in the order of the parameters. -/
theorem run_requiredFilters (action : String) (query : Query) (draft : Draft) :
    (requiredFilters action query).run draft =
      (Compile.requiredFilters action query).map fun found =>
        (draft.place (found.map Condition.tokens)).swap := by
  have filters := run_filterMapM Condition.values (@run_writeFilter none)
    query.pairs draft
  refine run_bind filters fun found _ => ?_
  cases found <;> rfl

/-- The conditions of a clause are placed one after another. -/
theorem write_whereClause (draft : Draft) (conditions : List Condition) :
    draft.write (Sql.whereClause conditions) =
      (Isolation.whereText (draft.place (conditions.map Condition.tokens)).2,
        (draft.place (conditions.map Condition.tokens)).1) := by
  rw [Draft.write, Isolation.text_where, Sql.values_whereClause, Draft.place, List.flatMap_map]
  rfl

/-- The tenant is bound before the values of the filters, as it stands before them in the clause. -/
theorem run_whereClause (owner : Option TenantPredicate) {filters : Drafting (List String)}
    {check : Except Error (List Condition)}
    (drafted : ∀ draft, filters.run draft =
      check.map fun found => (draft.place (found.map Condition.tokens)).swap)
    (draft : Draft) :
    (whereClause qualifier owner filters).run draft =
      check.map fun found =>
        draft.write (Sql.whereClause (Sql.conditions qualifier owner found)) := by
  have pinned := run_mapM_ok (@run_tenant qualifier) owner.toList draft
  rw [whereClause, run_bind_ok pinned, StateT.run_bind, drafted]
  cases check with
  | error error => rfl
  | ok found =>
      -- the tenant's condition, where there is one, is the first of the clause
      have conditions : (Sql.conditions qualifier owner found).map Condition.tokens =
          owner.toList.map (fun predicate => (predicate.on qualifier).tokens) ++
            found.map Condition.tokens := by
        cases owner <;> rfl
      change _ = Except.ok (draft.write _)
      rw [write_whereClause, conditions, Draft.place_append]
      rfl

/-! ### Parts of statements -/

/-- A join binds the tenant where its target belongs to tenants. -/
theorem run_join (source : Ident) (relation : Relation) (draft : Draft) :
    (join scope source relation).run draft =
      (Compile.join scope relation).map fun found => draft.write (found.clause source) := by
  refine run_bind (run_check _ _) fun target _ => ?_
  refine run_bind (run_check _ _) fun pinned _ => ?_
  let resolved : Relation := { relation with target := target.name }
  cases pinned with
  | none =>
      change Except.ok (resolved.joinText source, draft) =
        Except.ok (draft.write (Join.clause source ⟨resolved, none⟩))
      rw [Draft.write, Join.text_clause_shared, Join.values_clause_shared, Draft.bind_nil]
  | some predicate =>
      have pinned := @run_tenant (some relation.name.slot) predicate draft
      have column : (Column.mk (some relation.name.slot) predicate.column).text =
          resolved.columnText predicate.column :=
        Join.text_column ⟨resolved, some predicate⟩ predicate.column
      rw [Draft.write, Isolation.text_on, Isolation.values_on, column] at pinned
      refine (run_bind_ok pinned).trans ?_
      change Except.ok (resolved.joinText source ++ " AND " ++ (_ ++ _ ++ _), _) =
        Except.ok (draft.write (Join.clause source ⟨resolved, some predicate⟩))
      rw [Draft.write, Join.text_clause_owned, Join.values_clause_owned]
      simp only [String.append_assoc]

/-- The relations of a projection are joined one after another. -/
theorem run_joins (projection : Projection) (draft : Draft) :
    (projection.relations.mapM (join scope table.name)).run draft =
      (Compile.selection scope table projection).toExcept.map fun found =>
        (draft.place found.clauses).swap := by
  rw [run_mapM (run_join table.name), ← Compile.toExcept_acceptAll_of_check Compile.joinValues]
  unfold Compile.selection
  dsimp only
  rw [Outcome.toExcept_map]
  cases Outcome.toExcept (acceptAll _ _ _) <;> rfl

/-- The columns, the table and the joins of a select; only the joins bind values. -/
theorem write_selection {projection : Projection} {found : Sql.Selection}
    (resolved : Compile.selection scope table projection = .ok found) :
    ({} : Draft).write found.tokens =
      (projection.openingText table.name (({} : Draft).place found.clauses).2,
        (({} : Draft).place found.clauses).1) := by
  rw [Draft.write, Sql.Selection.values_tokens]
  obtain ⟨-, opening⟩ := Compile.opening_of_selection resolved
  exact Prod.ext opening rfl

/-- An order binds nothing. -/
theorem write_order (source : Ident) (terms : List Sql.OrderTerm) (draft : Draft) :
    draft.write (Sql.orderClause source terms) = (orderText source terms, draft) := by
  have single (term : Sql.OrderTerm) : (term.tokens source).text draft.next =
      term.column.qualified source ++ if term.descending then " DESC" else " ASC" := by
    rw [Sql.OrderTerm.tokens, Column.text_tokens_append, Fragment.text_word_cons,
      Fragment.text_nil, String.append_empty]
    cases term.descending <;> rfl
  rw [Draft.write_of_values draft (Sql.values_orderClause source terms)]
  refine Prod.ext ?_ rfl
  cases terms with
  | nil => rfl
  | cons term rest =>
      have unbound : ((term :: rest).map (Sql.OrderTerm.tokens source)).flatMap
          Fragment.values = [] := by
        rw [← Fragment.values_list]
        exact Sql.values_orderClause source (term :: rest)
      change Fragment.text _ (.word .ordered :: Fragment.list _) = " ORDER BY " ++ _
      rw [Fragment.text_word_cons, Fragment.text_list, Fragment.texts_of_values unbound,
        List.map_map]
      refine congrArg (fun texts => " ORDER BY " ++ ", ".intercalate texts) ?_
      exact List.map_congr_left fun term _ => single term

/-- A page binds nothing; its numbers are in the text. -/
theorem write_page (page : Sql.Page) (draft : Draft) :
    draft.write page.tokens = (Sql.pageText page.limit page.skipped?, draft) := by
  have unbound : page.tokens.values = [] := Sql.values_page (some page)
  rw [Draft.write_of_values draft unbound, page.text_tokens]

/-- An assignment binds the value that the column gets. -/
theorem run_assignment (field : Ident × Datum) (draft : Draft) :
    (assignment field).run draft = .ok (draft.write (Sql.Update.assignment field)) :=
  run_compared ⟨none, field.1⟩ .equal field.2 draft

/-- A cell binds its value; a default binds nothing. -/
theorem run_cell (value : Option Datum) (draft : Draft) :
    (cell value).run draft = .ok (draft.write (Sql.Insert.cell value)) := by
  cases value with
  | none =>
      change Except.ok ("DEFAULT", draft) = Except.ok ("DEFAULT", draft.bind [])
      rw [Draft.bind_nil]
  | some value => exact run_push value draft

/-- The cells of a row are bound column by column. -/
theorem run_row (columns : List Ident) (fields : List (Ident × Datum)) (draft : Draft) :
    (row columns fields).run draft =
      .ok (draft.write (Sql.Insert.row (columns.map fun column => fields.lookup column))) := by
  have cells := run_mapM_ok (fun column => run_cell (fields.lookup column)) columns draft
  rw [row, run_bind_ok cells, Sql.Insert.row, List.map_map, Draft.write, Fragment.text_enclosed,
    Fragment.text_list, Fragment.values_enclosed, Fragment.values_list]
  rfl

/-! ### Statements -/

/-- A select binds the tenants of its joins, its own tenant and the operands of its filters. -/
theorem run_select (projection : Projection) (query : Query) :
    (select scope table projection query).run {} =
      (Compile.select scope table projection query).map fun statement =>
        ({} : Draft).write statement.tokens := by
  refine run_bind (run_check _ _) fun owner _ => ?_
  refine run_bind (run_joins _ _) fun found resolved => ?_
  obtain ⟨source, -⟩ := Compile.opening_of_selection (Outcome.toExcept_eq_ok.mp resolved)
  refine run_bind (run_whereClause owner (run_readFilters query.pairs) _) fun conditions _ => ?_
  refine run_bind (run_check _ _) fun terms _ => ?_
  change Except.ok _ = Except.ok (Draft.write {} (found.tokens ++
    Sql.whereClause (Sql.conditions (some found.source) owner conditions) ++
    Sql.orderClause found.source terms ++ Sql.Page.tokens _))
  rw [source, Draft.write_append, Draft.write_append, Draft.write_append,
    write_selection (Outcome.toExcept_eq_ok.mp resolved), write_order, write_page]
  rfl

/-- A select by keys binds the tenants of its joins, its own tenant and the keys. -/
theorem run_selectByKeys (projection : Projection) (keys : List Datum) :
    (selectByKeys scope table projection keys).run {} =
      (Compile.selectByKeys scope table projection keys).map fun statement =>
        ({} : Draft).write statement.tokens := by
  refine run_bind (run_check _ _) fun owner _ => ?_
  refine run_bind (run_joins _ _) fun found resolved => ?_
  obtain ⟨source, -⟩ := Compile.opening_of_selection (Outcome.toExcept_eq_ok.mp resolved)
  let keyed : Condition := .single (.within ⟨some table.name, .id⟩ keys)
  have within (draft : Draft) :
      StateT.run (List.singleton <$> within ⟨some table.name, .id⟩ keys) draft =
        (.ok [keyed] : Except Error (List Condition)).map fun found =>
          (draft.place (found.map Condition.tokens)).swap := by
    rw [StateT.run_map, run_within]
    change Except.ok _ = Except.ok (draft.place [_]).swap
    rw [Draft.place_cons, Draft.place_nil]
    rfl
  rw [run_bind_ok (run_whereClause owner within _)]
  change Except.ok _ = Except.ok (Draft.write {} (found.tokens ++
    Sql.whereClause (Sql.conditions (some found.source) owner [keyed]) ++ [] ++ []))
  rw [source, List.append_nil, List.append_nil, Draft.write_append,
    write_selection (Outcome.toExcept_eq_ok.mp resolved)]
  rfl

/-- The draft after the assignments of an update, and their texts. -/
def assigned (statement : Sql.Update) : Draft × List String :=
  ({} : Draft).place (statement.assignments.map Sql.Update.assignment)

/-- An update writes its conditions where its assignments leave the draft. -/
theorem write_update (statement : Sql.Update) :
    ({} : Draft).write statement.tokens =
      ("UPDATE " ++ statement.table.quoted ++ " SET " ++
          ", ".intercalate (assigned statement).2 ++
          ((assigned statement).1.write (Sql.whereClause statement.conditions)).1 ++ " RETURNING *",
        ((assigned statement).1.write (Sql.whereClause statement.conditions)).2) := by
  refine Prod.ext ?_ ?_
  · -- the conditions are numbered after the values that are assigned
    dsimp only [assigned, Draft.write, Draft.place]
    rw [Draft.next_bind]
    exact statement.text_tokens
  · dsimp only [assigned, Draft.write, Draft.place]
    rw [statement.values_tokens, Draft.bind_bind, Sql.values_whereClause]

/-- A delete writes its conditions on a draft that binds nothing yet. -/
theorem write_delete (statement : Sql.Delete) :
    ({} : Draft).write statement.tokens =
      ("DELETE FROM " ++ statement.table.quoted ++
          (({} : Draft).write (Sql.whereClause statement.conditions)).1 ++ " RETURNING *",
        (({} : Draft).write (Sql.whereClause statement.conditions)).2) := by
  refine Prod.ext statement.text_tokens ?_
  dsimp only [Draft.write]
  rw [statement.values_tokens, Sql.values_whereClause]

/-- An insert without columns binds nothing. -/
theorem write_insert_of_nil (statement : Sql.Insert) (bare : statement.columns = []) :
    ({} : Draft).write statement.tokens =
      ("INSERT INTO " ++ statement.table.quoted ++ " DEFAULT VALUES RETURNING *", {}) := by
  have returning : (" DEFAULT VALUES RETURNING *" : String) =
      " DEFAULT VALUES" ++ " RETURNING *" := rfl
  rw [Draft.write_of_values _ (Sql.Insert.values_tokens_of_nil bare), returning,
    ← String.append_assoc]
  exact Prod.ext (Sql.Insert.text_tokens_of_nil bare) rfl

/-- An insert places its rows one after another. -/
theorem write_insert (statement : Sql.Insert) (named : statement.columns ≠ []) :
    ({} : Draft).write statement.tokens =
      ("INSERT INTO " ++ statement.table.quoted ++ " (" ++
          ", ".intercalate (statement.columns.map Ident.quoted) ++ ") VALUES " ++
          ", ".intercalate (({} : Draft).place (statement.rows.map Sql.Insert.row)).2 ++
          " RETURNING *",
        (({} : Draft).place (statement.rows.map Sql.Insert.row)).1) := by
  refine Prod.ext (Sql.Insert.text_tokens named) ?_
  dsimp only [Draft.write, Draft.place]
  rw [Sql.Insert.values_tokens named]

/-- An update binds what it assigns, then its tenant and the operands of its filters. -/
theorem run_update (patch : Record) (query : Query) :
    (update scope table patch query).run {} =
      (Compile.update scope table patch query).map fun statement =>
        ({} : Draft).write statement.tokens := by
  refine run_bind (run_check _ _) fun owner _ => ?_
  refine run_bind (run_check _ _) fun fields _ => ?_
  refine run_guard ?_
  rw [run_bind_ok (run_mapM_ok run_assignment _ {})]
  refine run_bind (run_whereClause owner (run_requiredFilters _ query) _) fun conditions _ => ?_
  exact congrArg Except.ok (write_update ⟨table.name, _, owner, conditions⟩).symm

/-- A delete binds its tenant, then the operands of its filters. -/
theorem run_delete (query : Query) :
    (delete scope table query).run {} =
      (Compile.delete scope table query).map fun statement =>
        ({} : Draft).write statement.tokens := by
  refine run_bind (run_check _ _) fun owner _ => ?_
  refine run_bind (run_whereClause owner (run_requiredFilters _ query) _) fun conditions _ => ?_
  exact congrArg Except.ok (write_delete ⟨table.name, owner, conditions⟩).symm

/-- An insert binds its cells, row by row. -/
theorem run_insert (records : List Record) :
    (insert scope table records).run {} =
      (Compile.insert scope table records).map fun statement =>
        ({} : Draft).write statement.tokens := by
  refine run_bind (run_check _ _) fun owner _ => ?_
  refine run_guard ?_
  refine run_bind (run_check _ _) fun rows _ => ?_
  dsimp only
  cases firstSeen [] (rows.flatMap fun row => row.map (·.1)) with
  | nil =>
      -- no row has a column, so there can be one row only
      simp only [List.isEmpty_nil, ↓reduceIte, true_and]
      refine run_guard ?_
      exact congrArg Except.ok (write_insert_of_nil ⟨table.name, [], _⟩ rfl).symm
  | cons column others =>
      have drafted := run_mapM_ok (run_row (column :: others)) rows {}
      have written := write_insert ⟨table.name, column :: others, rows.map fun row =>
        (column :: others).map fun column => row.lookup column⟩ (List.cons_ne_nil column others)
      simp only [List.isEmpty_cons, Bool.false_eq_true, false_and, ↓reduceIte]
      rw [List.map_map] at written
      rw [run_bind_ok drafted]
      exact congrArg Except.ok written.symm

end Drafting

namespace Compile

variable {scope : Scope} {table : Table}

/-- Draft the statement of a call. -/
def Call.drafting (scope : Scope) (table : Table) : Call → Drafting String
  | .select projection query => Drafting.select scope table projection query
  | .selectByKeys projection keys => Drafting.selectByKeys scope table projection keys
  | .insert records => Drafting.insert scope table records
  | .update patch query => Drafting.update scope table patch query
  | .delete query => Drafting.delete scope table query

/-- The draft of a call: it starts empty, and gets its text when all values are bound. -/
def Call.draft (scope : Scope) (table : Table) (call : Call) : Except Error Draft :=
  ((call.drafting scope table).run {}).map fun drafted => { drafted.2 with text := drafted.1 }

/-- A call is drafted as the statement that it compiles to, and refused where there is none. -/
theorem Call.draft_eq (call : Call) :
    call.draft scope table = (call.compile scope table).map Draft.ofStatement := by
  have same {β : Type} (compiled : Except Error β) (statement : β → Sql.Statement) :
      (compiled.map fun found => ({} : Draft).write (statement found).tokens).map
          (fun drafted => { drafted.2 with text := drafted.1 }) =
        (compiled.map statement).map Draft.ofStatement := by
    cases compiled <;> rfl
  unfold draft
  cases call with
  | select projection query =>
      exact (congrArg _ (Drafting.run_select projection query)).trans (same _ .select)
  | selectByKeys projection keys =>
      exact (congrArg _ (Drafting.run_selectByKeys projection keys)).trans (same _ .select)
  | insert records => exact (congrArg _ (Drafting.run_insert records)).trans (same _ .insert)
  | update patch query =>
      exact (congrArg _ (Drafting.run_update patch query)).trans (same _ .update)
  | delete query => exact (congrArg _ (Drafting.run_delete query)).trans (same _ .delete)

end Compile

end TableGate

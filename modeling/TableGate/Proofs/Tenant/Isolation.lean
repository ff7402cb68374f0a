import TableGate.Proofs.Compile.Outcome
import TableGate.Proofs.Statement.Keyword

/-!
# Isolation of tenants

What it takes for a statement to stay within the rows of one tenant, said of its text and its values
alone: a table that belongs to tenants is read, updated and deleted under a clause that begins with
the tenant, joined on the tenant, and filled with rows of the tenant.  The main fact is
`isolated_of_compiled`: every statement that a scope compiles is of this kind, whatever the filters,
the projection and the body are.
-/

namespace TableGate

open Sql (Column Condition Fragment Join Predicate Statement Word placeholder)
open Sql.Fragment (text texts)

/-- A name is that of a table that belongs to tenants. -/
def Catalog.IsScoped (catalog : Catalog) (name : Ident) : Prop :=
  ∃ table, catalog.find? name.text = some table ∧ table.tenantScoped = true

namespace Isolation

/-- The keywords that tell the clauses of a statement and its conjuncts apart. -/
def clauseKeywords : List String := [" FROM ", " JOIN ", " ON ", " WHERE ", " AND ", " OR "]

/-- A text that neither begins a clause nor joins conjuncts or alternatives. -/
def IsPlain (text : String) : Prop := ∀ keyword ∈ clauseKeywords, ¬ Sql.Mentions keyword text

/-- A condition whose alternatives, if it has any, stand in parentheses of their own. -/
def IsConjunct (text : String) : Prop :=
  ¬ Sql.Mentions " AND " text ∧
    (¬ Sql.Mentions " OR " text ∨
      ∃ alternatives, text = "(" ++ " OR ".intercalate alternatives ++ ")" ∧
        ∀ alternative ∈ alternatives, ¬ Sql.Mentions " OR " alternative ∧
          '(' ∉ alternative.toList ∧ ')' ∉ alternative.toList)

/-- The conjuncts of a `WHERE` clause as it is written. -/
def whereText : List String → String
  | [] => ""
  | conjuncts => " WHERE " ++ " AND ".intercalate conjuncts

section

variable (catalog : Catalog) (tenant? : Option String) (values : List Datum)

/-- A text is the placeholder to which the tenant is bound, as untyped text. -/
def IsTenant (written : String) : Prop :=
  ∃ tenant position, tenant? = some tenant ∧ values[position]? = some (.text tenant) ∧
    written = placeholder (position + 1)

/-- A condition that pins the tenant column to the tenant. -/
def Pins (qualifier : Option Ident) (condition : String) : Prop :=
  ∃ written, IsTenant tenant? values written ∧
    condition = (Column.mk qualifier catalog.tenantColumn).text ++ " = " ++ written

/-- The conjuncts under which a table is used: the tenant comes first if the table belongs to
tenants. -/
def Guards (table : Ident) (qualifier : Option Ident) (conjuncts : List String) : Prop :=
  (∀ conjunct ∈ conjuncts, IsConjunct conjunct) ∧
    (catalog.IsScoped table →
      ∃ pin others, conjuncts = pin :: others ∧ Pins catalog tenant? values qualifier pin)

/-- A join whose own conjuncts pin the tenant if its table belongs to tenants. -/
def IsJoin (join : String) : Prop :=
  ∃ (target slot : Ident) (conjuncts : List String),
    join = " LEFT JOIN " ++ target.quoted ++ " " ++ slot.quoted ++ " ON " ++
        " AND ".intercalate conjuncts ∧
      (∀ conjunct ∈ conjuncts, IsPlain conjunct) ∧
      (catalog.IsScoped target →
        ∃ pin ∈ conjuncts, Pins catalog tenant? values (some slot) pin)

/-- An assignment of a bound value, never to the column of the tenant. -/
def IsAssignment (table : Ident) (assignment : String) : Prop :=
  ∃ (column : Ident) (number : Nat), assignment = column.quoted ++ " = " ++ placeholder number ∧
    (catalog.IsScoped table → column ≠ catalog.tenantColumn)

/-- A row of cells, each a bound value or the default, with the tenant in its column if the table
belongs to tenants. -/
def IsRow (table : Ident) (columns : List Ident) (row : String) : Prop :=
  ∃ cells : List String, row = "(" ++ ", ".intercalate cells ++ ")" ∧
    cells.length = columns.length ∧
    (∀ cell ∈ cells, cell = "DEFAULT" ∨ ∃ number, cell = placeholder number) ∧
    (catalog.IsScoped table →
      ∃ (index : Nat) (cell : String), columns[index]? = some catalog.tenantColumn ∧
        cells[index]? = some cell ∧ IsTenant tenant? values cell)

/-- The texts of statements that, with the given values, stay within the rows of the tenant. -/
inductive Isolated : String → Prop
  | select {source : Ident} {outputs ending : String} {joins conjuncts : List String}
      (shown : IsPlain outputs) (ended : IsPlain ending)
      (joined : ∀ join ∈ joins, IsJoin catalog tenant? values join)
      (guarded : Guards catalog tenant? values source (some source) conjuncts) :
      Isolated ("SELECT " ++ outputs ++ " FROM " ++ source.quoted ++ String.join joins ++
        whereText conjuncts ++ ending)
  | insertDefaults {table : Ident} (shared : ¬ catalog.IsScoped table) :
      Isolated ("INSERT INTO " ++ table.quoted ++ " DEFAULT VALUES" ++ " RETURNING *")
  | insert {table : Ident} {columns : List Ident} {rows : List String} (distinct : columns.Nodup)
      (filled : ∀ row ∈ rows, IsRow catalog tenant? values table columns row) :
      Isolated ("INSERT INTO " ++ table.quoted ++ " (" ++
        ", ".intercalate (columns.map Ident.quoted) ++ ") VALUES " ++ ", ".intercalate rows ++
        " RETURNING *")
  | update {table : Ident} {assignments conjuncts : List String}
      (assigned : ∀ assignment ∈ assignments, IsAssignment catalog table assignment)
      (guarded : Guards catalog tenant? values table none conjuncts) :
      Isolated ("UPDATE " ++ table.quoted ++ " SET " ++ ", ".intercalate assignments ++
        whereText conjuncts ++ " RETURNING *")
  | delete {table : Ident} {conjuncts : List String}
      (guarded : Guards catalog tenant? values table none conjuncts) :
      Isolated ("DELETE FROM " ++ table.quoted ++ whereText conjuncts ++ " RETURNING *")

end

/-! ### Keywords of fragments -/

/-- The words that hold a keyword of a clause. -/
def clauseWords : List Word :=
  [.source, .joined, .matching, .filtered, .both, .either, .notDistinct, .deleteFrom]

open Sql.Keyword (Passes)

theorem passes_clause_keywords (word : Word) (plain : word ∉ clauseWords) :
    Passes ['F', 'R', 'O', 'M'] word.text.toList ∧ Passes ['J', 'O', 'I', 'N'] word.text.toList ∧
      Passes ['O', 'N'] word.text.toList ∧ Passes ['W', 'H', 'E', 'R', 'E'] word.text.toList := by
  cases word <;> first | exact absurd (by decide) plain | decide

theorem passes_and (word : Word) (other : word ≠ .both) :
    Passes ['A', 'N', 'D'] word.text.toList := by
  cases word <;> first | exact absurd rfl other | decide

theorem passes_or (word : Word) (other : word ≠ .either) :
    Passes ['O', 'R'] word.text.toList := by
  cases word <;> first | exact absurd rfl other | decide

variable {first : Nat} {fragment : Fragment}

theorem not_mentions_and (avoids : fragment.Avoids [.both]) :
    ¬ Sql.Mentions " AND " (text first fragment) := by
  have passes (word : Word) (member : .word word ∈ fragment) :=
    passes_and word fun same => avoids word member (List.mem_singleton.mpr same)
  exact Sql.not_mentions_text (by decide) passes

theorem not_mentions_or (avoids : fragment.Avoids [.either]) :
    ¬ Sql.Mentions " OR " (text first fragment) := by
  have passes (word : Word) (member : .word word ∈ fragment) :=
    passes_or word fun same => avoids word member (List.mem_singleton.mpr same)
  exact Sql.not_mentions_text (by decide) passes

/-- Fragments without the words of clauses are plain, whatever their names and values are. -/
theorem isPlain_text (avoids : fragment.Avoids clauseWords) : IsPlain (text first fragment) := by
  have passes (word : Word) (member : .word word ∈ fragment) :=
    passes_clause_keywords word (avoids word member)
  intro keyword member
  simp only [clauseKeywords, List.mem_cons, List.not_mem_nil, or_false] at member
  rcases member with rfl | rfl | rfl | rfl | rfl | rfl
  · exact Sql.not_mentions_text (by decide) fun word member =>
      (passes word member).1
  · exact Sql.not_mentions_text (by decide) fun word member =>
      (passes word member).2.1
  · exact Sql.not_mentions_text (by decide) fun word member =>
      (passes word member).2.2.1
  · exact Sql.not_mentions_text (by decide) fun word member =>
      (passes word member).2.2.2
  · exact not_mentions_and (avoids.mono (by decide))
  · exact not_mentions_or (avoids.mono (by decide))

/-! ### Conjuncts -/

/-- A flat predicate is written without parentheses. -/
theorem parenthesis_not_mem_predicate {c : Char} (parenthesis : c = '(' ∨ c = ')')
    {predicate : Predicate} (flat : predicate.IsFlat) :
    c ∉ (text first predicate.tokens).toList := by
  have avoids : predicate.tokens.Avoids [.opening, .closing, .rowToJson, .buildObject] := by
    have column (column : Column) :
        column.tokens.Avoids [.opening, .closing, .rowToJson, .buildObject] :=
      column.avoids (by decide)
    cases predicate with
    | compare _ comparison _ =>
        cases comparison <;> simp [Predicate.tokens, column, Sql.Comparison.word]
    | isNull => simp [Predicate.tokens, column]
    | equalsFlag _ flag => cases flag <;> simp [Predicate.tokens, column]
    | isFlag _ flag => cases flag <;> simp [Predicate.tokens, column]
    | notDistinct => simp [Predicate.tokens, column]
    | within => exact flat.elim
  have words (word : Word) (fresh : word ∉ [.opening, .closing, .rowToJson, .buildObject]) :
      '(' ∉ word.text.toList ∧ ')' ∉ word.text.toList := by
    cases word <;> first | exact absurd (by decide) fresh | decide
  rcases parenthesis with rfl | rfl
  · exact Sql.not_mem_text (by decide) (by decide) fun word member =>
      (words word (avoids word member)).1
  · exact Sql.not_mem_text (by decide) (by decide) fun word member =>
      (words word (avoids word member)).2

/-- Every condition of a request is a conjunct: its alternatives, however they are spelled in the
request, stay within their parentheses. -/
theorem isConjunct_text {condition : Condition} (flat : condition.IsFlat) :
    IsConjunct (text first condition.tokens) := by
  cases condition with
  | single predicate =>
      exact ⟨not_mentions_and (predicate.avoids.mono (by decide)),
        .inl (not_mentions_or (predicate.avoids.mono (by decide)))⟩
  | anyOf alternatives =>
      refine ⟨?_, .inr ⟨texts first (alternatives.map Predicate.tokens), ?_, ?_⟩⟩
      · refine not_mentions_and (Sql.Fragment.avoids_enclosed (by decide) (by decide) ?_)
        refine Sql.Fragment.avoids_intercalate (by decide) fun fragment member => ?_
        obtain ⟨predicate, -, rfl⟩ := List.mem_map.mp member
        exact predicate.avoids.mono (by decide)
      · rw [Condition.tokens, Sql.Fragment.text_enclosed, Sql.Fragment.text_intercalate]
        rfl
      · intro alternative member
        obtain ⟨predicate, chosen, number, rfl⟩ := Sql.Fragment.exists_of_mem_texts_map member
        exact ⟨not_mentions_or (predicate.avoids.mono (by decide)),
          parenthesis_not_mem_predicate (.inl rfl) (flat predicate chosen),
          parenthesis_not_mem_predicate (.inr rfl) (flat predicate chosen)⟩

/-! ### The tenant of a table -/

variable {scope : Scope}

/-- The predicate that a table is used with: that of the active tenant if the table belongs to
tenants. -/
def Fits (scope : Scope) (table : Ident) (predicate : Option TenantPredicate) : Prop :=
  scope.catalog.IsScoped table →
    ∃ tenantId, scope.tenant.active? = some tenantId ∧
      predicate = some ⟨scope.catalog.tenantColumn, tenantId⟩

theorem fits_of_enforce {name : String} {table : Table} {predicate : Option TenantPredicate}
    (found : scope.table name = .ok table) (enforced : scope.enforce table = .ok predicate) :
    Fits scope table.name predicate := by
  rintro ⟨other, listed, owned⟩
  have search := find?_of_table found
  have same : table.name.text = name := by
    unfold Catalog.find? at search
    simpa using List.find?_some search
  rw [same] at listed
  obtain rfl := Option.some.inj (listed.symm.trans search)
  rcases Scope.enforce_eq_ok enforced with ⟨shared, -⟩ | ⟨-, tenantId, active, rfl⟩
  · rw [owned] at shared
    exact absurd shared nofun
  · exact ⟨tenantId, active, rfl⟩

/-- A placeholder is the tenant's where the tenant is the next value. -/
theorem isTenant_placeholder {tenant? : Option String} {tenant : String}
    {values before after : List Datum} (active : tenant? = some tenant)
    (bound : values = before ++ .text tenant :: after) :
    IsTenant tenant? values (placeholder (1 + before.length)) := by
  refine ⟨tenant, before.length, active, ?_, by rw [Nat.add_comm]⟩
  rw [bound, List.getElem?_append_right (Nat.le_refl _), Nat.sub_self]
  rfl

theorem text_on (predicate : TenantPredicate) (qualifier : Option Ident) :
    text first (predicate.on qualifier).tokens =
      (Column.mk qualifier predicate.column).text ++ " = " ++ placeholder first := by
  change text first ((Column.mk qualifier predicate.column).tokens ++ _) = _
  rw [Column.text_tokens_append, Sql.Fragment.text_word_cons, Sql.Fragment.text_value_cons,
    Sql.Fragment.text_nil, String.append_empty, ← String.append_assoc]
  rfl

theorem values_on (predicate : TenantPredicate) (qualifier : Option Ident) :
    (predicate.on qualifier).tokens.values = [.text predicate.tenantId] := by
  change Sql.Fragment.values ((Column.mk qualifier predicate.column).tokens ++ _) = _
  rw [Sql.Fragment.values_append, Column.values_tokens]
  rfl

/-! ### Clauses -/

theorem text_where (conditions : List Condition) :
    text first (Sql.whereClause conditions) =
      whereText (texts first (conditions.map Condition.tokens)) := by
  cases conditions with
  | nil => rfl
  | cons condition others => exact Sql.text_whereClause_cons condition others

/-- The conditions of a statement guard its table, wherever their values stand. -/
theorem guards_conditions {table : Ident} {predicate : Option TenantPredicate}
    {filters : List Condition} {before after : List Datum} (qualifier : Option Ident)
    (fits : Fits scope table predicate) (flat : ∀ filter ∈ filters, filter.IsFlat) :
    Guards scope.catalog scope.tenant.active?
      (before ++ ((Sql.conditions qualifier predicate filters).flatMap Condition.values ++ after))
      table qualifier
      (texts (1 + before.length)
        ((Sql.conditions qualifier predicate filters).map Condition.tokens)) := by
  constructor
  · intro conjunct member
    obtain ⟨condition, chosen, number, rfl⟩ := Sql.Fragment.exists_of_mem_texts_map member
    apply isConjunct_text
    cases predicate with
    | none => exact flat condition chosen
    | some tenant =>
        rcases List.mem_cons.mp chosen with rfl | later
        · exact trivial
        · exact flat condition later
  · intro owned
    obtain ⟨tenantId, active, rfl⟩ := fits owned
    let predicate : TenantPredicate := ⟨scope.catalog.tenantColumn, tenantId⟩
    have bound : before ++ ((Sql.conditions qualifier (some predicate) filters).flatMap
        Condition.values ++ after) =
          before ++ .text tenantId :: (filters.flatMap Condition.values ++ after) := by
      rw [Sql.conditions, List.flatMap_cons, Condition.values, Condition.tokens, values_on]
      rfl
    exact ⟨_, _, rfl, _, isTenant_placeholder active bound, text_on predicate qualifier⟩

/-- The clause of a join pins the tenant, wherever its value stands. -/
theorem isJoin_clause {source : Ident} {join : Join} {before after : List Datum}
    (fits : Fits scope join.relation.target join.tenant) :
    IsJoin scope.catalog scope.tenant.active?
      (before ++ ((join.clause source).values ++ after))
      (" " ++ text (1 + before.length) (join.clause source)) := by
  refine ⟨join.relation.target, join.slot, texts (1 + before.length) (join.conjuncts source),
    ?_, ?_, ?_⟩
  · rw [Join.text_clause]
    simp only [← String.append_assoc]
    rfl
  · intro conjunct member
    obtain ⟨found, present, number, rfl⟩ := Sql.Fragment.exists_of_mem_texts member
    apply isPlain_text
    rcases List.mem_cons.mp present with rfl | pinned
    · rw [Join.matched, Sql.Fragment.avoids_append, Sql.Fragment.avoids_word_cons]
      exact ⟨Column.avoids (by decide) _, by decide, Column.avoids (by decide) _⟩
    · obtain ⟨predicate, -, rfl⟩ := Option.map_eq_some_iff.mp (Option.mem_toList.mp pinned)
      change Sql.Fragment.Avoids _ ((Column.mk _ _).tokens ++ _)
      rw [Sql.Fragment.avoids_append]
      exact ⟨Column.avoids (by decide) _, by simp [clauseWords, Sql.Comparison.word]⟩
  · intro owned
    obtain ⟨tenantId, active, pinned⟩ := fits owned
    let predicate : TenantPredicate := ⟨scope.catalog.tenantColumn, tenantId⟩
    have conjuncts : join.conjuncts source =
        [join.matched source, (predicate.on (some join.slot)).tokens] := by
      rw [Join.conjuncts, pinned]
      rfl
    have bound : before ++ ((join.clause source).values ++ after) =
        before ++ .text tenantId :: after := by
      rw [Join.values_clause, conjuncts, List.tail_cons, List.flatMap_singleton, values_on]
      rfl
    refine ⟨_, ?_, _, isTenant_placeholder active bound, text_on predicate (some join.slot)⟩
    rw [conjuncts, texts, Join.values_matched]
    exact List.mem_cons_of_mem _ List.mem_cons_self

/-! ### Selects -/

theorem avoids_output (join : Join) :
    join.output.Avoids (.limited :: .skipping :: clauseWords) := by
  have column (column : Column) : column.tokens.Avoids (.limited :: .skipping :: clauseWords) :=
    column.avoids (by decide)
  have object : join.object.Avoids (.limited :: .skipping :: clauseWords) := by
    unfold Join.object
    split
    · rw [Sql.Fragment.avoids_word_cons]
      exact ⟨by decide, Sql.Fragment.avoids_enclosed (by decide) (by decide) (by simp)⟩
    · rw [Sql.Fragment.avoids_word_cons]
      refine ⟨by decide, Sql.Fragment.avoids_enclosed (by decide) (by decide) ?_⟩
      refine Sql.Fragment.avoids_list (by decide) fun fragment member => ?_
      obtain ⟨name, -, rfl⟩ := List.mem_map.mp member
      rw [List.cons_append, Sql.Fragment.avoids_label_cons, List.cons_append, List.nil_append,
        Sql.Fragment.avoids_word_cons]
      exact ⟨by decide, column _⟩
  simp only [Join.output, List.cons_append, Sql.Fragment.avoids_word_cons,
    Sql.Fragment.avoids_append, Sql.Fragment.avoids_name_cons]
  exact ⟨by decide, ⟨column _, by decide, object⟩, by decide, Sql.Fragment.avoids_nil⟩

theorem avoids_outputs (selection : Sql.Selection) :
    (Sql.Fragment.list selection.outputs).Avoids (.limited :: .skipping :: clauseWords) := by
  refine Sql.Fragment.avoids_list (by decide) fun fragment member => ?_
  have named (present : fragment ∈ selection.columns.map fun name =>
      (Column.mk (some selection.source) name).tokens) :
      fragment.Avoids (.limited :: .skipping :: clauseWords) := by
    obtain ⟨name, -, rfl⟩ := List.mem_map.mp present
    exact Column.avoids (by decide) _
  rcases List.mem_append.mp member with base | joined
  · unfold Sql.Selection.baseOutputs at base
    split at base
    · rcases List.mem_cons.mp base with rfl | present
      · simp [Sql.Selection.wholeRow, clauseWords]
      · exact named present
    · exact named base
  · obtain ⟨join, -, rfl⟩ := List.mem_map.mp joined
    exact avoids_output join

theorem avoids_orderClause (source : Ident) (terms : List Sql.OrderTerm) :
    (Sql.orderClause source terms).Avoids (.limited :: .skipping :: clauseWords) := by
  unfold Sql.orderClause
  split
  · exact Sql.Fragment.avoids_nil
  · rw [Sql.Fragment.avoids_word_cons]
    refine ⟨by decide, Sql.Fragment.avoids_list (by decide) fun fragment member => ?_⟩
    obtain ⟨term, -, rfl⟩ := List.mem_map.mp member
    rw [Sql.OrderTerm.tokens, Sql.Fragment.avoids_append, Sql.Fragment.avoids_word_cons]
    refine ⟨Column.avoids (by decide) _, ?_, Sql.Fragment.avoids_nil⟩
    split <;> decide

theorem avoids_ending (select : Sql.Select) : select.ending.Avoids clauseWords := by
  rw [Sql.Select.ending, Sql.Fragment.avoids_append]
  constructor
  · exact (avoids_orderClause _ _).mono (by decide)
  · cases select.page with
    | none => exact Sql.Fragment.avoids_nil
    | some page =>
        change page.tokens.Avoids clauseWords
        unfold Sql.Page.tokens
        split <;> simp [clauseWords]

/-- A select whose tables fit the tenant is isolated. -/
theorem isolated_select {select : Sql.Select}
    (fits : Fits scope select.selection.source select.tenant)
    (joined : ∀ join ∈ select.selection.joins, Fits scope join.relation.target join.tenant)
    (flat : ∀ filter ∈ select.filters, filter.IsFlat) :
    Isolated scope.catalog scope.tenant.active? select.tokens.values (text 1 select.tokens) := by
  have clauses : select.selection.tokens.values =
      select.selection.clauses.flatMap Sql.Fragment.values := select.selection.values_tokens
  rw [Sql.Select.text_tokens, Sql.Select.values_tokens, Sql.Selection.text_tokens, text_where,
    ← Sql.Fragment.text_list, clauses, List.append_assoc]
  refine .select (isPlain_text ((avoids_outputs _).mono (by decide)))
    (isPlain_text (avoids_ending select)) ?_
    (guards_conditions (some select.selection.source) fits flat)
  intro written member
  obtain ⟨clause, present, rfl⟩ := List.mem_map.mp member
  obtain ⟨before, found, after, shape, rfl⟩ := Sql.Fragment.mem_texts present
  have among : found ∈ select.selection.clauses := by
    rw [shape]
    exact List.mem_append_right _ List.mem_cons_self
  obtain ⟨join, chosen, rfl⟩ := List.mem_map.mp among
  rw [shape, List.flatMap_append, List.flatMap_cons, List.append_assoc, List.append_assoc]
  exact isJoin_clause (joined join chosen)

/-! ### Updates and deletes -/

theorem isolated_update {update : Sql.Update} (fits : Fits scope update.table update.tenant)
    (flat : ∀ filter ∈ update.filters, filter.IsFlat)
    (kept : scope.catalog.IsScoped update.table →
      ∀ entry ∈ update.assignments, entry.1 ≠ scope.catalog.tenantColumn) :
    Isolated scope.catalog scope.tenant.active? update.tokens.values (text 1 update.tokens) := by
  rw [Sql.Update.values_tokens, Sql.Update.text_tokens, text_where,
    ← List.append_nil (update.conditions.flatMap Condition.values)]
  refine .update ?_ (guards_conditions none fits flat)
  intro assignment member
  obtain ⟨entry, chosen, number, rfl⟩ := Sql.Fragment.exists_of_mem_texts_map member
  refine ⟨entry.1, number, ?_, fun owned => kept owned entry chosen⟩
  change text number [.name entry.1, .word .equal, .value entry.2] = _
  rw [Sql.Fragment.text_name_cons, Sql.Fragment.text_word_cons, Sql.Fragment.text_value_cons,
    Sql.Fragment.text_nil, String.append_empty, ← String.append_assoc]
  rfl

theorem isolated_delete {delete : Sql.Delete} (fits : Fits scope delete.table delete.tenant)
    (flat : ∀ filter ∈ delete.filters, filter.IsFlat) :
    Isolated scope.catalog scope.tenant.active? delete.tokens.values (text 1 delete.tokens) := by
  have bound : delete.tokens.values =
      [] ++ (delete.conditions.flatMap Condition.values ++ []) := by
    rw [List.append_nil]
    exact delete.values_tokens
  rw [bound, Sql.Delete.text_tokens, text_where]
  exact .delete (guards_conditions none fits flat)

/-! ### Inserts -/

/-- A row of an insert, in which the tenant stands in its column if the table belongs to tenants. -/
def HoldsTenant (scope : Scope) (table : Ident) (columns : List Ident) (row : List (Option Datum)) :
    Prop :=
  scope.catalog.IsScoped table →
    ∃ tenantId front back, scope.tenant.active? = some tenantId ∧
      row = front ++ some (.text tenantId) :: back ∧
      columns[front.length]? = some scope.catalog.tenantColumn

/-- The text of a row of an insert, wherever its values stand. -/
theorem isRow_text {table : Ident} {columns : List Ident} {row : List (Option Datum)}
    {before after : List Datum} (aligned : row.length = columns.length)
    (holds : HoldsTenant scope table columns row) :
    IsRow scope.catalog scope.tenant.active?
      (before ++ ((Sql.Insert.row row).values ++ after)) table
      columns (text (1 + before.length) (Sql.Insert.row row)) := by
  refine ⟨texts (1 + before.length) (row.map Sql.Insert.cell), ?_, ?_, ?_, ?_⟩
  · rw [Sql.Insert.row, Sql.Fragment.text_enclosed, Sql.Fragment.text_list]
  · rw [Sql.Fragment.length_texts, List.length_map, aligned]
  · intro cell member
    obtain ⟨filled, -, number, rfl⟩ := Sql.Fragment.exists_of_mem_texts_map member
    cases filled with
    | none => exact .inl (by simp [Sql.Insert.cell, Word.text])
    | some value => exact .inr ⟨number, by simp [Sql.Insert.cell]⟩
  · intro owned
    obtain ⟨tenantId, front, back, active, rfl, column⟩ := holds owned
    let earlier : List Datum := (front.map Sql.Insert.cell).flatMap Sql.Fragment.values
    let later : List Datum := (back.map Sql.Insert.cell).flatMap Sql.Fragment.values
    have bound :
      before ++ ((Sql.Insert.row (front ++ some (.text tenantId) :: back)).values ++ after) =
        (before ++ earlier) ++ .text tenantId :: (later ++ after) := by
      rw [Sql.Insert.row, Sql.Fragment.values_enclosed, Sql.Fragment.values_list, List.map_append,
        List.map_cons, List.flatMap_append, List.flatMap_cons]
      simp [Sql.Insert.cell, earlier, later]
    have placed : (texts (1 + before.length) ((front ++ some (.text tenantId) :: back).map
        Sql.Insert.cell))[front.length]? =
          some (placeholder (1 + (before ++ earlier).length)) := by
      rw [List.map_append, Sql.Fragment.texts_append, List.getElem?_append_right (by simp)]
      simp [texts, Sql.Insert.cell, earlier, Nat.add_assoc]
    exact ⟨front.length, _, column, placed, isTenant_placeholder active bound⟩

theorem isolated_insert {insert : Sql.Insert} (distinct : insert.columns.Nodup)
    (named : scope.catalog.IsScoped insert.table → insert.columns ≠ [])
    (aligned : ∀ row ∈ insert.rows, row.length = insert.columns.length)
    (holds : ∀ row ∈ insert.rows, HoldsTenant scope insert.table insert.columns row) :
    Isolated scope.catalog scope.tenant.active? insert.tokens.values (text 1 insert.tokens) := by
  by_cases bare : insert.columns = []
  · rw [Sql.Insert.text_tokens_of_nil bare]
    exact .insertDefaults fun owned => named owned bare
  · rw [Sql.Insert.values_tokens bare, Sql.Insert.text_tokens bare]
    refine .insert distinct ?_
    intro written member
    obtain ⟨before, found, after, split, rfl⟩ := Sql.Fragment.mem_texts member
    have among : found ∈ insert.rows.map Sql.Insert.row := by
      rw [split]
      exact List.mem_append_right _ List.mem_cons_self
    obtain ⟨row, chosen, rfl⟩ := List.mem_map.mp among
    rw [split, List.flatMap_append, List.flatMap_cons]
    exact isRow_text (aligned row chosen) (holds row chosen)

/-! ### Compiled statements -/

theorem fits_of_selection {table : Table} {projection : Projection} {selection : Sql.Selection}
    (compiled : Compile.selection scope table projection = .ok selection) :
    selection.source = table.name ∧
      ∀ join ∈ selection.joins, Fits scope join.relation.target join.tenant := by
  obtain ⟨joins, rfl, resolved⟩ := Compile.selection_eq_ok compiled
  refine ⟨rfl, ?_⟩
  intro join member
  obtain ⟨relation, -, found⟩ := resolved join member
  obtain ⟨target, tenant, listed, enforced, rfl⟩ := Compile.join_eq_ok found
  exact fits_of_enforce listed enforced

/-- The rows of a compiled insert hold the tenant. -/
theorem isolated_of_insert {name : String} {table : Table} {records : List Record}
    {insert : Sql.Insert} (found : scope.table name = .ok table)
    (compiled : Compile.insert scope table records = .ok insert) :
    Isolated scope.catalog scope.tenant.active? insert.tokens.values (text 1 insert.tokens) := by
  obtain ⟨tenant, rows, enforced, present, read, rfl⟩ := Compile.insert_eq_ok compiled
  let columns := Compile.firstSeen [] (rows.flatMap fun row => row.map (·.1))
  -- a row of a tenant's table assigns the tenant, so its column is among those of the insert
  have assigned (owned : scope.catalog.IsScoped table.name) :
      ∃ tenantId, scope.tenant.active? = some tenantId ∧ ∀ row ∈ rows,
        row.lookup scope.catalog.tenantColumn = some (.text tenantId) ∧
          scope.catalog.tenantColumn ∈ columns := by
    obtain ⟨tenantId, active, rfl⟩ := fits_of_enforce found enforced owned
    refine ⟨tenantId, active, ?_⟩
    intro row member
    obtain ⟨record, -, filled⟩ := mem_of_mapM read member
    have assigns := Compile.rowAssignments_eq_ok filled
    obtain ⟨front, back, shape, -⟩ := List.lookup_eq_some_iff.mp assigns
    refine ⟨assigns, Compile.mem_firstSeen.mpr (.inr (List.mem_flatMap.mpr ⟨row, member, ?_⟩))⟩
    rw [shape, List.map_append]
    exact List.mem_append_right _ List.mem_cons_self
  refine isolated_insert (Compile.nodup_firstSeen List.nodup_nil) ?_ ?_ ?_
  · intro owned
    obtain ⟨tenantId, -, each⟩ := assigned owned
    obtain ⟨record, others, rfl⟩ := List.exists_cons_of_ne_nil present
    rw [List.mapM_cons] at read
    obtain ⟨row, -, rest⟩ := bind_eq_ok.mp read
    obtain ⟨more, -, shape⟩ := bind_eq_ok.mp rest
    cases shape
    exact List.ne_nil_of_mem (each row List.mem_cons_self).2
  · intro row member
    obtain ⟨fields, -, rfl⟩ := List.mem_map.mp member
    exact List.length_map _
  · intro row member owned
    obtain ⟨tenantId, active, each⟩ := assigned owned
    obtain ⟨fields, chosen, rfl⟩ := List.mem_map.mp member
    obtain ⟨assigns, among⟩ := each fields chosen
    obtain ⟨front, back, shape⟩ := List.append_of_mem among
    refine ⟨tenantId, front.map fun column => fields.lookup column,
      back.map fun column => fields.lookup column, active, ?_, ?_⟩
    · change columns.map _ = _
      rw [shape, List.map_append, List.map_cons, assigns]
    · change columns[_]? = _
      rw [shape, List.length_map, List.getElem?_append_right (Nat.le_refl _), Nat.sub_self]
      rfl

/-- Every statement that a scope compiles is isolated. -/
theorem isolated_of_compiled {statement : Statement} (compiled : Compile.Compiled scope statement) :
    Isolated scope.catalog scope.tenant.active? statement.values statement.text := by
  cases compiled with
  | select found read =>
      obtain ⟨tenant, selection, filters, order, enforced, resolved, filtered, -, rfl⟩ :=
        Compile.select_eq_ok read
      obtain ⟨source, joined⟩ := fits_of_selection resolved
      refine isolated_select ?_ joined (Compile.isFlat_of_filters filtered)
      rw [source]
      exact fits_of_enforce found enforced
  | selectByKeys found read =>
      obtain ⟨tenant, selection, enforced, resolved, rfl⟩ := Compile.selectByKeys_eq_ok read
      obtain ⟨source, joined⟩ := fits_of_selection resolved
      refine isolated_select ?_ joined ?_
      · rw [source]
        exact fits_of_enforce found enforced
      · intro filter member
        cases List.mem_singleton.mp member
        exact trivial
  | insert found read => exact isolated_of_insert found read
  | update found read =>
      obtain ⟨tenant, fields, filters, enforced, assigned, filtered, -, rfl⟩ :=
        Compile.update_eq_ok read
      refine isolated_update (fits_of_enforce found enforced)
        (Compile.isFlat_of_equalityFilters filtered) ?_
      intro owned entry member
      obtain ⟨tenantId, -, rfl⟩ := fits_of_enforce found enforced owned
      exact Compile.ne_of_mem_assignments assigned entry (List.mem_filter.mp member).1
  | delete found read =>
      obtain ⟨tenant, filters, enforced, filtered, -, rfl⟩ := Compile.delete_eq_ok read
      exact isolated_delete (fits_of_enforce found enforced)
        (Compile.isFlat_of_equalityFilters filtered)

end Isolation

end TableGate

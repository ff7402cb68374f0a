import TableGate.Sql.Statement

/-!
# The layout of a statement's text

The text of a statement is that of its parts put together.  Fragments that stand in a row are
written one after another, each numbering its placeholders after those of the fragments before it
(`Fragment.mem_texts`), and a word between them is written between their texts
(`Fragment.text_intercalate`).  The last section says how the text of each statement is laid out.
-/

namespace TableGate.Sql

namespace Fragment

variable {first : Nat}

@[simp]
theorem text_nil : text first [] = "" := rfl

@[simp]
theorem values_nil : values [] = [] := rfl

/-- A token is written with the number that is next, and the rest after its value, if it binds
one. -/
theorem text_cons (token : Token) (rest : Fragment) :
    text first (token :: rest) = token.text first ++ text (first + token.arity) rest := by
  have start : text first (token :: rest) =
      (rest.foldl writeToken ("" ++ token.text first, first + token.arity)).1 := rfl
  rw [start, foldl_writeToken, String.empty_append]

@[simp]
theorem text_word_cons (word : Word) (rest : Fragment) :
    text first (.word word :: rest) = word.text ++ text first rest :=
  text_cons (.word word) rest

@[simp]
theorem text_name_cons (name : Ident) (rest : Fragment) :
    text first (.name name :: rest) = name.quoted ++ text first rest :=
  text_cons (.name name) rest

@[simp]
theorem text_value_cons (value : Datum) (rest : Fragment) :
    text first (.value value :: rest) = placeholder first ++ text (first + 1) rest :=
  text_cons (.value value) rest

@[simp]
theorem values_word_cons (word : Word) (rest : Fragment) :
    values (.word word :: rest) = values rest := rfl

@[simp]
theorem values_name_cons (name : Ident) (rest : Fragment) :
    values (.name name :: rest) = values rest := rfl

@[simp]
theorem values_label_cons (name : Ident) (rest : Fragment) :
    values (.label name :: rest) = values rest := rfl

@[simp]
theorem values_value_cons (value : Datum) (rest : Fragment) :
    values (.value value :: rest) = value :: values rest := rfl

/-- A fragment that binds nothing is written alike wherever it stands. -/
theorem text_eq_of_values {fragment : Fragment} (unbound : values fragment = [])
    (first second : Nat) : text first fragment = text second fragment := by
  induction fragment with
  | nil => rfl
  | cons token rest ih =>
      have none := length_values_cons token rest
      rw [unbound, List.length_nil] at none
      have head : token.arity = 0 := by omega
      have others : values rest = [] := List.length_eq_zero_iff.mp (by omega)
      have same : token.text first = token.text second := by
        cases token <;> first | rfl | exact absurd head nofun
      rw [text_cons, text_cons, head, same, Nat.add_zero, Nat.add_zero, ih others]

/-! ### Fragments in a row -/

/-- The second of two lists is numbered after the values of the first. -/
theorem texts_append (left right : List Fragment) :
    texts first (left ++ right) =
      texts first left ++ texts (first + (left.flatMap values).length) right := by
  induction left generalizing first with
  | nil => rfl
  | cons fragment rest ih =>
      rw [List.cons_append, texts, ih, texts, List.cons_append, List.flatMap_cons,
        List.length_append, Nat.add_assoc]

@[simp]
theorem length_texts (fragments : List Fragment) :
    (texts first fragments).length = fragments.length := by
  induction fragments generalizing first with
  | nil => rfl
  | cons fragment rest ih => rw [texts, List.length_cons, ih, List.length_cons]

/-- The tokens of fragments in a row have what those of each fragment and the word between them
have. -/
theorem forall_mem_intercalate {property : Token → Prop} {word : Word}
    (between : property (.word word)) {fragments : List Fragment}
    (each : ∀ fragment ∈ fragments, ∀ token ∈ fragment, property token) :
    ∀ token ∈ ([.word word] : Fragment).intercalate fragments, property token := by
  induction fragments with
  | nil => exact fun token member => absurd member List.not_mem_nil
  | cons fragment rest ih =>
      have front := each fragment List.mem_cons_self
      have back := ih fun other later => each other (List.mem_cons_of_mem _ later)
      cases rest with
      | nil => simpa using front
      | cons next more =>
          intro token member
          rw [List.intercalate_cons_cons, List.append_assoc, List.mem_append] at member
          rcases member with before | after
          · exact front token before
          · rcases List.mem_cons.mp after with rfl | later
            · exact between
            · exact back token later

/-- The values of fragments in a row, a fixed word between each two, are those of the fragments. -/
theorem values_intercalate (word : Word) (fragments : List Fragment) :
    values ([.word word].intercalate fragments) = fragments.flatMap values := by
  induction fragments with
  | nil => rfl
  | cons fragment rest ih =>
      cases rest with
      | nil => simp
      | cons next more =>
          rw [List.intercalate_cons_cons, values_append, values_append, ih, List.flatMap_cons]
          simp

/-- Fragments in a row are written with the word between their texts. -/
theorem text_intercalate (word : Word) (fragments : List Fragment) :
    text first ([.word word].intercalate fragments) =
      word.text.intercalate (texts first fragments) := by
  induction fragments generalizing first with
  | nil => simp [texts]
  | cons fragment rest ih =>
      cases rest with
      | nil => simp [texts]
      | cons next more =>
          rw [List.intercalate_cons_cons, text_append, text_append, values_append, ih]
          simp [texts]

/-- A list binds the values of its fragments. -/
@[simp]
theorem values_list (fragments : List Fragment) :
    values (list fragments) = fragments.flatMap values :=
  values_intercalate .comma fragments

/-- A list is written with commas between its fragments. -/
theorem text_list (fragments : List Fragment) :
    text first (list fragments) = ", ".intercalate (texts first fragments) :=
  text_intercalate .comma fragments

/-- Parentheses bind nothing. -/
@[simp]
theorem values_enclosed (fragment : Fragment) : values (enclosed fragment) = values fragment := by
  rw [enclosed, List.cons_append, values_word_cons, values_append]
  simp

/-- A fragment is written between parentheses. -/
theorem text_enclosed (fragment : Fragment) :
    text first (enclosed fragment) = "(" ++ text first fragment ++ ")" := by
  rw [enclosed, List.cons_append, text_word_cons, text_append, text_word_cons, text_nil,
    String.append_empty, String.append_assoc]
  rfl

/-- Fragments that each follow a blank. -/
theorem text_flatMap_spaced (fragments : List Fragment) :
    text first (fragments.flatMap fun fragment => .word .spaceBetween :: fragment) =
      String.join ((texts first fragments).map fun written => " " ++ written) := by
  induction fragments generalizing first with
  | nil => simp [texts]
  | cons fragment rest ih =>
      rw [List.flatMap_cons, text_append, text_word_cons, values_word_cons, ih, texts,
        List.map_cons, String.join_cons]
      rfl

/-- Blanks between fragments bind nothing. -/
theorem values_flatMap_spaced (fragments : List Fragment) :
    values (fragments.flatMap fun fragment => .word .spaceBetween :: fragment) =
      fragments.flatMap values := by
  induction fragments with
  | nil => rfl
  | cons fragment rest ih =>
      rw [List.flatMap_cons, values_append, values_word_cons, ih, List.flatMap_cons]

/-- Each text in a row is that of one of the fragments, numbered after the values of the fragments
before it. -/
theorem mem_texts {fragments : List Fragment} {written : String}
    (member : written ∈ texts first fragments) :
    ∃ before fragment after, fragments = before ++ fragment :: after ∧
      written = text (first + (before.flatMap values).length) fragment := by
  induction fragments generalizing first with
  | nil => simp [texts] at member
  | cons fragment rest ih =>
      rcases List.mem_cons.mp member with rfl | later
      · exact ⟨[], fragment, rest, rfl, rfl⟩
      · obtain ⟨before, found, after, rfl, rfl⟩ := ih later
        refine ⟨fragment :: before, found, after, rfl, ?_⟩
        rw [List.flatMap_cons, List.length_append, Nat.add_assoc]

/-- Each text of a row is that of a fragment, with some number. -/
theorem exists_of_mem_texts {fragments : List Fragment} {written : String}
    (member : written ∈ texts first fragments) :
    ∃ fragment ∈ fragments, ∃ number, written = text number fragment := by
  obtain ⟨before, fragment, after, rfl, rfl⟩ := mem_texts member
  exact ⟨fragment, List.mem_append_right _ List.mem_cons_self, _, rfl⟩

/-- Each text of a row is that of an item, with some number. -/
theorem exists_of_mem_texts_map {α : Type} {part : α → Fragment} {items : List α}
    {written : String} (member : written ∈ texts first (items.map part)) :
    ∃ item ∈ items, ∃ number, written = text number (part item) := by
  obtain ⟨fragment, present, number, rfl⟩ := exists_of_mem_texts member
  obtain ⟨item, chosen, rfl⟩ := List.mem_map.mp present
  exact ⟨item, chosen, number, rfl⟩

end Fragment

open Fragment

variable {first : Nat}

/-! ### Columns and conditions -/

/-- A column as it is written. -/
def Column.text (column : Column) : String :=
  match column.table with
  | some table => column.name.qualified table
  | none => column.name.quoted

/-- A column binds nothing. -/
@[simp]
theorem Column.values_tokens (column : Column) : values column.tokens = [] := by
  cases shape : column.table <;> simp [Column.tokens, shape]

/-- A column is written the same with any number. -/
theorem Column.text_tokens_append (column : Column) (rest : Fragment) :
    Fragment.text first (column.tokens ++ rest) = column.text ++ Fragment.text first rest := by
  cases shape : column.table with
  | none => simp [Column.tokens, Column.text, shape]
  | some table =>
      simp only [Column.tokens, shape, List.cons_append, List.nil_append, text_name_cons,
        text_word_cons, Column.text, Ident.qualified, String.append_assoc]
      rfl

/-- A condition on one of a list of values has these values. -/
theorem Condition.values_within (column : Column) (keys : List Datum) :
    (Condition.single (.within column keys)).values = keys := by
  cases keys with
  | nil => rfl
  | cons key rest =>
      change Fragment.values (Predicate.within column (key :: rest)).tokens = key :: rest
      rw [Predicate.tokens, values_append, Column.values_tokens, List.nil_append,
        values_word_cons, values_enclosed, values_list, List.flatMap_map]
      · change (key :: rest).flatMap (fun value => [value]) = key :: rest
        rw [List.flatMap_singleton']
      · exact fun empty => List.cons_ne_nil _ _ empty

/-- Values in a row are written as their placeholders. -/
theorem texts_values (values : List Datum) :
    texts first (values.map fun value => [.value value]) =
      (List.range' first values.length).map placeholder := by
  induction values generalizing first with
  | nil => rfl
  | cons value rest ih =>
      rw [List.map_cons, texts, ih, text_value_cons, text_nil, String.append_empty,
        List.length_cons, List.range'_succ, List.map_cons]
      rfl

/-- The text of the condition that a column has one of some values, where their placeholders are
numbered from `first`. -/
def Column.withinText (column : Column) (first count : Nat) : String :=
  if count = 0 then "FALSE"
  else
    column.text ++ " IN (" ++ ", ".intercalate ((List.range' first count).map placeholder) ++ ")"

/-- A list of values is written as so many placeholders, and as false where it is empty. -/
theorem Predicate.text_within (column : Column) (values : List Datum) :
    Fragment.text first (Predicate.within column values).tokens =
      column.withinText first values.length := by
  cases values with
  | nil => rfl
  | cons value rest =>
      have opening : (" IN (" : String) = " IN " ++ "(" := rfl
      rw [Predicate.tokens, Column.text_tokens_append, text_word_cons, text_enclosed, text_list,
        texts_values, Column.withinText, List.length_cons, if_neg (Nat.succ_ne_zero _), opening]
      · simp only [String.append_assoc]
        rfl
      · exact List.cons_ne_nil _ _

/-- A clause of at least one condition. -/
theorem text_whereClause_cons (condition : Condition) (others : List Condition) :
    Fragment.text first (whereClause (condition :: others)) =
      " WHERE " ++ " AND ".intercalate (Fragment.text first condition.tokens ::
        texts (first + condition.values.length) (others.map Condition.tokens)) := by
  rw [whereClause, text_word_cons, text_intercalate, List.map_cons, texts]
  · rfl
  · exact List.cons_ne_nil _ _

/-- Conditions are written one after another, with AND between them. -/
theorem text_whereClause {conditions : List Condition} (present : conditions ≠ []) :
    Fragment.text first (whereClause conditions) =
      " WHERE " ++ " AND ".intercalate (texts first (conditions.map Condition.tokens)) := by
  obtain ⟨condition, others, rfl⟩ := List.exists_cons_of_ne_nil present
  exact text_whereClause_cons condition others

/-- The clause of the conditions binds their values. -/
theorem values_whereClause (conditions : List Condition) :
    values (whereClause conditions) = conditions.flatMap Condition.values := by
  cases conditions with
  | nil => rfl
  | cons condition others =>
      rw [whereClause, values_word_cons, values_intercalate, List.flatMap_map]
      · rfl
      · exact List.cons_ne_nil _ _

/-! ### Joins -/

/-- The equality of the keys on which a relation is joined. -/
def Join.matched (source : Ident) (join : Join) : Fragment :=
  (Column.mk (some join.slot) .id).tokens ++ .word .equal ::
    (Column.mk (some source) join.relation.name.foreignKey).tokens

/-- The conjuncts of a join: the keys are equal, and the row is the tenant's. -/
def Join.conjuncts (source : Ident) (join : Join) : List Fragment :=
  join.matched source ::
    (join.tenant.map fun predicate => (predicate.on (some join.slot)).tokens).toList

/-- A join names its target and its slot, and all of its conditions follow. -/
theorem Join.clause_eq (source : Ident) (join : Join) :
    join.clause source =
      [.word .joined, .name join.relation.target, .word .spaceBetween, .name join.slot,
        .word .matching] ++ [.word .both].intercalate (join.conjuncts source) := by
  cases pinned : join.tenant with
  | none => simp [Join.clause, Join.conjuncts, Join.matched, pinned]
  | some predicate => simp [Join.clause, Join.conjuncts, Join.matched, pinned]

/-- A join is written with AND between its conditions. -/
theorem Join.text_clause (source : Ident) (join : Join) :
    Fragment.text first (join.clause source) =
      "LEFT JOIN " ++ join.relation.target.quoted ++ " " ++ join.slot.quoted ++ " ON " ++
        " AND ".intercalate (texts first (join.conjuncts source)) := by
  simp only [Join.clause_eq, List.cons_append, List.nil_append, text_word_cons, text_name_cons,
    text_intercalate, String.append_assoc]
  rfl

/-- The match of a join with its table binds nothing. -/
theorem Join.values_matched (source : Ident) (join : Join) : values (join.matched source) = [] := by
  rw [Join.matched, values_append, Column.values_tokens, values_word_cons, Column.values_tokens]
  rfl

/-- A join binds the tenant only. -/
theorem Join.values_clause (source : Ident) (join : Join) :
    values (join.clause source) = (join.conjuncts source).tail.flatMap values := by
  rw [Join.clause_eq, values_append, values_intercalate, Join.conjuncts, List.flatMap_cons,
    Join.values_matched]
  rfl

/-! ### Selections -/

/-- The object of a relation binds nothing. -/
theorem Join.values_object (join : Join) : values join.object = [] := by
  unfold Join.object
  split
  · rfl
  · rw [values_word_cons, values_enclosed, values_list, List.flatMap_eq_nil_iff]
    intro fragment member
    obtain ⟨name, -, rfl⟩ := List.mem_map.mp member
    rw [values_append, Column.values_tokens]
    rfl

/-- The output of a relation binds nothing. -/
theorem Join.values_output (join : Join) : values join.output = [] := by
  unfold Join.output
  simp only [List.cons_append, List.append_assoc, values_word_cons, values_append,
    Column.values_tokens, Join.values_object]
  rfl

/-- The columns of a select bind no values. -/
theorem Selection.values_outputs (selection : Selection) :
    selection.outputs.flatMap values = [] := by
  have named : (selection.columns.map fun name =>
      (Column.mk (some selection.source) name).tokens).flatMap values = [] := by
    rw [List.flatMap_eq_nil_iff]
    intro fragment member
    obtain ⟨name, -, rfl⟩ := List.mem_map.mp member
    exact Column.values_tokens _
  have joined : (selection.joins.map Join.output).flatMap values = [] := by
    rw [List.flatMap_eq_nil_iff]
    intro fragment member
    obtain ⟨join, -, rfl⟩ := List.mem_map.mp member
    exact join.values_output
  have base : selection.baseOutputs.flatMap values = [] := by
    unfold Selection.baseOutputs
    split
    · rw [List.flatMap_cons, named]
      rfl
    · exact named
  rw [Selection.outputs, List.flatMap_append, base, joined, List.append_nil]

/-- The values of a selection are those of its joins. -/
theorem Selection.values_tokens (selection : Selection) :
    values selection.tokens = selection.clauses.flatMap values := by
  unfold Selection.tokens
  simp only [List.cons_append, values_word_cons, values_append, values_list,
    Selection.values_outputs, values_flatMap_spaced]
  rfl

/-- A selection is written as its outputs, its table and its joins. -/
theorem Selection.text_tokens (selection : Selection) :
    Fragment.text 1 selection.tokens =
      "SELECT " ++ ", ".intercalate (texts 1 selection.outputs) ++ " FROM " ++
        selection.source.quoted ++
        String.join ((texts 1 selection.clauses).map fun clause => " " ++ clause) := by
  unfold Selection.tokens
  simp only [List.cons_append, List.nil_append, List.append_assoc, text_word_cons, text_name_cons,
    text_append, text_list, text_flatMap_spaced, values_list, Selection.values_outputs,
    List.length_nil, Nat.add_zero, String.append_assoc]
  rfl

/-! ### Statements -/

/-- The condition of the tenant comes before all filters. -/
theorem conditions_append (table : Option Ident) (tenant : Option TenantPredicate)
    (filters added : List Condition) :
    conditions table tenant (filters ++ added) = conditions table tenant filters ++ added := by
  cases tenant <;> rfl

/-- An order binds nothing. -/
theorem values_orderClause (source : Ident) (terms : List OrderTerm) :
    values (orderClause source terms) = [] := by
  cases terms with
  | nil => rfl
  | cons term rest =>
      rw [orderClause, values_word_cons, values_list, List.flatMap_eq_nil_iff]
      · intro fragment member
        obtain ⟨other, -, rfl⟩ := List.mem_map.mp member
        rw [OrderTerm.tokens, values_append, Column.values_tokens]
        rfl
      · exact List.cons_ne_nil _ _

/-- A page binds nothing, whether there is one or not. -/
theorem values_page (page : Option Page) : values ((page.map Page.tokens).getD []) = [] := by
  cases page with
  | none => rfl
  | some page =>
      change values page.tokens = []
      unfold Page.tokens
      split <;> rfl

/-- The order and the page that end a select. -/
def Select.ending (select : Select) : Fragment :=
  orderClause select.selection.source select.order ++ (select.page.map Page.tokens).getD []

/-- Order and page bind nothing. -/
theorem Select.values_ending (select : Select) : values select.ending = [] := by
  rw [ending, values_append, values_orderClause, values_page]
  rfl

/-- A select reads columns, table and joins, then its conditions, then order and page. -/
theorem Select.text_tokens (select : Select) :
    Fragment.text 1 select.tokens =
      Fragment.text 1 select.selection.tokens ++
        Fragment.text (1 + (values select.selection.tokens).length)
          (whereClause select.conditions) ++
        Fragment.text (1 + (values (select.selection.tokens ++
          whereClause select.conditions)).length) select.ending := by
  rw [Select.tokens, List.append_assoc, text_append, text_append]
  rfl

/-- A select binds the values of its joins, then those of its conditions. -/
theorem Select.values_tokens (select : Select) :
    values select.tokens = select.selection.clauses.flatMap values ++
      select.conditions.flatMap Condition.values ++ values select.ending := by
  rw [Select.tokens, List.append_assoc, values_append, values_append, Selection.values_tokens,
    values_whereClause]
  rfl

/-- Each assignment is written with one placeholder, and these are numbered in a row. -/
theorem texts_assignments (assignments : List (Ident × Datum)) :
    texts first (assignments.map Update.assignment) = assignments.mapIdx fun index assignment =>
      assignment.1.quoted ++ " = " ++ placeholder (first + index) := by
  induction assignments generalizing first with
  | nil => rfl
  | cons assignment rest ih =>
      have later : texts (first + 1) (rest.map Update.assignment) =
          rest.mapIdx fun index assignment =>
            assignment.1.quoted ++ " = " ++ placeholder (first + (index + 1)) := by
        rw [ih]
        refine congrArg (List.mapIdx · rest) (funext fun index => funext fun assignment => ?_)
        rw [Nat.add_right_comm, Nat.add_assoc]
      rw [List.map_cons, texts, List.mapIdx_cons, ← later, Update.assignment, text_name_cons,
        text_word_cons, text_value_cons, text_nil, String.append_empty, ← String.append_assoc]
      rfl

/-- Assignments bind what they assign. -/
theorem values_assignments (assignments : List (Ident × Datum)) :
    (assignments.map Update.assignment).flatMap values = assignments.map Prod.snd := by
  rw [List.flatMap_map, List.map_eq_flatMap]
  rfl

/-- An update makes its assignments, under its conditions. -/
theorem Update.text_tokens (update : Update) :
    Fragment.text 1 update.tokens =
      "UPDATE " ++ update.table.quoted ++ " SET " ++
        ", ".intercalate (texts 1 (update.assignments.map assignment)) ++
        Fragment.text (1 + ((update.assignments.map assignment).flatMap values).length)
          (whereClause update.conditions) ++
        " RETURNING *" := by
  rw [Update.tokens, ← text_list, ← values_list]
  simp only [List.cons_append, List.nil_append, List.append_assoc, text_word_cons, text_name_cons,
    text_append, String.append_assoc]
  rfl

/-- An update binds what it assigns, then the values of its conditions. -/
theorem Update.values_tokens (update : Update) :
    values update.tokens =
      (update.assignments.map assignment).flatMap values ++
        update.conditions.flatMap Condition.values := by
  rw [Update.tokens]
  simp only [List.cons_append, List.nil_append, values_word_cons, values_name_cons, values_append,
    values_list, values_whereClause]
  exact List.append_nil _

/-- A delete is written as its table and its conditions. -/
theorem Delete.text_tokens (delete : Delete) :
    Fragment.text 1 delete.tokens =
      "DELETE FROM " ++ delete.table.quoted ++ Fragment.text 1 (whereClause delete.conditions) ++
        " RETURNING *" := by
  rw [Delete.tokens]
  simp only [List.cons_append, List.nil_append, text_word_cons, text_name_cons, text_append,
    String.append_assoc]
  rfl

/-- A delete binds the values of its conditions. -/
theorem Delete.values_tokens (delete : Delete) :
    values delete.tokens = delete.conditions.flatMap Condition.values := by
  rw [Delete.tokens]
  simp only [List.cons_append, List.nil_append, values_word_cons, values_name_cons, values_append,
    values_whereClause]
  exact List.append_nil _

/-- Names are written between quotes. -/
theorem texts_names (names : List Ident) :
    texts first (names.map fun name => [.name name]) = names.map Ident.quoted := by
  induction names generalizing first with
  | nil => rfl
  | cons name rest ih =>
      rw [List.map_cons, texts, ih, text_name_cons, text_nil, String.append_empty, List.map_cons]

/-- Names bind nothing. -/
theorem values_names (names : List Ident) :
    (names.map fun name => ([.name name] : Fragment)).flatMap values = [] := by
  rw [List.flatMap_eq_nil_iff]
  intro fragment member
  obtain ⟨name, -, rfl⟩ := List.mem_map.mp member
  rfl

/-- The cells of a row that is inserted, in parentheses. -/
def Insert.row (cells : List (Option Datum)) : Fragment := enclosed (list (cells.map cell))

/-- An insert without columns gives all of them their defaults. -/
theorem Insert.text_tokens_of_nil {insert : Insert} (bare : insert.columns = []) :
    Fragment.text 1 insert.tokens =
      "INSERT INTO " ++ insert.table.quoted ++ " DEFAULT VALUES" ++ " RETURNING *" := by
  rw [Insert.tokens, bare]
  simp only [List.cons_append, List.nil_append, text_word_cons, text_name_cons, text_nil,
    String.append_empty, String.append_assoc]
  rfl

/-- An insert without columns binds nothing. -/
theorem Insert.values_tokens_of_nil {insert : Insert} (bare : insert.columns = []) :
    values insert.tokens = [] := by
  rw [Insert.tokens, bare]
  rfl

/-- An insert names its columns, then gives its rows. -/
theorem Insert.text_tokens {insert : Insert} (named : insert.columns ≠ []) :
    Fragment.text 1 insert.tokens =
      "INSERT INTO " ++ insert.table.quoted ++ " (" ++
        ", ".intercalate (insert.columns.map Ident.quoted) ++ ") VALUES " ++
        ", ".intercalate (texts 1 (insert.rows.map row)) ++ " RETURNING *" := by
  obtain ⟨column, others, shape⟩ := List.exists_cons_of_ne_nil named
  have opening : (" (" : String) = " " ++ "(" := rfl
  have closing : (") VALUES " : String) = ")" ++ " VALUES " := rfl
  rw [← text_list, Insert.tokens, shape, opening, closing]
  simp only [List.cons_append, List.nil_append, text_word_cons, text_name_cons, text_append,
    text_enclosed, values_enclosed, values_list, values_names, text_list, texts_names,
    String.append_assoc]
  rfl

/-- An insert binds the values of its rows, one row after another. -/
theorem Insert.values_tokens {insert : Insert} (named : insert.columns ≠ []) :
    values insert.tokens = (insert.rows.map row).flatMap values := by
  obtain ⟨column, others, shape⟩ := List.exists_cons_of_ne_nil named
  rw [Insert.tokens, shape]
  simp only [List.cons_append, List.nil_append, values_word_cons, values_name_cons, values_append,
    values_enclosed, values_list, values_names]
  exact List.append_nil _

end TableGate.Sql

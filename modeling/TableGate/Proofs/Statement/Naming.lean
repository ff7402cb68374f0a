import TableGate.Proofs.Statement.Lexeme

/-!
# Names of a statement

What a statement is put together from says which names and labels its tokens have.  `NamedBy` says
of a statement that all of these are known; then the same holds of its tokens (`Statement.known`).
Apart from the page, which comes last, a statement has no numerals, so its text is made up of known
lexemes (`Statement.lexicallySafe`).
-/

namespace TableGate.Sql

variable {names labels : Ident → Prop}

/-- A token is no numeral, and its name or label is known. -/
def Token.Known (names labels : Ident → Prop) : Token → Prop
  | .name ident => names ident
  | .label ident => labels ident
  | .numeral _ => False
  | .word _ | .value _ => True

namespace Fragment

/-- Every token of a fragment is known. -/
def Known (names labels : Ident → Prop) (fragment : Fragment) : Prop :=
  ∀ token ∈ fragment, token.Known names labels

variable {left right : Fragment}

@[simp]
theorem known_nil : Known names labels [] := fun _ member => absurd member List.not_mem_nil

@[simp]
theorem known_cons {token : Token} :
    Known names labels (token :: right) ↔ token.Known names labels ∧ Known names labels right :=
  List.forall_mem_cons

@[simp]
theorem known_append :
    Known names labels (left ++ right) ↔ Known names labels left ∧ Known names labels right :=
  List.forall_mem_append

/-- Fragments in a row, a word between each two, are known if each of them is. -/
theorem known_intercalate (word : Word) {fragments : List Fragment}
    (known : ∀ fragment ∈ fragments, Known names labels fragment) :
    Known names labels ([.word word].intercalate fragments) :=
  forall_mem_intercalate trivial known

theorem known_list {fragments : List Fragment}
    (known : ∀ fragment ∈ fragments, Known names labels fragment) :
    Known names labels (list fragments) :=
  known_intercalate .comma known

@[simp]
theorem known_enclosed : Known names labels (enclosed right) ↔ Known names labels right := by
  simp [enclosed, Token.Known]

/-- A known fragment has no numerals. -/
theorem Known.numeral_not_mem (known : Known names labels right) (number : Nat) :
    .numeral number ∉ right :=
  fun member => known (.numeral number) member

end Fragment

/-! ### Conditions -/

/-- The names of a column are known. -/
structure Column.NamedBy (names : Ident → Prop) (column : Column) : Prop where
  table : ∀ table, column.table = some table → names table
  name : names column.name

theorem Column.known {column : Column} (named : column.NamedBy names) :
    column.tokens.Known names labels := by
  obtain ⟨table, name⟩ := column
  cases table with
  | none => simpa [tokens, Token.Known] using named.name
  | some table => simpa [tokens, Token.Known] using ⟨named.table table rfl, named.name⟩

/-- A column whose table and name are known. -/
theorem Column.known_qualified {table name : Ident} (qualifier : names table)
    (plain : names name) : (Column.mk (some table) name).tokens.Known names labels := by
  simpa [tokens, Token.Known] using ⟨qualifier, plain⟩

def Predicate.column : Predicate → Column
  | .compare column _ _ => column
  | .isNull column => column
  | .equalsFlag column _ => column
  | .isFlag column _ => column
  | .notDistinct column _ => column
  | .within column _ => column

theorem Predicate.known {predicate : Predicate} (named : predicate.column.NamedBy names) :
    predicate.tokens.Known names labels := by
  have front : predicate.column.tokens.Known names labels := Column.known named
  cases predicate with
  | compare => simpa [tokens, column, Token.Known] using front
  | isNull => simpa [tokens, column, Token.Known] using front
  | equalsFlag => simpa [tokens, column, Token.Known] using front
  | isFlag => simpa [tokens, column, Token.Known] using front
  | notDistinct => simpa [tokens, column, Token.Known] using front
  | within name values =>
      cases values with
      | nil => simp [tokens, Token.Known]
      | cons value rest =>
          rw [tokens, Fragment.known_append, Fragment.known_cons, Fragment.known_enclosed]
          · refine ⟨front, trivial, Fragment.known_list fun fragment member => ?_⟩
            obtain ⟨datum, -, rfl⟩ := List.mem_map.mp member
            simp [Token.Known]
          · exact fun empty => List.cons_ne_nil _ _ empty

/-- The columns that a condition is on. -/
def Condition.columns : Condition → List Column
  | .single predicate => [predicate.column]
  | .anyOf alternatives => alternatives.map Predicate.column

/-- The names of a condition's columns are known. -/
def Condition.NamedBy (names : Ident → Prop) (condition : Condition) : Prop :=
  ∀ column ∈ condition.columns, column.NamedBy names

theorem Condition.known {condition : Condition} (named : condition.NamedBy names) :
    condition.tokens.Known names labels := by
  cases condition with
  | single predicate => exact Predicate.known (named predicate.column List.mem_cons_self)
  | anyOf alternatives =>
      rw [tokens, Fragment.known_enclosed]
      refine Fragment.known_intercalate .either fun fragment member => ?_
      obtain ⟨predicate, present, rfl⟩ := List.mem_map.mp member
      exact Predicate.known (named predicate.column (List.mem_map_of_mem present))

theorem known_whereClause {conditions : List Condition}
    (named : ∀ condition ∈ conditions, condition.NamedBy names) :
    (whereClause conditions).Known names labels := by
  cases conditions with
  | nil => exact Fragment.known_nil
  | cons condition rest =>
      rw [whereClause, Fragment.known_cons]
      · refine ⟨trivial, Fragment.known_intercalate .both fun fragment member => ?_⟩
        obtain ⟨found, present, rfl⟩ := List.mem_map.mp member
        exact Condition.known (named found present)
      · exact fun empty => List.cons_ne_nil _ _ empty

/-! ### Selections -/

/-- The names that a join writes are known. -/
structure Join.NamedBy (names labels : Ident → Prop) (join : Join) : Prop where
  target : names join.relation.target
  shown : names join.relation.name
  foreignKey : names join.relation.name.foreignKey
  slot : names join.slot
  key : names .id
  fields : ∀ listed, join.relation.fields = .listed listed →
    ∀ name ∈ listed, names name ∧ labels name
  tenant : ∀ predicate, join.tenant = some predicate → names predicate.column

theorem Join.known_clause {source : Ident} {join : Join} (known : names source)
    (named : join.NamedBy names labels) : (join.clause source).Known names labels := by
  have key : (Column.mk (some join.slot) .id).tokens.Known names labels :=
    Column.known_qualified named.slot named.key
  have reference : (Column.mk (some source) join.relation.name.foreignKey).tokens.Known
      names labels :=
    Column.known_qualified known named.foreignKey
  cases tenant : join.tenant with
  | none =>
      simp only [clause, tenant, Fragment.known_append, Fragment.known_cons, Fragment.known_nil,
        Token.Known, true_and, and_true]
      exact ⟨⟨⟨named.target, named.slot⟩, key⟩, reference⟩
  | some predicate =>
      have column : (predicate.on (some join.slot)).column.NamedBy names :=
        ⟨fun table same => Option.some.inj same ▸ named.slot, named.tenant predicate tenant⟩
      simp only [clause, tenant, Fragment.known_append, Fragment.known_cons, Fragment.known_nil,
        Token.Known, true_and, and_true]
      exact ⟨⟨⟨⟨named.target, named.slot⟩, key⟩, reference⟩, Predicate.known column⟩

theorem Join.known_output {join : Join} (named : join.NamedBy names labels) :
    join.output.Known names labels := by
  have key : (Column.mk (some join.slot) .id).tokens.Known names labels :=
    Column.known_qualified named.slot named.key
  have object : join.object.Known names labels := by
    unfold Join.object
    split
    · simpa [Token.Known] using named.slot
    · next listed shape =>
        rw [Fragment.known_cons, Fragment.known_enclosed]
        refine ⟨trivial, Fragment.known_list fun fragment member => ?_⟩
        obtain ⟨name, present, rfl⟩ := List.mem_map.mp member
        obtain ⟨plain, label⟩ := named.fields listed shape name present
        rw [Fragment.known_append, Fragment.known_cons, Fragment.known_cons]
        exact ⟨⟨label, trivial, Fragment.known_nil⟩, Column.known_qualified named.slot plain⟩
  simp only [output, Fragment.known_append, Fragment.known_cons, Fragment.known_nil, Token.Known,
    true_and, and_true]
  exact ⟨⟨key, object⟩, named.shown⟩

/-- The names that a selection writes are known. -/
structure Selection.NamedBy (names labels : Ident → Prop) (selection : Selection) : Prop where
  source : names selection.source
  columns : ∀ column ∈ selection.columns, names column
  joins : ∀ join ∈ selection.joins, join.NamedBy names labels

theorem Selection.known {selection : Selection} (named : selection.NamedBy names labels) :
    selection.tokens.Known names labels := by
  have outputs : ∀ fragment ∈ selection.outputs, fragment.Known names labels := by
    have columns : ∀ fragment ∈ selection.columns.map fun name =>
        (Column.mk (some selection.source) name).tokens, fragment.Known names labels := by
      intro fragment member
      obtain ⟨column, present, rfl⟩ := List.mem_map.mp member
      exact Column.known_qualified named.source (named.columns column present)
    intro fragment member
    rcases List.mem_append.mp member with base | related
    · unfold baseOutputs at base
      split at base
      · rcases List.mem_cons.mp base with rfl | listed
        · simpa [wholeRow, Token.Known] using named.source
        · exact columns fragment listed
      · exact columns fragment base
    · obtain ⟨join, present, rfl⟩ := List.mem_map.mp related
      exact Join.known_output (named.joins join present)
  have clauses : ∀ token ∈ selection.clauses.flatMap fun clause => .word .spaceBetween :: clause,
      token.Known names labels := by
    intro token member
    obtain ⟨clause, present, within⟩ := List.mem_flatMap.mp member
    obtain ⟨join, listed, rfl⟩ := List.mem_map.mp present
    rcases List.mem_cons.mp within with rfl | inner
    · trivial
    · exact Join.known_clause named.source (named.joins join listed) token inner
  simp only [tokens, List.cons_append, Fragment.known_append, Fragment.known_cons,
    Fragment.known_nil, Token.Known, true_and, and_true]
  exact ⟨⟨Fragment.known_list outputs, named.source⟩, clauses⟩

/-! ### Statements -/

/-- The names that a select writes are known. -/
structure Select.NamedBy (names labels : Ident → Prop) (select : Select) : Prop where
  selection : select.selection.NamedBy names labels
  conditions : ∀ condition ∈ select.conditions, condition.NamedBy names
  order : ∀ term ∈ select.order, names term.column

/-- The names that an insert writes are known. -/
structure Insert.NamedBy (names : Ident → Prop) (insert : Insert) : Prop where
  table : names insert.table
  columns : ∀ column ∈ insert.columns, names column

/-- The names that an update writes are known. -/
structure Update.NamedBy (names : Ident → Prop) (update : Update) : Prop where
  table : names update.table
  assignments : ∀ entry ∈ update.assignments, names entry.1
  conditions : ∀ condition ∈ update.conditions, condition.NamedBy names

/-- The names that a delete writes are known. -/
structure Delete.NamedBy (names : Ident → Prop) (delete : Delete) : Prop where
  table : names delete.table
  conditions : ∀ condition ∈ delete.conditions, condition.NamedBy names

namespace Statement

/-- The names and labels of a statement are known. -/
def NamedBy (names labels : Ident → Prop) : Statement → Prop
  | .select statement => statement.NamedBy names labels
  | .insert statement => statement.NamedBy names
  | .update statement => statement.NamedBy names
  | .delete statement => statement.NamedBy names

/-- The tokens of a statement without those of a page. -/
def body : Statement → Fragment
  | .select statement =>
      statement.selection.tokens ++ whereClause statement.conditions ++
        orderClause statement.selection.source statement.order
  | .insert statement => statement.tokens
  | .update statement => statement.tokens
  | .delete statement => statement.tokens

/-- The page with which a statement ends, if it has one. -/
def page? : Statement → Option Page
  | .select statement => statement.page
  | .insert _ | .update _ | .delete _ => none

theorem tokens_eq_append (statement : Statement) :
    statement.tokens = statement.body ++ (statement.page?.map Page.tokens).getD [] := by
  cases statement with
  | select statement => rfl
  | insert statement => exact (List.append_nil _).symm
  | update statement => exact (List.append_nil _).symm
  | delete statement => exact (List.append_nil _).symm

end Statement

theorem Select.known {select : Select} (named : select.NamedBy names labels) :
    (Statement.select select).body.Known names labels := by
  have order : (orderClause select.selection.source select.order).Known names labels := by
    cases terms : select.order with
    | nil => exact Fragment.known_nil
    | cons term rest =>
        rw [orderClause, Fragment.known_cons]
        · refine ⟨trivial, Fragment.known_list fun fragment member => ?_⟩
          obtain ⟨found, present, rfl⟩ := List.mem_map.mp member
          rw [OrderTerm.tokens, Fragment.known_append]
          refine ⟨Column.known_qualified named.selection.source ?_, by simp [Token.Known]⟩
          exact named.order found (terms ▸ present)
        · exact fun empty => List.cons_ne_nil _ _ empty
  rw [Statement.body, Fragment.known_append, Fragment.known_append]
  exact ⟨⟨Selection.known named.selection, known_whereClause named.conditions⟩, order⟩

theorem Insert.known {insert : Insert} (named : insert.NamedBy names) :
    insert.tokens.Known names labels := by
  have columns : ∀ fragment ∈ insert.columns.map fun name => [.name name],
      Fragment.Known names labels fragment := by
    intro fragment member
    obtain ⟨name, present, rfl⟩ := List.mem_map.mp member
    simpa [Token.Known] using named.columns name present
  have rows : ∀ fragment ∈ insert.rows.map fun row =>
      Fragment.enclosed (Fragment.list (row.map cell)),
      Fragment.Known names labels fragment := by
    intro fragment member
    obtain ⟨row, -, rfl⟩ := List.mem_map.mp member
    rw [Fragment.known_enclosed]
    refine Fragment.known_list fun written within => ?_
    obtain ⟨value, -, rfl⟩ := List.mem_map.mp within
    cases value <;> simp [cell, Token.Known]
  simp only [tokens, Fragment.known_append, Fragment.known_cons, Fragment.known_nil, Token.Known,
    true_and, and_true]
  refine ⟨named.table, ?_⟩
  cases shape : insert.columns with
  | nil => simp [Token.Known]
  | cons column rest =>
      simp only [Fragment.known_append, Fragment.known_cons, Fragment.known_enclosed, Token.Known,
        List.cons_append, true_and]
      exact ⟨Fragment.known_list (shape ▸ columns), Fragment.known_list rows⟩

theorem Update.known {update : Update} (named : update.NamedBy names) :
    update.tokens.Known names labels := by
  have assignments : ∀ fragment ∈ update.assignments.map assignment,
      Fragment.Known names labels fragment := by
    intro fragment member
    obtain ⟨entry, present, rfl⟩ := List.mem_map.mp member
    simpa [assignment, Token.Known] using named.assignments entry present
  simp only [tokens, Fragment.known_append, Fragment.known_cons, Fragment.known_nil, Token.Known,
    true_and, and_true]
  exact ⟨⟨named.table, Fragment.known_list assignments⟩, known_whereClause named.conditions⟩

theorem Delete.known {delete : Delete} (named : delete.NamedBy names) :
    delete.tokens.Known names labels := by
  simp only [tokens, Fragment.known_append, Fragment.known_cons, Fragment.known_nil, Token.Known,
    true_and, and_true]
  exact ⟨named.table, known_whereClause named.conditions⟩

namespace Statement

variable {statement : Statement}

/-- The tokens of a statement apart from its page are known if its names are. -/
theorem known (named : statement.NamedBy names labels) : statement.body.Known names labels := by
  cases statement with
  | select statement => exact Select.known named
  | insert statement => exact Insert.known named
  | update statement => exact Update.known named
  | delete statement => exact Delete.known named

end Statement

/-- The clauses of a page have no names and no labels. -/
theorem Page.word_or_numeral {page : Page} {token : Token} (member : token ∈ page.tokens) :
    (∃ word, token = .word word) ∨ ∃ number, token = .numeral number := by
  rcases List.mem_append.mp member with limit | offset
  · simp only [List.mem_cons, List.not_mem_nil, or_false] at limit
    exact limit.imp (fun same => ⟨_, same⟩) fun same => ⟨_, same⟩
  · split at offset
    · exact absurd offset List.not_mem_nil
    · simp only [List.mem_cons, List.not_mem_nil, or_false] at offset
      exact offset.imp (fun same => ⟨_, same⟩) fun same => ⟨_, same⟩

theorem Page.numeralsPlaced (page : Page) (first : Nat) :
    Lexeme.NumeralsPlaced (page.tokens.lexemes first) := by
  rw [tokens, Fragment.lexemes_append]
  apply Lexeme.NumeralsPlaced.append
  · exact Lexeme.numeralsPlaced_pair (.inl rfl) page.limit
  · split
    · exact Lexeme.numeralsPlaced_of_absent fun _ member => absurd member List.not_mem_nil
    · exact Lexeme.numeralsPlaced_pair (.inr rfl) page.offset

namespace Statement

variable {statement : Statement}

theorem numeralsPlaced (named : statement.NamedBy names labels) :
    Lexeme.NumeralsPlaced (statement.tokens.lexemes 1) := by
  rw [tokens_eq_append, Fragment.lexemes_append]
  apply Lexeme.NumeralsPlaced.append
  · apply Lexeme.numeralsPlaced_of_absent
    intro number member
    obtain ⟨token, present, first, shape⟩ := Fragment.mem_of_mem_lexemes member
    cases token with
    | numeral found => exact (known named).numeral_not_mem found present
    | _ => exact absurd shape nofun
  · cases statement.page? with
    | none => exact Lexeme.numeralsPlaced_of_absent fun _ member => absurd member List.not_mem_nil
    | some page => exact page.numeralsPlaced _

/-- A token of a statement that has a name or a label is known. -/
theorem known_of_mem_tokens (named : statement.NamedBy names labels) {token : Token}
    (member : token ∈ statement.tokens) (plain : ∀ number, token ≠ .numeral number) :
    token.Known names labels := by
  rw [tokens_eq_append] at member
  rcases List.mem_append.mp member with front | back
  · exact known named token front
  · cases shape : statement.page? with
    | none =>
        rw [shape] at back
        exact absurd back List.not_mem_nil
    | some page =>
        rw [shape] at back
        rcases Page.word_or_numeral back with ⟨word, rfl⟩ | ⟨number, rfl⟩
        · trivial
        · exact absurd rfl (plain number)

/-- The text of a statement is made up of known lexemes if its names and labels are known. -/
theorem lexicallySafe (named : statement.NamedBy names labels) :
    LexicallySafe names labels (statement.tokens.lexemes 1) statement.text where
  cut := (Fragment.join_lexemes statement.tokens).symm
  names name member := by
    obtain ⟨token, present, number, shape⟩ := Fragment.mem_of_mem_lexemes member
    cases token with
    | name ident =>
        cases shape
        exact known_of_mem_tokens named present nofun
    | _ => exact absurd shape nofun
  labels name member := by
    obtain ⟨token, present, number, shape⟩ := Fragment.mem_of_mem_lexemes member
    cases token with
    | label ident =>
        cases shape
        exact known_of_mem_tokens named present nofun
    | _ => exact absurd shape nofun
  numerals := numeralsPlaced named
  quotes c quote := by
    rw [Statement.text, ← Fragment.join_lexemes]
    exact Lexeme.count_quote quote _
  marks _ listed := Fragment.not_mentions_mark listed statement.tokens

end Statement

end TableGate.Sql

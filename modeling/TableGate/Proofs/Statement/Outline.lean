import TableGate.Proofs.Statement.Layout

/-!
# Outlines of statements

The outline of a statement is the statement with all of its values left blank.  It has the same text
and binds as many values (`Statement.written_outline`), so statements with one outline differ in
their values only.
-/

namespace TableGate

/-- The value that stands for every other one. -/
def Datum.blank : Datum := .text ""

/-- The condition on the tenant's column, with the tenant left blank. -/
def TenantPredicate.outline (predicate : TenantPredicate) : TenantPredicate :=
  { predicate with tenantId := "" }

namespace Sql

/-! ### Tokens -/

/-- A token with its value, if it binds one, left blank. -/
def Token.outline : Token → Token
  | .value _ => .value .blank
  | token => token

namespace Fragment

variable {first : Nat}

/-- A fragment with all of its values left blank. -/
def outline (fragment : Fragment) : Fragment := fragment.map Token.outline

/-- Leaving values blank changes no text, because a value is written as its number. -/
theorem text_outline (fragment : Fragment) : text first fragment.outline = text first fragment := by
  induction fragment generalizing first with
  | nil => rfl
  | cons token rest ih =>
      have head : token.outline.text first = token.text first := by cases token <;> rfl
      have width : token.outline.arity = token.arity := by cases token <;> rfl
      change text first (token.outline :: outline rest) = _
      rw [text_cons, text_cons, head, width, ih]

/-- Leaving values blank changes no number of values. -/
theorem length_values_outline (fragment : Fragment) :
    (values fragment.outline).length = (values fragment).length := by
  induction fragment with
  | nil => rfl
  | cons token rest ih =>
      have width : token.outline.arity = token.arity := by cases token <;> rfl
      change (values (token.outline :: outline rest)).length = _
      rw [length_values_cons, length_values_cons, width, ih]

@[simp]
theorem outline_nil : outline [] = [] := rfl

@[simp]
theorem outline_word_cons (word : Word) (rest : Fragment) :
    outline (.word word :: rest) = .word word :: outline rest := rfl

@[simp]
theorem outline_name_cons (name : Ident) (rest : Fragment) :
    outline (.name name :: rest) = .name name :: outline rest := rfl

@[simp]
theorem outline_value_cons (value : Datum) (rest : Fragment) :
    outline (.value value :: rest) = .value .blank :: outline rest := rfl

/-- Outlines are taken part by part. -/
@[simp]
theorem outline_append (left right : Fragment) :
    outline (left ++ right) = outline left ++ outline right := List.map_append

/-- Words between fragments bind nothing and stay as they are. -/
theorem outline_intercalate (word : Word) (fragments : List Fragment) :
    outline ([.word word].intercalate fragments) =
      [.word word].intercalate (fragments.map outline) := by
  induction fragments with
  | nil => rfl
  | cons fragment rest ih =>
      cases rest with
      | nil => simp
      | cons next more =>
          rw [List.intercalate_cons_cons, outline_append, outline_append, ih]
          simp [List.intercalate_cons_cons]

/-- The outline of a list is the list of the outlines. -/
@[simp]
theorem outline_list (fragments : List Fragment) :
    outline (list fragments) = list (fragments.map outline) :=
  outline_intercalate .comma fragments

/-- Parentheses stay around the outline. -/
@[simp]
theorem outline_enclosed (fragment : Fragment) :
    outline (enclosed fragment) = enclosed (outline fragment) := by
  simp [enclosed]

/-- A fragment without values is its own outline. -/
theorem outline_of_values {fragment : Fragment} (plain : values fragment = []) :
    outline fragment = fragment := by
  induction fragment with
  | nil => rfl
  | cons token rest ih =>
      have count := length_values_cons token rest
      rw [plain, List.length_nil] at count
      have others : values rest = [] := List.length_eq_zero_iff.mp (by omega)
      change token.outline :: outline rest = token :: rest
      rw [ih others]
      cases token with
      | value datum => exact absurd plain (List.cons_ne_nil _ _)
      | _ => rfl

end Fragment

open Fragment

/-- A column is its own outline. -/
@[simp]
theorem Column.outline_tokens (column : Column) : column.tokens.outline = column.tokens :=
  outline_of_values column.values_tokens

/-! ### Conditions -/

/-- A predicate with its values left blank; a list of values keeps its length. -/
def Predicate.outline : Predicate → Predicate
  | .compare column comparison _ => .compare column comparison .blank
  | .notDistinct column _ => .notDistinct column .blank
  | .within column values => .within column (values.map fun _ => .blank)
  | predicate => predicate

/-- A condition with the values of its predicates left blank. -/
def Condition.outline : Condition → Condition
  | .single predicate => .single predicate.outline
  | .anyOf alternatives => .anyOf (alternatives.map Predicate.outline)

/-- A predicate with blank values is written as the outline of what it was. -/
theorem Predicate.tokens_outline (predicate : Predicate) :
    predicate.outline.tokens = predicate.tokens.outline := by
  cases predicate with
  | within column values =>
      cases values with
      | nil => rfl
      | cons value rest => simp [Predicate.outline, Predicate.tokens, Function.comp_def]
  | _ => simp [Predicate.outline, Predicate.tokens]

/-- A group with blank values is written as the outline of what it was. -/
theorem Condition.tokens_outline (condition : Condition) :
    condition.outline.tokens = condition.tokens.outline := by
  cases condition with
  | single predicate => exact predicate.tokens_outline
  | anyOf alternatives =>
      simp only [Condition.outline, Condition.tokens, outline_enclosed, outline_intercalate,
        List.map_map]
      congr 2
      exact List.map_congr_left fun predicate _ => predicate.tokens_outline

/-- The clause of blank conditions is the outline of the clause. -/
theorem outline_whereClause (conditions : List Condition) :
    whereClause (conditions.map Condition.outline) = (whereClause conditions).outline := by
  cases conditions with
  | nil => rfl
  | cons condition others =>
      simp only [whereClause, List.map_cons, outline_word_cons, outline_intercalate, List.map_map,
        Condition.tokens_outline]
      congr 3
      exact List.map_congr_left fun other _ => other.tokens_outline

/-- The condition on the tenant stays in front of the filters. -/
theorem outline_conditions (qualifier : Option Ident) (tenant : Option TenantPredicate)
    (filters : List Condition) :
    conditions qualifier (tenant.map TenantPredicate.outline) (filters.map Condition.outline) =
      (conditions qualifier tenant filters).map Condition.outline := by
  cases tenant <;> rfl

/-! ### Selections -/

/-- A join with the tenant that its target is pinned to left blank. -/
def Join.outline (join : Join) : Join :=
  { join with tenant := join.tenant.map TenantPredicate.outline }

/-- A selection with the tenants of its joins left blank. -/
def Selection.outline (selection : Selection) : Selection :=
  { selection with joins := selection.joins.map Join.outline }

/-- A join of a blank tenant is written as the outline of what it was. -/
theorem Join.clause_outline (source : Ident) (join : Join) :
    join.outline.clause source = (join.clause source).outline := by
  have pinned (predicate : TenantPredicate) :
      (predicate.outline.on (some join.slot)).tokens =
        (predicate.on (some join.slot)).tokens.outline :=
    (predicate.on (some join.slot)).tokens_outline
  cases tenant : join.tenant with
  | none => simp [Join.clause, Join.outline, Join.slot, tenant]
  | some predicate =>
      simp only [Join.clause, Join.outline, tenant, Option.map_some]
      simp only [outline_append, outline_word_cons, outline_name_cons, outline_nil,
        Column.outline_tokens, ← pinned]
      rfl

/-- The outputs of a selection name no tenant. -/
theorem Selection.outputs_outline (selection : Selection) :
    selection.outline.outputs = selection.outputs := by
  simp only [Selection.outputs, Selection.outline, List.map_map]
  rfl

/-- A selection binds values in its joins only. -/
theorem Selection.tokens_outline (selection : Selection) :
    selection.outline.tokens = selection.tokens.outline := by
  have shown : (list selection.outputs).outline = list selection.outputs := by
    apply outline_of_values
    rw [values_list, selection.values_outputs]
  have joined : (selection.outline.clauses.flatMap fun clause => .word .spaceBetween :: clause) =
      Fragment.outline (selection.clauses.flatMap fun clause => .word .spaceBetween :: clause) := by
    simp only [Selection.clauses, Selection.outline, List.flatMap_map, Fragment.outline,
      List.map_flatMap, Join.clause_outline]
    rfl
  unfold Selection.tokens
  rw [joined, selection.outputs_outline]
  simp [shown, Selection.outline]

/-! ### Statements -/

/-- A select with the tenants and the operands of its filters left blank. -/
def Select.outline (select : Select) : Select :=
  { select with
    selection := select.selection.outline
    tenant := select.tenant.map TenantPredicate.outline
    filters := select.filters.map Condition.outline }

/-- An insert with its cells left blank; a cell that is left to its default stays so. -/
def Insert.outline (insert : Insert) : Insert :=
  { insert with rows := insert.rows.map (List.map (Option.map fun _ => .blank)) }

/-- An assignment with its value left blank. -/
def blankAssignment (assignment : Ident × Datum) : Ident × Datum := (assignment.1, .blank)

/-- An update with what it assigns, its tenant and its operands left blank. -/
def Update.outline (update : Update) : Update :=
  { update with
    assignments := update.assignments.map blankAssignment
    tenant := update.tenant.map TenantPredicate.outline
    filters := update.filters.map Condition.outline }

/-- A delete with its tenant and its operands left blank. -/
def Delete.outline (delete : Delete) : Delete :=
  { delete with
    tenant := delete.tenant.map TenantPredicate.outline
    filters := delete.filters.map Condition.outline }

/-- Neither the order nor the page of a select binds a value. -/
theorem Select.tokens_outline (select : Select) :
    select.outline.tokens = select.tokens.outline := by
  have ordered := outline_of_values (values_orderClause select.selection.source select.order)
  have paged := outline_of_values (values_page select.page)
  have conditioned : select.outline.conditions = select.conditions.map Condition.outline :=
    outline_conditions _ _ _
  unfold Select.tokens
  rw [conditioned, outline_whereClause]
  simp only [outline_append, ordered, paged, Select.outline, Selection.tokens_outline]
  rfl

/-- The columns of an insert bind nothing, and its cells are left blank one by one. -/
theorem Insert.tokens_outline (insert : Insert) :
    insert.outline.tokens = insert.tokens.outline := by
  have cells (row : List (Option Datum)) :
      (row.map (Option.map fun _ => Datum.blank)).map cell =
        (row.map cell).map Fragment.outline := by
    rw [List.map_map, List.map_map]
    refine List.map_congr_left fun filled _ => ?_
    cases filled <;> rfl
  have rows : (insert.outline.rows.map fun row => enclosed (list (row.map cell))) =
      (insert.rows.map fun row => enclosed (list (row.map cell))).map Fragment.outline := by
    simp only [Insert.outline, List.map_map, Function.comp_def, cells, outline_enclosed,
      outline_list]
  have names : Fragment.outline (list (insert.columns.map fun name => [.name name])) =
      list (insert.columns.map fun name => [.name name]) := by
    apply outline_of_values
    rw [values_list, values_names]
  unfold Insert.tokens
  rw [rows]
  cases columns : insert.columns with
  | nil => simp [Insert.outline, columns]
  | cons column rest =>
      rw [columns] at names
      simp only [Insert.outline, columns, outline_append, outline_word_cons, outline_name_cons,
        outline_nil, outline_enclosed, outline_list, names]

/-- An update is outlined in what it assigns and in its conditions. -/
theorem Update.tokens_outline (update : Update) :
    update.outline.tokens = update.tokens.outline := by
  have assigned : update.outline.assignments.map assignment =
      (update.assignments.map assignment).map Fragment.outline := by
    simp only [Update.outline, List.map_map]
    rfl
  have conditioned : update.outline.conditions = update.conditions.map Condition.outline :=
    outline_conditions _ _ _
  unfold Update.tokens
  rw [conditioned, outline_whereClause, assigned]
  simp only [outline_append, outline_word_cons, outline_name_cons, outline_nil, outline_list]
  rfl

/-- A delete is outlined in its conditions. -/
theorem Delete.tokens_outline (delete : Delete) :
    delete.outline.tokens = delete.tokens.outline := by
  have conditioned : delete.outline.conditions = delete.conditions.map Condition.outline :=
    outline_conditions _ _ _
  unfold Delete.tokens
  rw [conditioned, outline_whereClause]
  simp only [outline_append, outline_word_cons, outline_name_cons, outline_nil]
  rfl

namespace Statement

/-- A statement with all of its values left blank. -/
def outline : Statement → Statement
  | .select statement => .select statement.outline
  | .insert statement => .insert statement.outline
  | .update statement => .update statement.outline
  | .delete statement => .delete statement.outline

/-- What the store sees of a statement apart from its values: the text, and their number. -/
def written (statement : Statement) : String × Nat := (statement.text, statement.values.length)

/-- A blank statement is written as the outline of what it was. -/
theorem tokens_outline (statement : Statement) :
    statement.outline.tokens = Fragment.outline statement.tokens := by
  cases statement with
  | select statement => exact statement.tokens_outline
  | insert statement => exact statement.tokens_outline
  | update statement => exact statement.tokens_outline
  | delete statement => exact statement.tokens_outline

/-- A statement is written as its outline. -/
theorem written_outline (statement : Statement) :
    statement.outline.written = statement.written := by
  unfold written text values
  rw [tokens_outline, Fragment.text_outline, Fragment.length_values_outline]

end Statement

end Sql

end TableGate

import TableGate.Proofs.Tenant.Isolation

/-!
# Relations as they are written

The alias of a relation names the joined row and the foreign key, and labels the column; the target
only names the table that is joined.  The texts of a join and of a selection are those of its
relations (`Join.text_clause_shared`, `Join.text_clause_owned`, `Selection.text_outputs`).
-/

namespace TableGate

namespace Relation

/-- The name of the joined row: the alias and `_rel`. -/
def slotText (relation : Relation) : String := "\"" ++ relation.name.text ++ "_rel\""

/-- The foreign key: the alias and `_id`. -/
def keyText (relation : Relation) : String := "\"" ++ relation.name.text ++ "_id\""

/-- A column of the joined row. -/
def columnText (relation : Relation) (column : Ident) : String :=
  relation.slotText ++ "." ++ column.quoted

/-- The join of the target, on the equality of its `id` with the foreign key of the source. -/
def joinText (source : Ident) (relation : Relation) : String :=
  "LEFT JOIN " ++ relation.target.quoted ++ " " ++ relation.slotText ++ " ON " ++
    relation.columnText .id ++ " = " ++ source.quoted ++ "." ++ relation.keyText

/-- The joined row as an object. -/
def objectText (relation : Relation) : String :=
  match relation.fields with
  | .all => "row_to_json(" ++ relation.slotText ++ ")"
  | .listed names =>
      "json_build_object(" ++
        ", ".intercalate (names.map fun name =>
          "'" ++ name.text ++ "', " ++ relation.columnText name) ++ ")"

/-- The column that shows the joined row, labelled with the alias. -/
def outputText (relation : Relation) : String :=
  "CASE WHEN " ++ relation.columnText .id ++ " IS NULL THEN NULL ELSE " ++ relation.objectText ++
    " END AS " ++ relation.name.quoted

/-- The slot of a relation is written as its name with an ending. -/
theorem quoted_slot (relation : Relation) : relation.name.slot.quoted = relation.slotText := by
  change "\"" ++ (relation.name.text ++ "_rel") ++ "\"" = _
  simp only [String.append_assoc]
  rfl

/-- The foreign key of a relation is written as its name with an ending. -/
theorem quoted_foreignKey (relation : Relation) :
    relation.name.foreignKey.quoted = relation.keyText := by
  change "\"" ++ (relation.name.text ++ "_id") ++ "\"" = _
  simp only [String.append_assoc]
  rfl

end Relation

/-- The columns of the table itself: all of them where none is asked for by its name, and otherwise
those asked for, after all of them if these are asked for too. -/
def Projection.columnTexts (source : Ident) (projection : Projection) : List String :=
  match projection.columns with
  | [] => [source.quoted ++ ".*"]
  | columns =>
      (if projection.allColumns then [source.quoted ++ ".*"] else []) ++
        columns.map fun name => source.quoted ++ "." ++ name.quoted

namespace Sql

variable {first : Nat}

/-- A label is written between single quotes. -/
theorem Fragment.text_label_cons (name : Ident) (rest : Fragment) :
    Fragment.text first (.label name :: rest) =
      "'" ++ name.text ++ "'" ++ Fragment.text first rest :=
  text_cons (.label name) rest

/-- A column is written the same with any number. -/
theorem Column.text_tokens (column : Column) : Fragment.text first column.tokens = column.text := by
  rw [← List.append_nil column.tokens, Column.text_tokens_append, Fragment.text_nil,
    String.append_empty]

/-- A column of a joined table is qualified by its slot. -/
theorem Join.text_column (join : Join) (column : Ident) :
    (Column.mk (some join.slot) column).text = join.relation.columnText column := by
  rw [Relation.columnText, ← Relation.quoted_slot]
  rfl

/-- A join matches the target's key with the foreign key of its table. -/
theorem Join.text_matched (source : Ident) (join : Join) :
    Fragment.text first (join.matched source) =
      join.relation.columnText .id ++ " = " ++ source.quoted ++ "." ++ join.relation.keyText := by
  have foreign : (Column.mk (some source) join.relation.name.foreignKey).text =
      source.quoted ++ "." ++ join.relation.keyText := by
    rw [← Relation.quoted_foreignKey]
    rfl
  rw [Join.matched, Column.text_tokens_append, Fragment.text_word_cons, Column.text_tokens,
    Join.text_column, foreign]
  simp only [String.append_assoc]
  rfl

/-- A target that all tenants share is joined on the keys alone. -/
theorem Join.text_clause_shared (source : Ident) (relation : Relation) :
    Fragment.text first (Join.clause source ⟨relation, none⟩) = relation.joinText source := by
  have conjuncts : Fragment.texts first (Join.conjuncts source ⟨relation, none⟩) =
      [relation.columnText .id ++ " = " ++ source.quoted ++ "." ++ relation.keyText] := by
    rw [Join.conjuncts, Fragment.texts, Join.text_matched]
    rfl
  unfold Relation.joinText
  rw [Join.text_clause, conjuncts, String.intercalate_singleton]
  simp only [Join.slot, Relation.quoted_slot, String.append_assoc]

/-- A join of a shared table binds nothing. -/
theorem Join.values_clause_shared (source : Ident) (relation : Relation) :
    Fragment.values (Join.clause source ⟨relation, none⟩) = [] :=
  Join.values_clause source ⟨relation, none⟩

/-- A target that belongs to tenants is joined on the tenant besides. -/
theorem Join.text_clause_owned (source : Ident) (relation : Relation)
    (predicate : TenantPredicate) :
    Fragment.text first (Join.clause source ⟨relation, some predicate⟩) =
      relation.joinText source ++ " AND " ++ relation.columnText predicate.column ++ " = " ++
        placeholder first := by
  have conjuncts : Fragment.texts first (Join.conjuncts source ⟨relation, some predicate⟩) =
      [relation.columnText .id ++ " = " ++ source.quoted ++ "." ++ relation.keyText,
        relation.columnText predicate.column ++ " = " ++ placeholder first] := by
    rw [Join.conjuncts, Fragment.texts, Join.text_matched, Join.values_matched, Option.map_some,
      Option.toList_some, Fragment.texts, Isolation.text_on, Join.text_column]
    rfl
  unfold Relation.joinText
  rw [Join.text_clause, conjuncts, String.intercalate_cons_cons, String.intercalate_singleton]
  simp only [Join.slot, Relation.quoted_slot, String.append_assoc]

/-- A join of a tenant's table binds the tenant. -/
theorem Join.values_clause_owned (source : Ident) (relation : Relation)
    (predicate : TenantPredicate) :
    Fragment.values (Join.clause source ⟨relation, some predicate⟩) =
      [.text predicate.tenantId] := by
  rw [Join.values_clause, Join.conjuncts, List.tail_cons, Option.map_some, Option.toList_some,
    List.flatMap_singleton]
  exact Isolation.values_on predicate _

/-- Fragments that bind nothing are written alike wherever they stand. -/
theorem Fragment.texts_of_values {fragments : List Fragment}
    (unbound : fragments.flatMap values = []) :
    texts first fragments = fragments.map (text first) := by
  induction fragments with
  | nil => rfl
  | cons fragment rest ih =>
      obtain ⟨none, others⟩ := List.append_eq_nil_iff.mp unbound
      rw [texts, none, List.length_nil, Nat.add_zero, ih others, List.map_cons]

/-- The object of a relation is the whole row of the target, or its fields by name. -/
theorem Join.text_object (join : Join) :
    Fragment.text first join.object = join.relation.objectText := by
  unfold Join.object Relation.objectText
  cases join.relation.fields with
  | all =>
      have opening : ("row_to_json(" : String) = "row_to_json" ++ "(" := rfl
      simp only [Fragment.text_word_cons, Fragment.text_enclosed, Fragment.text_name_cons,
        Fragment.text_nil, String.append_empty, Join.slot, Relation.quoted_slot, opening,
        String.append_assoc]
      rfl
  | listed names =>
      have opening : ("json_build_object(" : String) = "json_build_object" ++ "(" := rfl
      have field (name : Ident) : Fragment.text first
          ([.label name, .word .comma] ++ (Column.mk (some join.slot) name).tokens) =
            "'" ++ name.text ++ "', " ++ join.relation.columnText name := by
        have comma : ("', " : String) = "'" ++ ", " := rfl
        rw [List.cons_append, Fragment.text_label_cons, List.cons_append, Fragment.text_word_cons,
          List.nil_append, Column.text_tokens, Join.text_column, comma]
        simp only [String.append_assoc]
        rfl
      have unbound : (names.map fun name => ([.label name, .word .comma] ++
          (Column.mk (some join.slot) name).tokens : Fragment)).flatMap Fragment.values = [] := by
        rw [List.flatMap_map, List.flatMap_eq_nil_iff]
        intro name _
        exact Column.values_tokens _
      simp only [Fragment.text_word_cons, Fragment.text_enclosed, Fragment.text_list,
        Fragment.texts_of_values unbound, List.map_map, Function.comp_def, field, opening,
        String.append_assoc]
      rfl

/-- The output of a relation is its object, labelled with its name. -/
theorem Join.text_output (join : Join) :
    Fragment.text first join.output = join.relation.outputText := by
  unfold Join.output Relation.outputText
  simp only [List.cons_append, List.append_assoc, Fragment.text_word_cons, Fragment.text_append,
    Column.text_tokens, Join.text_column, Join.text_object, Fragment.text_name_cons,
    Fragment.text_nil, String.append_empty, String.append_assoc]
  rfl

theorem Selection.text_wholeRow (source : Ident) :
    Fragment.text first (wholeRow source) = source.quoted ++ ".*" := by
  have star : (".*" : String) = "." ++ "*" := rfl
  rw [wholeRow, Fragment.text_name_cons, Fragment.text_word_cons, Fragment.text_word_cons,
    Fragment.text_nil, String.append_empty, star]
  rfl

variable {selection : Selection} {projection : Projection}

/-- The columns of a table are written as the projection asks for them. -/
theorem Selection.text_baseOutputs (all : selection.allColumns = projection.allColumns)
    (columns : selection.columns = projection.columns) :
    selection.baseOutputs.map (Fragment.text first) =
      projection.columnTexts selection.source := by
  have named (names : List Ident) :
      (names.map fun name => (Column.mk (some selection.source) name).tokens).map
          (Fragment.text first) =
        names.map fun name => selection.source.quoted ++ "." ++ name.quoted := by
    rw [List.map_map]
    exact List.map_congr_left fun name _ => Column.text_tokens _
  unfold Selection.baseOutputs Projection.columnTexts
  rw [all, columns]
  cases projection.columns with
  | nil => simp [text_wholeRow]
  | cons name rest =>
      cases projection.allColumns with
      | false => exact named (name :: rest)
      | true =>
          change Fragment.text first (wholeRow selection.source) :: _ = _
          rw [text_wholeRow, named]
          rfl

/-- The columns of a selection are those of the table, then one for each relation. -/
theorem Selection.text_outputs (all : selection.allColumns = projection.allColumns)
    (columns : selection.columns = projection.columns)
    (joins : selection.joins.map Join.relation = projection.relations) :
    selection.outputs.map (Fragment.text first) =
      projection.columnTexts selection.source ++ projection.relations.map Relation.outputText := by
  have related : (selection.joins.map Join.output).map (Fragment.text first) =
      projection.relations.map Relation.outputText := by
    rw [← joins, List.map_map, List.map_map]
    exact List.map_congr_left fun join _ => join.text_output
  rw [Selection.outputs, List.map_append, text_baseOutputs all columns, related]

end Sql

end TableGate

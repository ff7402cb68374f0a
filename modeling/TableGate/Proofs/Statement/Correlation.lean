import TableGate.Proofs.Statement.Naming
import TableGate.Proofs.Tenant.Isolation

/-!
# The tables of a select

The tables that a statement reads and the names that it uses them under are seen in its tokens
(`Fragment.correlations`), and so are the names that its columns are qualified by
(`Fragment.qualifiers`).  A select uses its source under its own name and each join's table under
the join's slot (`Select.correlations_tokens`), and qualifies its columns by these names only
(`Select.qualifiedBy`).
-/

namespace TableGate.Sql

namespace Fragment

/-- The names that a fragment uses tables under, each with its table: a source has its own name, a
join the one that follows its table. -/
def correlations : Fragment → List (Ident × Ident)
  | .word .source :: .name table :: rest => (table, table) :: correlations rest
  | .word .joined :: .name table :: .word .spaceBetween :: .name slot :: rest =>
      (slot, table) :: correlations rest
  | _ :: rest => correlations rest
  | [] => []

/-- The names that a fragment uses tables under. -/
def tableNames (fragment : Fragment) : List Ident := fragment.correlations.map Prod.fst

/-- The names before the dots of a fragment. -/
def qualifiers : Fragment → List Ident
  | .name qualifier :: .word .dot :: rest => qualifier :: qualifiers rest
  | _ :: rest => qualifiers rest
  | [] => []

variable {left right rest : Fragment} {names : Ident → Prop}

/-- A part that names no tables adds none. -/
theorem correlations_append (avoids : left.Avoids [.source, .joined]) (right : Fragment) :
    correlations (left ++ right) = correlations right := by
  induction left with
  | nil => rfl
  | cons token rest ih =>
      have others := ih fun word later => avoids word (List.mem_cons_of_mem _ later)
      cases token with
      | word word =>
          have fresh := avoids word List.mem_cons_self
          cases word <;> first | exact absurd (by decide) fresh | exact others
      | name ident => exact others
      | label ident => exact others
      | numeral number => exact others
      | value datum => exact others

/-- A fragment without the words of a FROM clause names no table expression. -/
theorem correlations_of_avoids (avoids : left.Avoids [.source, .joined]) :
    correlations left = [] := by
  have alone := correlations_append avoids []
  rwa [List.append_nil] at alone

/-- A part that does not begin with a dot. -/
def IsUndotted (fragment : Fragment) : Prop := ∀ rest, fragment ≠ .word .dot :: rest

/-- The qualifiers of two fragments are those of each, where the second does not begin with a
dot. -/
theorem qualifiers_append (undotted : IsUndotted right) (left : Fragment) :
    qualifiers (left ++ right) = qualifiers left ++ qualifiers right := by
  fun_induction qualifiers left with
  | case1 qualifier rest ih => exact congrArg (qualifier :: ·) ih
  | case2 token rest other ih =>
      -- A name at the end of the left part qualifies nothing on the right.
      have apart (qualifier : Ident) (more : Fragment) (same : token = .name qualifier)
          (shape : rest ++ right = .word .dot :: more) : False := by
        cases rest with
        | nil => exact undotted more shape
        | cons head tail => exact other qualifier tail same (by rw [(List.cons.inj shape).1])
      rw [List.cons_append, qualifiers.eq_2 _ _ apart, ih]
  | case3 => rfl

/-- The columns of a fragment are qualified by known names, and it does not begin with a dot. -/
structure QualifiedBy (names : Ident → Prop) (fragment : Fragment) : Prop where
  undotted : IsUndotted fragment
  known : ∀ name ∈ qualifiers fragment, names name

@[simp]
theorem qualifiedBy_nil : QualifiedBy names [] :=
  ⟨nofun, fun _ among => absurd among List.not_mem_nil⟩

/-- A token other than a dot stands for itself, whatever known part follows it. -/
theorem QualifiedBy.cons {token : Token} (solid : token ≠ .word .dot)
    (qualified : QualifiedBy names rest) : QualifiedBy names (token :: rest) := by
  have alone : qualifiers (token :: rest) = qualifiers rest :=
    qualifiers.eq_2 _ _ fun _ more _ shape => qualified.undotted more shape
  exact ⟨fun _ shape => solid (List.cons.inj shape).1, alone ▸ qualified.known⟩

/-- Fragments in a row are qualified by the names that each is qualified by. -/
theorem QualifiedBy.append (front : QualifiedBy names left) (back : QualifiedBy names right) :
    QualifiedBy names (left ++ right) := by
  constructor
  · cases left with
    | nil => exact back.undotted
    | cons token rest =>
        intro more shape
        exact front.undotted rest (by rw [(List.cons.inj shape).1])
  · rw [qualifiers_append back.undotted]
    exact List.forall_mem_append.mpr ⟨front.known, back.known⟩

/-- A word between fragments qualifies nothing, unless it is the dot. -/
theorem QualifiedBy.intercalate {word : Word} (solid : word ≠ .dot) {fragments : List Fragment}
    (each : ∀ fragment ∈ fragments, QualifiedBy names fragment) :
    QualifiedBy names ([.word word].intercalate fragments) := by
  induction fragments with
  | nil => exact qualifiedBy_nil
  | cons fragment rest ih =>
      obtain ⟨first, others⟩ := List.forall_mem_cons.mp each
      cases rest with
      | nil => rwa [List.intercalate_singleton]
      | cons next more =>
          rw [List.intercalate_cons_cons, List.append_assoc]
          exact first.append (.cons (by simpa using solid) (ih others))

/-- Parentheses qualify nothing. -/
theorem QualifiedBy.enclosed (inner : QualifiedBy names rest) :
    QualifiedBy names (enclosed rest) :=
  .cons nofun (inner.append (.cons nofun qualifiedBy_nil))

end Fragment

open Fragment (Avoids QualifiedBy correlations qualifiers)

variable {names : Ident → Prop}

/-! ### Conditions -/

/-- A column is qualified by its table, if it has one. -/
theorem Column.qualifiedBy {column : Column}
    (known : ∀ table, column.table = some table → names table) :
    QualifiedBy names column.tokens := by
  obtain ⟨table, name⟩ := column
  cases table with
  | none => exact .cons nofun Fragment.qualifiedBy_nil
  | some table =>
      refine ⟨nofun, fun found among => ?_⟩
      rw [List.mem_singleton.mp among]
      exact known table rfl

theorem Column.qualifiedBy_of {table : Ident} (known : names table) (name : Ident) :
    QualifiedBy names (Column.mk (some table) name).tokens :=
  Column.qualifiedBy fun _ shape => Option.some.inj shape ▸ known

/-- A predicate is qualified as its column is. -/
theorem Predicate.qualifiedBy {predicate : Predicate}
    (known : ∀ table, predicate.column.table = some table → names table) :
    QualifiedBy names predicate.tokens := by
  have front : QualifiedBy names predicate.column.tokens := Column.qualifiedBy known
  have word (word : Word) (other : word ≠ .dot) : QualifiedBy names [.word word] :=
    .cons (by simpa using other) Fragment.qualifiedBy_nil
  have value (datum : Datum) : QualifiedBy names [.value datum] :=
    .cons nofun Fragment.qualifiedBy_nil
  cases predicate with
  | compare column comparison datum =>
      exact front.append (.cons (by cases comparison <;> nofun) (value datum))
  | isNull => exact front.append (word _ nofun)
  | equalsFlag column flag => exact front.append (word _ (by cases flag <;> nofun))
  | isFlag column flag => exact front.append (word _ (by cases flag <;> nofun))
  | notDistinct column datum => exact front.append (.cons nofun (value datum))
  | within column values =>
      cases values with
      | nil => exact word _ nofun
      | cons datum rest =>
          refine front.append (.cons nofun (.enclosed (.intercalate (by decide) ?_)))
          intro fragment among
          obtain ⟨found, -, rfl⟩ := List.mem_map.mp among
          exact value found

/-- A condition is qualified as its columns are. -/
theorem Condition.qualifiedBy {condition : Condition}
    (known : ∀ column ∈ condition.columns, ∀ table, column.table = some table → names table) :
    QualifiedBy names condition.tokens := by
  cases condition with
  | single predicate => exact Predicate.qualifiedBy (known _ List.mem_cons_self)
  | anyOf alternatives =>
      refine .enclosed (.intercalate (by decide) fun fragment among => ?_)
      obtain ⟨predicate, present, rfl⟩ := List.mem_map.mp among
      exact Predicate.qualifiedBy (known _ (List.mem_map_of_mem present))

/-- The clause of the conditions is qualified as they are. -/
theorem qualifiedBy_whereClause {conditions : List Condition}
    (known : ∀ condition ∈ conditions, ∀ column ∈ condition.columns,
      ∀ table, column.table = some table → names table) :
    QualifiedBy names (whereClause conditions) := by
  cases conditions with
  | nil => exact Fragment.qualifiedBy_nil
  | cons condition rest =>
      refine .cons nofun (.intercalate (by decide) fun fragment among => ?_)
      obtain ⟨found, present, rfl⟩ := List.mem_map.mp among
      exact Condition.qualifiedBy (known found present)

/-- A condition has no word of a FROM clause or of a page. -/
theorem Condition.avoids (condition : Condition) :
    condition.tokens.Avoids [.source, .joined, .limited, .skipping] := by
  cases condition with
  | single predicate => exact predicate.avoids.mono (by decide)
  | anyOf alternatives =>
      refine Fragment.avoids_enclosed (by decide) (by decide) ?_
      refine Fragment.avoids_intercalate (by decide) fun fragment among => ?_
      obtain ⟨predicate, -, rfl⟩ := List.mem_map.mp among
      exact predicate.avoids.mono (by decide)

/-- The clause of the conditions has no word of a FROM clause or of a page. -/
theorem avoids_whereClause (conditions : List Condition) :
    (whereClause conditions).Avoids [.source, .joined, .limited, .skipping] := by
  cases conditions with
  | nil => exact Fragment.avoids_nil
  | cons condition rest =>
      rw [whereClause, Fragment.avoids_word_cons]
      · refine ⟨by decide, Fragment.avoids_intercalate (by decide) fun fragment among => ?_⟩
        obtain ⟨found, -, rfl⟩ := List.mem_map.mp among
        exact found.avoids
      · exact fun empty => List.cons_ne_nil _ _ empty

/-! ### Selections -/

/-- The output of a relation is qualified by its slot. -/
theorem Join.qualifiedBy_output {join : Join} (known : names join.slot) :
    QualifiedBy names join.output := by
  have object : QualifiedBy names join.object := by
    unfold Join.object
    split
    · exact .cons nofun (.enclosed (.cons nofun Fragment.qualifiedBy_nil))
    · refine .cons nofun (.enclosed (.intercalate (by decide) fun fragment among => ?_))
      obtain ⟨name, -, rfl⟩ := List.mem_map.mp among
      exact .cons nofun (.cons nofun (Column.qualifiedBy_of known name))
  have shown : QualifiedBy names (.word .thenNull :: join.object) := .cons nofun object
  have label : QualifiedBy names [.word .endAs, .name join.relation.name] :=
    .cons nofun (.cons nofun Fragment.qualifiedBy_nil)
  have opening : QualifiedBy names (.word .whenNull :: (Column.mk (some join.slot) .id).tokens) :=
    .cons nofun (Column.qualifiedBy_of known .id)
  exact (opening.append shown).append label

/-- A join is qualified by its slot and by the table that it is joined to. -/
theorem Join.qualifiedBy_clause {source : Ident} {join : Join} (known : names join.slot)
    (origin : names source) : QualifiedBy names (join.clause source) := by
  have opening : QualifiedBy names [.word .joined, .name join.relation.target,
      .word .spaceBetween, .name join.slot, .word .matching] :=
    .cons nofun (.cons nofun (.cons nofun (.cons nofun (.cons nofun Fragment.qualifiedBy_nil))))
  rw [Join.clause_eq]
  refine opening.append (.intercalate (by decide) fun fragment among => ?_)
  rcases List.mem_cons.mp among with rfl | pinned
  · exact (Column.qualifiedBy_of known _).append (.cons nofun (Column.qualifiedBy_of origin _))
  · obtain ⟨predicate, -, rfl⟩ := Option.map_eq_some_iff.mp (Option.mem_toList.mp pinned)
    exact Predicate.qualifiedBy fun _ shape => Option.some.inj shape ▸ known

/-- The conditions of a join have no word of a FROM clause or of a page. -/
theorem Join.avoids_conjuncts (source : Ident) (join : Join) :
    Avoids [.source, .joined, .limited, .skipping]
      ([.word .both].intercalate (join.conjuncts source)) := by
  refine Fragment.avoids_intercalate (by decide) fun fragment among => ?_
  rcases List.mem_cons.mp among with rfl | pinned
  · rw [Join.matched, Fragment.avoids_append, Fragment.avoids_word_cons]
    exact ⟨Column.avoids (by decide) _, by decide, Column.avoids (by decide) _⟩
  · obtain ⟨predicate, -, rfl⟩ := Option.map_eq_some_iff.mp (Option.mem_toList.mp pinned)
    exact (Predicate.avoids _).mono (by decide)

/-- A join uses its table under its slot, and no other table. -/
theorem Join.correlations_clause (source : Ident) (join : Join) (rest : Fragment) :
    correlations (join.clause source ++ rest) =
      (join.slot, join.relation.target) :: correlations rest := by
  have condition : Avoids [.source, .joined] ([.word .both].intercalate (join.conjuncts source)) :=
    (join.avoids_conjuncts source).mono (by decide)
  rw [Join.clause_eq, List.append_assoc]
  exact congrArg ((join.slot, join.relation.target) :: ·)
    (Fragment.correlations_append condition rest)

namespace Selection

variable {selection : Selection}

/-- Each join names its target under its slot. -/
theorem correlations_clauses (source : Ident) (joins : List Join) (rest : Fragment) :
    correlations ((joins.map (Join.clause source)).flatMap
        (fun clause => .word .spaceBetween :: clause) ++ rest) =
      joins.map (fun join => (join.slot, join.relation.target)) ++ correlations rest := by
  induction joins with
  | nil => rfl
  | cons join others ih =>
      rw [List.map_cons, List.flatMap_cons, List.append_assoc, List.map_cons, List.cons_append,
        List.cons_append, ← ih]
      exact Join.correlations_clause source join _

/-- A selection uses its source under its own name and the tables of its joins under their slots. -/
theorem correlations_tokens (selection : Selection) (rest : Fragment) :
    correlations (selection.tokens ++ rest) = (selection.source, selection.source) ::
      (selection.joins.map fun join => (join.slot, join.relation.target)) ++
        correlations rest := by
  have outputs : Avoids [.source, .joined] (.word .select :: Fragment.list selection.outputs) := by
    rw [Fragment.avoids_word_cons]
    exact ⟨by decide, (Isolation.avoids_outputs selection).mono (by decide)⟩
  rw [tokens, List.append_assoc, List.append_assoc, Fragment.correlations_append outputs]
  exact congrArg ((selection.source, selection.source) :: ·)
    (correlations_clauses selection.source selection.joins rest)

/-- The outputs are qualified by the table and by the slots of the joins. -/
theorem qualifiedBy_outputs (origin : names selection.source)
    (slots : ∀ join ∈ selection.joins, names join.slot) :
    ∀ fragment ∈ selection.outputs, QualifiedBy names fragment := by
  have named (fragment : Fragment) (among : fragment ∈ selection.columns.map fun name =>
      (Column.mk (some selection.source) name).tokens) : QualifiedBy names fragment := by
    obtain ⟨name, -, rfl⟩ := List.mem_map.mp among
    exact Column.qualifiedBy_of origin name
  intro fragment among
  rcases List.mem_append.mp among with base | joined
  · unfold baseOutputs at base
    split at base
    · rcases List.mem_cons.mp base with rfl | among
      · refine ⟨nofun, fun name among => ?_⟩
        rw [List.mem_singleton.mp among]
        exact origin
      · exact named fragment among
    · exact named fragment base
  · obtain ⟨join, present, rfl⟩ := List.mem_map.mp joined
    exact Join.qualifiedBy_output (slots join present)

/-- A selection is qualified by its table and by the slots of its joins. -/
theorem qualifiedBy_tokens (origin : names selection.source)
    (slots : ∀ join ∈ selection.joins, names join.slot) :
    QualifiedBy names selection.tokens := by
  have shown : QualifiedBy names (.word .select :: Fragment.list selection.outputs) :=
    .cons nofun (.intercalate (by decide) (qualifiedBy_outputs origin slots))
  have source : QualifiedBy names [.word .source, .name selection.source] :=
    .cons nofun (.cons nofun Fragment.qualifiedBy_nil)
  have clauses (joins : List Join) (known : ∀ join ∈ joins, names join.slot) :
      QualifiedBy names ((joins.map (Join.clause selection.source)).flatMap
        fun clause => .word .spaceBetween :: clause) := by
    induction joins with
    | nil => exact Fragment.qualifiedBy_nil
    | cons join others ih =>
        obtain ⟨first, later⟩ := List.forall_mem_cons.mp known
        rw [List.map_cons, List.flatMap_cons]
        refine Fragment.QualifiedBy.append ?_ (ih later)
        exact .cons nofun (Join.qualifiedBy_clause first origin)
  exact (shown.append source).append (clauses selection.joins slots)

end Selection

/-! ### Selects -/

namespace Select

variable {select : Select}

/-- A select is its selection, its conditions and what comes after them. -/
theorem tokens_eq (select : Select) :
    select.tokens =
      select.selection.tokens ++ (whereClause select.conditions ++ select.ending) := by
  rw [tokens, ending, List.append_assoc, List.append_assoc]

/-- A select uses no other tables than its selection does. -/
theorem correlations_tokens (select : Select) :
    select.tokens.correlations = (select.selection.source, select.selection.source) ::
      select.selection.joins.map fun join => (join.slot, join.relation.target) := by
  have rest : Avoids [.source, .joined] (whereClause select.conditions ++ select.ending) := by
    rw [Fragment.avoids_append]
    exact ⟨(avoids_whereClause _).mono (by decide),
      (Isolation.avoids_ending select).mono (by decide)⟩
  rw [tokens_eq, Selection.correlations_tokens, Fragment.correlations_of_avoids rest,
    List.append_nil]

/-- What comes after the conditions is qualified by the table. -/
theorem qualifiedBy_ending (origin : names select.selection.source) :
    QualifiedBy names select.ending := by
  refine Fragment.QualifiedBy.append ?_ ?_
  · unfold orderClause
    split
    · exact Fragment.qualifiedBy_nil
    · refine .cons nofun (.intercalate (by decide) fun fragment among => ?_)
      obtain ⟨term, -, rfl⟩ := List.mem_map.mp among
      refine (Column.qualifiedBy_of origin _).append (.cons ?_ Fragment.qualifiedBy_nil)
      split <;> nofun
  · cases select.page with
    | none => exact Fragment.qualifiedBy_nil
    | some page =>
        refine Fragment.QualifiedBy.append (.cons nofun (.cons nofun Fragment.qualifiedBy_nil)) ?_
        split
        · exact Fragment.qualifiedBy_nil
        · exact .cons nofun (.cons nofun Fragment.qualifiedBy_nil)

/-- A select qualifies its columns by the name of its source and by the slots of its joins, if its
conditions do. -/
theorem qualifiedBy_tokens (origin : names select.selection.source)
    (slots : ∀ join ∈ select.selection.joins, names join.slot)
    (conditions : ∀ condition ∈ select.conditions, ∀ column ∈ condition.columns,
      ∀ table, column.table = some table → names table) :
    QualifiedBy names select.tokens := by
  rw [tokens_eq]
  exact (Selection.qualifiedBy_tokens origin slots).append
    ((qualifiedBy_whereClause conditions).append (qualifiedBy_ending origin))

/-- Each join compares a column that is qualified by its slot. -/
theorem slot_mem_qualifiers {join : Join} (among : join ∈ select.selection.joins) :
    join.slot ∈ select.tokens.qualifiers := by
  let clauses (joins : List Join) : Fragment :=
    (joins.map (Join.clause select.selection.source)).flatMap fun clause =>
      .word .spaceBetween :: clause
  obtain ⟨front, back, split⟩ := List.append_of_mem among
  have placed : select.tokens = (.word .select :: Fragment.list select.selection.outputs ++
      [.word .source, .name select.selection.source] ++ clauses front) ++
        .word .spaceBetween :: (join.clause select.selection.source ++
          (clauses back ++ (whereClause select.conditions ++ select.ending))) := by
    rw [tokens_eq, Selection.tokens, Selection.clauses, split]
    simp only [clauses, List.map_append, List.map_cons, List.flatMap_append, List.flatMap_cons,
      List.append_assoc, List.cons_append]
  rw [placed, Fragment.qualifiers_append fun _ shape => by cases shape]
  exact List.mem_append_right _ List.mem_cons_self

end Select

end TableGate.Sql

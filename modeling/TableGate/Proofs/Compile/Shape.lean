import TableGate.Proofs.Compile.Outcome
import TableGate.Proofs.Compile.Congruence
import TableGate.Proofs.Statement.Outline

/-!
# Shapes of calls

The shape of a call is what is left of it without the text of its operands, the values of its bodies
and its keys.  Calls of one shape, on behalf of tenants or not, are refused alike or compile to
statements of one outline, so their texts are the same (`Call.written_eq_of_shape`): values never
reach the text of a statement.
-/

namespace TableGate

open Sql (Condition Predicate Statement)

/-! ### Filters -/

/-- What an operand decides of the text of a statement. -/
inductive OperandShape
  | literal (found : Option Literal)
  | items (count : Nat)
  | value
deriving DecidableEq, Repr

/-- What an operator leaves of its operand: a literal, the length of a list, or a value. -/
def Operator.shape (operand : String) : Operator → OperandShape
  | .eq | .is => .literal (Literal.ofOperand? operand)
  | .oneOf => .items (Filter.listItems operand).length
  | _ => .value

namespace Filter

/-- The column, the operator and the shape of the operand of a filter. -/
def shape (filter : Filter) : Ident × Operator × OperandShape :=
  (filter.column, filter.operator, filter.operator.shape filter.operand)

/-- Filters of one shape are conditions of one outline. -/
theorem outline_predicate {left right : Filter} (shapes : left.shape = right.shape)
    (qualifier : Option Ident) :
    (left.predicate qualifier).outline = (right.predicate qualifier).outline := by
  obtain ⟨column, operator, operand⟩ := left
  obtain ⟨name, kind, other⟩ := right
  obtain ⟨rfl, rest⟩ := Prod.mk.inj shapes
  obtain ⟨rfl, operands⟩ := Prod.mk.inj rest
  cases operator with
  | eq =>
      have literals : Literal.ofOperand? operand = Literal.ofOperand? other :=
        OperandShape.literal.inj operands
      simp only [predicate, literals]
      cases Literal.ofOperand? other with
      | none => rfl
      | some literal => cases literal <;> rfl
  | is =>
      have literals : Literal.ofOperand? operand = Literal.ofOperand? other :=
        OperandShape.literal.inj operands
      simp only [predicate, literals]
      cases Literal.ofOperand? other with
      | none => rfl
      | some literal => cases literal <;> rfl
  | oneOf =>
      have counts : (listItems operand).length = (listItems other).length :=
        OperandShape.items.inj operands
      have items : (listItems operand).map (fun _ => Datum.blank) =
          (listItems other).map fun _ => Datum.blank := by
        rw [List.map_const', List.map_const', counts]
      simp only [predicate, Predicate.outline, List.map_map]
      exact congrArg (Predicate.within _) items
  | _ => rfl

end Filter

/-- What the value of a filter decides: its operator, if it names one, and what follows from the
operand. -/
def filterShape (value : String) : Option (List Char × Option OperandShape) :=
  (Text.cutAt '.' value.toList).map fun (operator, operand) =>
    (operator, (Operator.parse? (String.ofList operator)).map
      (Operator.shape (String.ofList operand)))

/-- What an alternative decides, if it has three parts: its column, its operator, and what follows
from the operand. -/
def alternativeShape? (piece : List Char) :
    Option (List Char × List Char × Option OperandShape) :=
  (Filter.cutAlternative? piece).map fun (column, operator, operand) =>
    (Text.trim column, operator,
      ((Operator.parse? (String.ofList operator)).filter Operator.allowedInGroup).map
        (Operator.shape (String.ofList operand)))

/-- What a parameter decides apart from its name. -/
inductive ParameterShape
  | reserved
  | filter (written : Option (List Char × Option OperandShape))
  | group (alternatives : List (List Char × List Char × Option OperandShape))
deriving DecidableEq, Repr

/-- What is left of a parameter when the values in it are taken away. -/
def parameterShape (parameter : String × String) : String × ParameterShape :=
  (parameter.1,
    if parameter.1 = "or" then
      .group ((Compile.groupPieces parameter.2).filterMap alternativeShape?)
    else if Query.isReserved parameter.1 then .reserved
    else .filter (filterShape parameter.2))

/-- What a query decides: the shapes of its parameters, and the values of order and page. -/
structure QueryShape where
  parameters : List (String × ParameterShape)
  order : Option String
  limit : Option String
  offset : Option String
deriving DecidableEq, Repr

/-- The shapes of the parameters in their order, and what is asked of the order and the page. -/
def Query.shape (query : Query) : QueryShape :=
  ⟨query.pairs.map parameterShape, query.get? "order", query.get? "limit", query.get? "offset"⟩

/-- What a field decides: its name, and whether it is left out. -/
def fieldShape (dropNulls : Bool) (field : String × Json) : String × Bool :=
  (field.1, dropNulls && field.2.isNull)

namespace Compile

variable {column : Ident} {qualifier : Option Ident}

/-- Whether an operator has been read or not, filters with it have one shape if their operands
have. -/
theorem map_shape_congr {operator : Option Operator} {left right : String}
    (shapes : operator.map (Operator.shape left) = operator.map (Operator.shape right)) :
    (operator.map fun operator => (⟨column, operator, left⟩ : Filter)).map Filter.shape =
      (operator.map fun operator => (⟨column, operator, right⟩ : Filter)).map Filter.shape := by
  cases operator with
  | none => rfl
  | some operator =>
      have operands : operator.shape left = operator.shape right := Option.some.inj shapes
      change some (column, operator, operator.shape left) = some (column, operator, _)
      rw [operands]

/-- Parameters of one name and one shape are read into filters of one shape, or are refused
alike. -/
theorem ofParameter_congr {name left right : String}
    (shapes : filterShape left = filterShape right) :
    (Filter.ofParameter name left).map (Option.map Filter.shape) =
      (Filter.ofParameter name right).map (Option.map Filter.shape) := by
  unfold Filter.ofParameter
  apply bind_congr_of_map (rfl : (Ident.read name).map id = (Ident.read name).map id)
  rintro column other (rfl : column = other)
  unfold filterShape at shapes
  cases cut : Text.cutAt '.' left.toList with
  | none =>
      rw [cut] at shapes
      rw [Option.map_eq_none_iff.mp shapes.symm]
  | some parts =>
      rw [cut] at shapes
      obtain ⟨others, same, split⟩ := Option.map_eq_some_iff.mp shapes.symm
      rw [same]
      obtain ⟨operators, operands⟩ := Prod.mk.inj split
      rw [operators] at operands
      simp only [operators]
      exact congrArg Except.ok (map_shape_congr operands.symm)

/-- Alternatives of one shape are read into filters of one shape, or are refused alike. -/
theorem ofAlternative_congr {left right : List Char}
    (shapes : alternativeShape? left = alternativeShape? right) :
    (Filter.ofAlternative left).map (Option.map Filter.shape) =
      (Filter.ofAlternative right).map (Option.map Filter.shape) := by
  unfold Filter.ofAlternative
  unfold alternativeShape? at shapes
  cases cut : Filter.cutAlternative? left with
  | none =>
      rw [cut] at shapes
      rw [Option.map_eq_none_iff.mp shapes.symm]
  | some parts =>
      rw [cut] at shapes
      obtain ⟨others, same, split⟩ := Option.map_eq_some_iff.mp shapes.symm
      rw [same]
      obtain ⟨columns, rest⟩ := Prod.mk.inj split
      obtain ⟨operators, operands⟩ := Prod.mk.inj rest
      rw [operators] at operands
      simp only [columns, operators]
      apply bind_congr_of_map (rfl : (Ident.read _).map id = (Ident.read _).map id)
      rintro column other (rfl : column = other)
      exact congrArg Except.ok (map_shape_congr operands.symm)

/-- Filters of one shape give the same view of whatever is made of them. -/
theorem map_filter_congr {δ : Type} {make : Filter → δ}
    (made : ∀ first second : Filter, first.shape = second.shape → make first = make second)
    {left right : Option Filter} (shapes : left.map Filter.shape = right.map Filter.shape) :
    left.map make = right.map make := by
  cases left with
  | none => rw [Option.map_eq_none_iff.mp shapes.symm]
  | some filter =>
      obtain ⟨other, rfl, same⟩ := Option.map_eq_some_iff.mp shapes.symm
      exact congrArg some (made filter other same.symm)

/-- Groups whose alternatives have the same shapes are groups of one outline, whatever pieces are
left out of each. -/
theorem group_congr {left right : String}
    (shapes : (groupPieces left).filterMap alternativeShape? =
      (groupPieces right).filterMap alternativeShape?) :
    (group qualifier left).toExcept.map (Option.map Condition.outline) =
      (group qualifier right).toExcept.map (Option.map Condition.outline) := by
  let alternative (piece : List Char) : Outcome (Option Predicate) :=
    (Outcome.ofCheck (Filter.ofAlternative piece)).map fun filter =>
      filter.map (Filter.predicate qualifier)
  have skipped (piece : List Char) (malformed : alternativeShape? piece = none) :
      alternative piece = .ok none := by
    have missing : Filter.cutAlternative? piece = none := Option.map_eq_none_iff.mp malformed
    simp only [alternative, Filter.ofAlternative, missing]
    rfl
  have steps (first second : List Char)
      (same : alternativeShape? first = alternativeShape? second) :
      (alternative first).toExcept.map (Option.map Predicate.outline) =
        (alternative second).toExcept.map (Option.map Predicate.outline) := by
    simp only [alternative, Outcome.toExcept_map, Outcome.toExcept_ofCheck]
    apply map_congr_of_map (ofAlternative_congr same)
    intro filter other alike
    rw [Option.map_map, Option.map_map]
    exact map_filter_congr (fun _ _ same => Filter.outline_predicate same qualifier) alike
  have alternatives := acceptAll_congr_of_filterMap
    (fun predicate => predicate.tokens.values) shapes skipped steps
  unfold group
  rw [Outcome.toExcept_map, Outcome.toExcept_map]
  apply map_congr_of_map alternatives
  intro predicates others same
  have lengths : predicates.isEmpty = others.isEmpty := by
    rw [← @List.isEmpty_map _ _ _ Predicate.outline, same, List.isEmpty_map]
  rw [lengths]
  cases others.isEmpty with
  | true => rfl
  | false => exact congrArg (fun outlined => some (Condition.anyOf outlined)) same

/-- Parameters of one shape give a read conditions of one outline, or are refused alike. -/
theorem readFilter_congr {left right : String × String}
    (shapes : parameterShape left = parameterShape right) :
    (readFilter qualifier left).toExcept.map (Option.map Condition.outline) =
      (readFilter qualifier right).toExcept.map (Option.map Condition.outline) := by
  obtain ⟨name, value⟩ := left
  obtain ⟨other, written⟩ := right
  obtain ⟨rfl, shape⟩ := Prod.mk.inj shapes
  by_cases alternatives : name = "or"
  · simp only [alternatives, ↓reduceIte, ParameterShape.group.injEq] at shape
    simp only [readFilter, alternatives, ↓reduceIte]
    exact group_congr shape
  · by_cases reserved : Query.isReserved name = true
    · simp only [readFilter, alternatives, reserved, ↓reduceIte]
    · simp only [alternatives, reserved, Bool.false_eq_true, ↓reduceIte,
        ParameterShape.filter.injEq] at shape
      simp only [readFilter, alternatives, reserved, Bool.false_eq_true, ↓reduceIte,
        Outcome.toExcept_map, Outcome.toExcept_ofCheck]
      apply map_congr_of_map (ofParameter_congr shape)
      intro filter found alike
      rw [Option.map_map, Option.map_map]
      refine map_filter_congr (fun first second same => ?_) alike
      exact congrArg Condition.single (Filter.outline_predicate same qualifier)

/-- Parameters of one shape give a write conditions of one outline, or are refused alike. -/
theorem writeFilter_congr {left right : String × String}
    (shapes : parameterShape left = parameterShape right) :
    (writeFilter qualifier left).toExcept.map (Option.map Condition.outline) =
      (writeFilter qualifier right).toExcept.map (Option.map Condition.outline) := by
  obtain ⟨name, value⟩ := left
  obtain ⟨other, written⟩ := right
  obtain ⟨rfl, shape⟩ := Prod.mk.inj shapes
  by_cases reserved : Query.isReserved name = true
  · simp only [writeFilter, reserved, ↓reduceIte]
  · have alternatives : name ≠ "or" := by
      rintro rfl
      exact reserved (by decide)
    simp only [alternatives, reserved, Bool.false_eq_true, ↓reduceIte,
      ParameterShape.filter.injEq] at shape
    simp only [writeFilter, reserved, Bool.false_eq_true, ↓reduceIte, Outcome.toExcept_map,
      Outcome.toExcept_ofCheck]
    apply map_congr_of_map (ofParameter_congr shape)
    intro filter found alike
    cases filter with
    | none => rw [Option.map_eq_none_iff.mp alike.symm]
    | some filter =>
        obtain ⟨found, rfl, same⟩ := Option.map_eq_some_iff.mp alike.symm
        have operators : found.operator = filter.operator :=
          congrArg (fun shape => shape.2.1) same
        simp only [Option.filter, operators]
        split
        · exact congrArg (fun outlined => some (Condition.single outlined))
            (Filter.outline_predicate same.symm qualifier)
        · rfl

/-- Parameters of the same shapes give a read conditions of the same outlines. -/
theorem filters_congr {left right : List (String × String)}
    (shapes : left.map parameterShape = right.map parameterShape) :
    (filters qualifier left).toExcept.map (List.map Condition.outline) =
      (filters qualifier right).toExcept.map (List.map Condition.outline) :=
  acceptAll_congr_of_map Condition.values shapes fun _ _ => readFilter_congr

/-- Parameters of the same shapes give a write conditions of the same outlines. -/
theorem equalityFilters_congr {left right : List (String × String)}
    (shapes : left.map parameterShape = right.map parameterShape) :
    (equalityFilters qualifier left).toExcept.map (List.map Condition.outline) =
      (equalityFilters qualifier right).toExcept.map (List.map Condition.outline) :=
  acceptAll_congr_of_map Condition.values shapes fun _ _ => writeFilter_congr

/-! ### Tenants and selections -/

section

variable {catalog : Catalog} {first second : TenantContext} {table : Table}

/-- A table asks for a tenant alike whichever tenant there is. -/
theorem enforce_congr (tenants : first.active?.isSome = second.active?.isSome) :
    (Scope.enforce ⟨catalog, first⟩ table).map (Option.map TenantPredicate.outline) =
      (Scope.enforce ⟨catalog, second⟩ table).map (Option.map TenantPredicate.outline) := by
  unfold Scope.enforce
  by_cases owned : table.tenantScoped = true
  · simp only [owned, ↓reduceIte]
    cases left : first.active? with
    | none =>
        rw [left] at tenants
        rw [Option.isNone_iff_eq_none.mp (Option.isSome_eq_false_iff.mp tenants.symm)]
    | some tenant =>
        rw [left] at tenants
        obtain ⟨other, right⟩ := Option.isSome_iff_exists.mp tenants.symm
        rw [right]
        rfl
  · simp only [owned, Bool.false_eq_true, ↓reduceIte]

/-- A relation is joined alike whichever tenant there is. -/
theorem join_congr (tenants : first.active?.isSome = second.active?.isSome) (relation : Relation) :
    (join ⟨catalog, first⟩ relation).map Sql.Join.outline =
      (join ⟨catalog, second⟩ relation).map Sql.Join.outline := by
  have targets : (Scope.table ⟨catalog, first⟩ relation.target.text).map id =
      (Scope.table ⟨catalog, second⟩ relation.target.text).map id := rfl
  unfold join
  apply bind_congr_of_map targets
  rintro target other (rfl : target = other)
  apply bind_congr_of_map (enforce_congr tenants)
  intro left right same
  exact congrArg
    (fun tenant => Except.ok (Sql.Join.mk { relation with target := target.name } tenant)) same

/-- The relations of a projection are joined alike whichever tenant there is. -/
theorem selection_congr (tenants : first.active?.isSome = second.active?.isSome)
    (projection : Projection) :
    (selection ⟨catalog, first⟩ table projection).toExcept.map Sql.Selection.outline =
      (selection ⟨catalog, second⟩ table projection).toExcept.map Sql.Selection.outline := by
  let accept (tenant : TenantContext) (relation : Relation) : Outcome (Option Sql.Join) :=
    (Outcome.ofCheck (join ⟨catalog, tenant⟩ relation)).map some
  have steps (relation other : Relation) (same : id relation = id other) :
      (accept first relation).toExcept.map (Option.map Sql.Join.outline) =
        (accept second other).toExcept.map (Option.map Sql.Join.outline) := by
    obtain rfl : relation = other := same
    simp only [accept, Outcome.toExcept_map, Outcome.toExcept_ofCheck]
    apply map_congr_of_map (join_congr tenants relation)
    intro left right alike
    exact congrArg some alike
  have joins := acceptAll_congr_of_map joinValues
    (rfl : projection.relations.map id = projection.relations.map id) steps
  unfold selection
  rw [Outcome.toExcept_map, Outcome.toExcept_map]
  apply map_congr_of_map joins
  intro left right same
  exact congrArg (Sql.Selection.mk table.name projection.allColumns projection.columns) same

/-! ### Reads -/

/-- The order depends on its own parameter only. -/
theorem order_congr {left right : Query} (same : left.get? "order" = right.get? "order") :
    order left = order right := by
  unfold order Query.order? Query.visible?
  rw [same]

/-- The page depends on its own parameters only. -/
theorem page_congr {left right : Query} (limits : left.get? "limit" = right.get? "limit")
    (offsets : left.get? "offset" = right.get? "offset") (maxLimit : Nat) :
    page maxLimit left = page maxLimit right := by
  unfold page Query.limit? Query.offset? Query.number?
  rw [limits, offsets]

/-- Queries of one shape give selects of one outline. -/
theorem select_congr {left right : Query} (queries : left.shape = right.shape)
    (tenants : first.active?.isSome = second.active?.isSome) (projection : Projection) :
    (select ⟨catalog, first⟩ table projection left).map Sql.Select.outline =
      (select ⟨catalog, second⟩ table projection right).map Sql.Select.outline := by
  obtain ⟨parameters, orders, limits, offsets⟩ := QueryShape.mk.inj queries
  have ordered : (order left).map id = (order right).map id := by rw [order_congr orders]
  unfold select
  apply bind_congr_of_map (enforce_congr tenants)
  intro tenant predicate pinned
  apply bind_congr_of_map (selection_congr tenants projection)
  intro chosen selection resolved
  apply bind_congr_of_map (filters_congr parameters)
  intro conditions filters filtered
  apply bind_congr_of_map ordered
  rintro terms order (rfl : terms = order)
  change Except.ok (Sql.Select.mk chosen.outline (tenant.map _) (conditions.map _) _ _) =
    Except.ok (Sql.Select.mk selection.outline (predicate.map _) (filters.map _) _ _)
  rw [resolved, pinned, filtered, page_congr limits offsets]

/-- As many keys give selects of one outline. -/
theorem selectByKeys_congr {left right : List Datum} (counts : left.length = right.length)
    (tenants : first.active?.isSome = second.active?.isSome) (projection : Projection) :
    (selectByKeys ⟨catalog, first⟩ table projection left).map Sql.Select.outline =
      (selectByKeys ⟨catalog, second⟩ table projection right).map Sql.Select.outline := by
  have keys : (left.map fun _ => Datum.blank) = right.map fun _ => Datum.blank := by
    rw [List.map_const', List.map_const', counts]
  unfold selectByKeys
  apply bind_congr_of_map (enforce_congr tenants)
  intro tenant predicate pinned
  apply bind_congr_of_map (selection_congr tenants projection)
  intro chosen selection resolved
  change Except.ok (Sql.Select.mk chosen.outline (tenant.map _)
      [.single (.within _ (left.map fun _ => Datum.blank))] [] none) =
    Except.ok (Sql.Select.mk selection.outline (predicate.map _)
      [.single (.within _ (right.map fun _ => Datum.blank))] [] none)
  rw [resolved, pinned, keys]

/-! ### Writes -/

variable {tenant predicate : Option TenantPredicate}

/-- What a field decides once its column has been read. -/
def columnShape (dropNulls : Bool) (field : Ident × Json) : Ident × Bool :=
  (field.1, dropNulls && field.2.isNull)

/-- Which columns are assigned follows from the shapes of the fields. -/
theorem map_blankAssignment_kept (tenant : Option TenantPredicate) (dropNulls : Bool)
    (fields : List (Ident × Json)) :
    ((fields.filter fun (name, value) =>
        !(dropNulls && value.isNull) && tenant.map TenantPredicate.column != some name).map
      fun (name, value) => (name, fieldValue name.text value)).map Sql.blankAssignment =
    ((fields.map (columnShape dropNulls)).filter fun (name, null) =>
        !null && tenant.map TenantPredicate.column != some name).map
      fun (name, _) => (name, Datum.blank) := by
  rw [List.filter_map, List.map_map, List.map_map]
  rfl

/-- Fields of the same names are assigned alike if the same ones are left out. -/
theorem assignments_congr {dropNulls : Bool} {left right : Record}
    (pinned : tenant.map TenantPredicate.outline = predicate.map TenantPredicate.outline)
    (fields : left.fields.map (fieldShape dropNulls) = right.fields.map (fieldShape dropNulls)) :
    (assignments tenant dropNulls left).map (List.map Sql.blankAssignment) =
      (assignments predicate dropNulls right).map (List.map Sql.blankAssignment) := by
  have barred : tenant.map TenantPredicate.column = predicate.map TenantPredicate.column := by
    have outlined (pinned : Option TenantPredicate) : pinned.map TenantPredicate.column =
        (pinned.map TenantPredicate.outline).map TenantPredicate.column := by
      cases pinned <;> rfl
    rw [outlined, pinned, ← outlined]
  let read (field : String × Json) : Except Error (Ident × Json) := do
    return (← Ident.read field.1, field.2)
  have named : (left.fields.mapM read).map (List.map (columnShape dropNulls)) =
      (right.fields.mapM read).map (List.map (columnShape dropNulls)) := by
    apply mapM_congr_of_map fields
    intro first second same
    obtain ⟨names, nulls⟩ := Prod.mk.inj same
    simp only [read, names]
    apply bind_congr_of_map (rfl : (Ident.read second.1).map id = (Ident.read second.1).map id)
    rintro name other (rfl : name = other)
    exact congrArg (fun null => Except.ok (name, null)) nulls
  unfold assignments
  apply bind_congr_of_map named
  intro kept found same
  refine congrArg Except.ok ?_
  rw [map_blankAssignment_kept, map_blankAssignment_kept, same, barred]

/-- Records with the same fields, null or not, give rows with the same columns. -/
theorem rowAssignments_congr {left right : Record}
    (pinned : tenant.map TenantPredicate.outline = predicate.map TenantPredicate.outline)
    (fields : left.fields.map (fieldShape true) = right.fields.map (fieldShape true)) :
    (rowAssignments tenant left).map (List.map Sql.blankAssignment) =
      (rowAssignments predicate right).map (List.map Sql.blankAssignment) := by
  have ends (tenant : Option TenantPredicate) :
      (tenant.map fun predicate => (predicate.column, predicate.value)).toList.map
          Sql.blankAssignment =
        ((tenant.map TenantPredicate.outline).map fun predicate =>
          (predicate.column, predicate.value)).toList := by
    cases tenant <;> rfl
  unfold rowAssignments
  apply bind_congr_of_map (assignments_congr pinned fields)
  intro assigned others same
  refine congrArg Except.ok ?_
  rw [List.map_append, List.map_append, same, ends, ends, pinned]

/-- A blank row has a blank value where the row has a value. -/
theorem lookup_blankAssignment (column : Ident) (row : List (Ident × Datum)) :
    (row.map Sql.blankAssignment).lookup column =
      (row.lookup column).map fun _ => Datum.blank := by
  induction row with
  | nil => rfl
  | cons entry rest ih =>
      obtain ⟨name, value⟩ := entry
      by_cases same : column = name
      · subst same
        rw [List.map_cons, Sql.blankAssignment, List.lookup_cons_self, List.lookup_cons_self]
        rfl
      · have apart : (column == name) = false := beq_eq_false_iff_ne.mpr same
        simp only [List.map_cons, List.lookup_cons, Sql.blankAssignment, apart]
        exact ih

/-- Records with the same fields, null or not, give inserts of one outline. -/
theorem insert_congr {left right : List Record}
    (records : (left.map fun record => record.fields.map (fieldShape true)) =
      right.map fun record => record.fields.map (fieldShape true))
    (tenants : first.active?.isSome = second.active?.isSome) :
    (insert ⟨catalog, first⟩ table left).map Sql.Insert.outline =
      (insert ⟨catalog, second⟩ table right).map Sql.Insert.outline := by
  have counts : left.isEmpty = right.isEmpty := by
    have lengths := congrArg List.isEmpty records
    rwa [List.isEmpty_map, List.isEmpty_map] at lengths
  unfold insert
  apply bind_congr_of_map (enforce_congr tenants)
  intro tenant predicate pinned
  apply guard_congr_of_map (by rw [counts])
  apply bind_congr_of_map
    (mapM_congr_of_map records fun _ _ same => rowAssignments_congr pinned same)
  intro rows others same
  have columns : (rows.flatMap fun row => row.map (·.1)) =
      others.flatMap fun row => row.map (·.1) := by
    have blanked (rows : List (List (Ident × Datum))) : (rows.flatMap fun row => row.map (·.1)) =
        (rows.map (List.map Sql.blankAssignment)).flatMap fun row => row.map (·.1) := by
      rw [List.flatMap_map]
      simp only [List.map_map]
      rfl
    rw [blanked, same, ← blanked]
  have lengths : rows.length = others.length := by
    have equal := congrArg List.length same
    rwa [List.length_map, List.length_map] at equal
  rw [columns, lengths]
  apply guard_congr_of_map Iff.rfl
  have cells (names : List Ident) (rows : List (List (Ident × Datum))) :
      (rows.map fun row => names.map fun name => row.lookup name).map
          (List.map (Option.map fun _ => Datum.blank)) =
        (rows.map (List.map Sql.blankAssignment)).map fun row =>
          names.map fun name => row.lookup name := by
    simp only [List.map_map, Function.comp_def, lookup_blankAssignment]
  refine congrArg (fun cells => Except.ok (Sql.Insert.mk table.name _ cells)) ?_
  rw [cells, cells, same]

/-- Queries of one shape give a write conditions of one outline, or are refused alike. -/
theorem requiredFilters_congr {action : String} {left right : Query}
    (queries : left.shape = right.shape) :
    (requiredFilters action left).map (List.map Condition.outline) =
      (requiredFilters action right).map (List.map Condition.outline) := by
  obtain ⟨parameters, -, -, -⟩ := QueryShape.mk.inj queries
  unfold requiredFilters
  apply bind_congr_of_map (equalityFilters_congr parameters)
  intro conditions filters same
  have counts : conditions.isEmpty = filters.isEmpty := by
    have lengths := congrArg List.isEmpty same
    rwa [List.isEmpty_map, List.isEmpty_map] at lengths
  exact guard_congr_of_map (by rw [counts]) (congrArg Except.ok same)

/-- Assignments stay alike without that of the key. -/
theorem filter_key_congr {left right : List (Ident × Datum)}
    (same : left.map Sql.blankAssignment = right.map Sql.blankAssignment) :
    (left.filter fun (column, _) => column != .id).map Sql.blankAssignment =
      (right.filter fun (column, _) => column != .id).map Sql.blankAssignment := by
  have kept (assigned : List (Ident × Datum)) :
      (assigned.filter fun entry => entry.1 != .id).map Sql.blankAssignment =
        (assigned.map Sql.blankAssignment).filter fun entry => entry.1 != .id := by
    rw [List.filter_map]
    rfl
  exact (kept left).trans ((congrArg _ same).trans (kept right).symm)

/-- Patches with the same fields and queries of one shape give updates of one outline. -/
theorem update_congr {left right : Record} {query other : Query}
    (names : left.fields.map Prod.fst = right.fields.map Prod.fst)
    (queries : query.shape = other.shape)
    (tenants : first.active?.isSome = second.active?.isSome) :
    (update ⟨catalog, first⟩ table left query).map Sql.Update.outline =
      (update ⟨catalog, second⟩ table right other).map Sql.Update.outline := by
  have fields : left.fields.map (fieldShape false) = right.fields.map (fieldShape false) := by
    have named (record : Record) : record.fields.map (fieldShape false) =
        (record.fields.map Prod.fst).map fun name => (name, false) := by
      rw [List.map_map]
      rfl
    rw [named, named, names]
  unfold update
  apply bind_congr_of_map (enforce_congr tenants)
  intro tenant predicate pinned
  apply bind_congr_of_map (assignments_congr pinned fields)
  intro assigned others same
  have changed := filter_key_congr same
  have counts := congrArg List.isEmpty changed
  rw [List.isEmpty_map, List.isEmpty_map] at counts
  apply guard_congr_of_map (by rw [counts])
  apply bind_congr_of_map (requiredFilters_congr queries)
  intro conditions filters filtered
  change Except.ok (Sql.Update.mk table.name (List.map _ _) (tenant.map _) (conditions.map _)) =
    Except.ok (Sql.Update.mk table.name (List.map _ _) (predicate.map _) (filters.map _))
  rw [changed, pinned, filtered]

/-- Queries of one shape give deletes of one outline. -/
theorem delete_congr {query other : Query} (queries : query.shape = other.shape)
    (tenants : first.active?.isSome = second.active?.isSome) :
    (delete ⟨catalog, first⟩ table query).map Sql.Delete.outline =
      (delete ⟨catalog, second⟩ table other).map Sql.Delete.outline := by
  unfold delete
  apply bind_congr_of_map (enforce_congr tenants)
  intro tenant predicate pinned
  apply bind_congr_of_map (requiredFilters_congr queries)
  intro conditions filters filtered
  change Except.ok (Sql.Delete.mk table.name (tenant.map _) (conditions.map _)) =
    Except.ok (Sql.Delete.mk table.name (predicate.map _) (filters.map _))
  rw [pinned, filtered]

end

/-! ### Calls -/

/-- What is left of a call without the values that it binds. -/
inductive CallShape
  | select (projection : Projection) (query : QueryShape)
  | selectByKeys (projection : Projection) (count : Nat)
  | insert (records : List (List (String × Bool)))
  | update (names : List String) (query : QueryShape)
  | delete (query : QueryShape)
deriving DecidableEq

/-- What is left of a call when its values are taken away. -/
def Call.shape : Call → CallShape
  | .select projection query => .select projection query.shape
  | .selectByKeys projection keys => .selectByKeys projection keys.length
  | .insert records =>
      .insert (records.map fun record =>
        record.fields.map fun (name, value) => (name, value.isNull))
  | .update patch query => .update (patch.fields.map Prod.fst) query.shape
  | .delete query => .delete query.shape

variable {catalog : Catalog} {first second : TenantContext} {table : Table} {left right : Call}

/-- Calls of one shape compile to statements of one outline, or are refused alike. -/
theorem Call.outline_congr (shapes : left.shape = right.shape)
    (tenants : first.active?.isSome = second.active?.isSome) :
    (left.compile ⟨catalog, first⟩ table).map Statement.outline =
      (right.compile ⟨catalog, second⟩ table).map Statement.outline := by
  cases left with
  | select projection query =>
      cases right with
      | select shown other =>
          obtain ⟨rfl, queries⟩ := CallShape.select.inj shapes
          exact map_congr_of_map (select_congr queries tenants projection)
            fun _ _ same => congrArg Statement.select same
      | _ => exact absurd shapes nofun
  | selectByKeys projection keys =>
      cases right with
      | selectByKeys shown others =>
          obtain ⟨rfl, counts⟩ := CallShape.selectByKeys.inj shapes
          exact map_congr_of_map (selectByKeys_congr counts tenants projection)
            fun _ _ same => congrArg Statement.select same
      | _ => exact absurd shapes nofun
  | insert records =>
      cases right with
      | insert others =>
          exact map_congr_of_map (insert_congr (CallShape.insert.inj shapes) tenants)
            fun _ _ same => congrArg Statement.insert same
      | _ => exact absurd shapes nofun
  | update patch query =>
      cases right with
      | update record other =>
          obtain ⟨names, queries⟩ := CallShape.update.inj shapes
          exact map_congr_of_map (update_congr names queries tenants)
            fun _ _ same => congrArg Statement.update same
      | _ => exact absurd shapes nofun
  | delete query =>
      cases right with
      | delete other =>
          exact map_congr_of_map (delete_congr (CallShape.delete.inj shapes) tenants)
            fun _ _ same => congrArg Statement.delete same
      | _ => exact absurd shapes nofun

/-- Calls of one shape have one outcome, for every tenant: the same error, or the same text with as
many values. -/
theorem Call.written_eq_of_shape (catalog : Catalog) (table : Table) {left right : Call}
    (shapes : left.shape = right.shape) {first second : TenantContext}
    (tenants : first.active?.isSome = second.active?.isSome) :
    (left.compile ⟨catalog, first⟩ table).map Statement.written =
      (right.compile ⟨catalog, second⟩ table).map Statement.written := by
  have outlined (compiled : Except Error Statement) :
      compiled.map Statement.written = (compiled.map Statement.outline).map Statement.written := by
    cases compiled with
    | error error => rfl
    | ok statement => exact congrArg Except.ok statement.written_outline.symm
  rw [outlined, Call.outline_congr shapes tenants, ← outlined]

/-- A table that belongs to tenants. -/
def billTable : Table := ⟨⟨"bills", by decide⟩, true⟩

/-- A read with plain operands. -/
def plainCall : Call :=
  .select {} ⟨[("state", "eq.open"), ("total", "in.(1,2)"), ("or", "(paid.is.true,total.gt.5)")]⟩

/-- A read of the same shape whose operands try to break out of their places. -/
def hostileCall : Call :=
  .select {} ⟨[("state", "eq.' OR 1=1; --"), ("total", "in.(\"$1,(\",\"\")"),
    ("or", "(paid.is.true,total,total.gt.0) OR (1=1)")]⟩

theorem Call.written_eq_of_shape_bills :
    plainCall.shape = hostileCall.shape ∧
      ((hostileCall.compile ⟨.ofTable billTable, .forTenant "\";"⟩ billTable).map
          Statement.written).toOption =
        some ("SELECT \"bills\".* FROM \"bills\" WHERE \"bills\".\"tenant_id\" = $1 AND " ++
          "\"bills\".\"state\" = $2 AND \"bills\".\"total\" IN ($3, $4) AND " ++
          "(\"bills\".\"paid\" IS TRUE OR \"bills\".\"total\" > $5) LIMIT 100", 5) := by
  have shapes : plainCall.shape = hostileCall.shape := by
    have state : parameterShape ("state", "eq.open") =
        parameterShape ("state", "eq.' OR 1=1; --") := by decide +kernel
    have total : parameterShape ("total", "in.(1,2)") =
        parameterShape ("total", "in.(\"$1,(\",\"\")") := by decide +kernel
    have alternatives : parameterShape ("or", "(paid.is.true,total.gt.5)") =
        parameterShape ("or", "(paid.is.true,total,total.gt.0) OR (1=1)") := by decide +kernel
    simp only [plainCall, hostileCall, Call.shape, Query.shape, List.map_cons, List.map_nil, state,
      total, alternatives]
    rfl
  have tenants : (TenantContext.forTenant "north").active?.isSome =
      (TenantContext.forTenant "\";").active?.isSome := by decide
  have same := Call.written_eq_of_shape (.ofTable billTable) billTable shapes tenants
  have plain : ((plainCall.compile ⟨.ofTable billTable, .forTenant "north"⟩ billTable).map
      Statement.written).toOption =
        some ("SELECT \"bills\".* FROM \"bills\" WHERE \"bills\".\"tenant_id\" = $1 AND " ++
          "\"bills\".\"state\" = $2 AND \"bills\".\"total\" IN ($3, $4) AND " ++
          "(\"bills\".\"paid\" IS TRUE OR \"bills\".\"total\" > $5) LIMIT 100", 5) := by
    decide +kernel
  exact ⟨shapes, same ▸ plain⟩

end Compile

end TableGate

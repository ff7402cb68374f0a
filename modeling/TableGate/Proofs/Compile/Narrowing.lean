import TableGate.Proofs.Compile.ReadFilter
import TableGate.Proofs.Compile.Shape
import TableGate.Proofs.Tenant.Isolation

/-!
# Filters narrow

The parameters of a read can be compiled part by part (`Draft.filtered_append`).  So more of them
leave the columns, the joins, the order and the page of a select as they are, and append conjuncts
to its conditions and values to its parameters (`Compile.select_append`).
-/

namespace TableGate

open Sql (Condition Fragment)

variable {draft drafted : Draft} {table : Option Ident}
  {parameters left right : List (String × String)} {conditions : List Condition}
  {texts : List String}

namespace Draft

/-- Compile the parameters of a read on a draft: the draft with their values, the conditions and
their texts. -/
def filtered (table : Option Ident) (draft : Draft) (parameters : List (String × String)) :
    Draft × Except Error (List Condition × List String) :=
  draft.afterOutcome (List.map Condition.tokens) (Compile.filters table parameters)

theorem filtered_eq_ok :
    draft.filtered table parameters = (drafted, .ok (conditions, texts)) ↔
      Compile.filters table parameters = .ok conditions ∧
        draft.place (conditions.map Condition.tokens) = (drafted, texts) :=
  afterOutcome_eq_ok

theorem filtered_eq_error {error : Error} :
    (draft.filtered table parameters).2 = .error error ↔
      (Compile.filters table parameters).toExcept = .error error :=
  afterOutcome_eq_error

end Draft

namespace Compile

/-- Parameters are compiled part by part. -/
theorem filters_append :
    filters table (left ++ right) = .ok conditions ↔
      ∃ first second, filters table left = .ok first ∧ filters table right = .ok second ∧
        conditions = first ++ second := by
  rw [filters, acceptAll_append]
  cases front : acceptAll Condition.values (readFilter table) left with
  | error refusal => simp [filters, front]
  | ok first =>
      rw [map_eq_ok]
      simp only [Outcome.after_eq_ok, filters, front, Except.ok.injEq]
      constructor
      · rintro ⟨second, back, rfl⟩
        exact ⟨first, second, rfl, back, rfl⟩
      · rintro ⟨_, second, rfl, back, rfl⟩
        exact ⟨second, back, rfl⟩

end Compile

/-- Parameters are compiled part by part, the second part on the draft that the first one leaves. -/
theorem Draft.filtered_append :
    draft.filtered table (left ++ right) = (drafted, .ok (conditions, texts)) ↔
      ∃ middle front first back second,
        draft.filtered table left = (middle, .ok (front, first)) ∧
          middle.filtered table right = (drafted, .ok (back, second)) ∧
          conditions = front ++ back ∧ texts = first ++ second := by
  rw [filtered_eq_ok, Compile.filters_append]
  constructor
  · rintro ⟨⟨front, back, compiled, others, rfl⟩, placed⟩
    rw [List.map_append, place_append] at placed
    cases placed
    exact ⟨_, front, _, back, _, filtered_eq_ok.mpr ⟨compiled, rfl⟩,
      filtered_eq_ok.mpr ⟨others, rfl⟩, rfl, rfl⟩
  · rintro ⟨middle, front, first, back, second, one, two, rfl, rfl⟩
    obtain ⟨compiled, placed⟩ := filtered_eq_ok.mp one
    obtain ⟨others, added⟩ := filtered_eq_ok.mp two
    refine ⟨⟨front, back, compiled, others, rfl⟩, ?_⟩
    rw [List.map_append, place_append, placed, added]

/-! ### Selects -/

/-- The select with more filters. -/
def Sql.Select.extend (statement : Sql.Select) (added : List Condition) : Sql.Select :=
  { statement with filters := statement.filters ++ added }

theorem Sql.Select.values_extend (statement : Sql.Select) (added : List Condition) :
    (statement.extend added).tokens.values =
      statement.tokens.values ++ added.flatMap Condition.values := by
  have conditions : (statement.extend added).conditions = statement.conditions ++ added :=
    Sql.conditions_append _ _ _ _
  rw [values_tokens, values_tokens, values_ending, values_ending, conditions, List.flatMap_append,
    List.append_nil, List.append_nil, List.append_assoc]
  rfl

/-- More filters are more conjuncts, whose placeholders go on after those of the select. -/
theorem Sql.Select.text_extend (statement : Sql.Select) (added : List Condition) :
    ∃ front first ending,
      Fragment.text 1 statement.tokens = front ++
        Isolation.whereText (Fragment.texts first (statement.conditions.map Condition.tokens)) ++
          ending ∧
      Fragment.text 1 (statement.extend added).tokens = front ++
        Isolation.whereText (Fragment.texts first (statement.conditions.map Condition.tokens) ++
          Fragment.texts (statement.tokens.values.length + 1) (added.map Condition.tokens)) ++
            ending := by
  have conditions : (statement.extend added).conditions = statement.conditions ++ added :=
    Sql.conditions_append _ _ _ _
  have bound : statement.tokens.values = statement.selection.tokens.values ++
      (statement.conditions.map Condition.tokens).flatMap Fragment.values := by
    rw [values_tokens, values_ending, Selection.values_tokens, List.append_nil, List.flatMap_map]
    rfl
  refine ⟨Fragment.text 1 statement.selection.tokens, 1 + statement.selection.tokens.values.length,
    Fragment.text 1 statement.ending, ?_, ?_⟩
  · rw [text_tokens, Isolation.text_where, Fragment.text_eq_of_values statement.values_ending _ 1]
  · rw [text_tokens, Isolation.text_where,
      Fragment.text_eq_of_values (statement.extend added).values_ending _ 1, conditions,
      List.map_append, Fragment.texts_append, bound, List.length_append, Nat.add_comm _ 1,
      ← Nat.add_assoc]
    rfl

namespace Compile

variable {scope : Scope} {source : Table} {projection : Projection}

/-- The parameters that have a meaning of their own in a select. -/
def shaping : List String := ["select", "order", "limit", "offset"]

theorem get?_append {name : String} (absent : ∀ parameter ∈ right, parameter.1 ≠ name) :
    (Query.mk (left ++ right)).get? name = (Query.mk left).get? name := by
  have later : right.lookup name = none := by
    rw [List.lookup_eq_none_iff]
    exact fun parameter member => bne_iff_ne.mpr (absent parameter member).symm
  rw [Query.get?, List.lookup_append, later, Option.or_none]
  rfl

/-- A select of more parameters that still compiles is the select of the first ones with more
filters. -/
theorem select_append {extended : Sql.Select}
    (plain : ∀ parameter ∈ right, parameter.1 ∉ shaping)
    (compiled : select scope source projection ⟨left ++ right⟩ = .ok extended) :
    ∃ statement added, select scope source projection ⟨left⟩ = .ok statement ∧
      filters (some source.name) right = .ok added ∧ extended = statement.extend added := by
  have absent (name : String) (shapes : name ∈ shaping) :
      (Query.mk (left ++ right)).get? name = (Query.mk left).get? name :=
    get?_append fun parameter member same => plain parameter member (same ▸ shapes)
  obtain ⟨tenant, selection, conditions, terms, enforced, resolved, filtered, ordered, rfl⟩ :=
    select_eq_ok compiled
  obtain ⟨first, second, front, back, rfl⟩ := filters_append.mp filtered
  rw [order_congr (absent "order" (by decide))] at ordered
  rw [page_congr (absent "limit" (by decide)) (absent "offset" (by decide))]
  refine ⟨⟨selection, tenant, first, terms, some (page scope.catalog.maxLimit ⟨left⟩)⟩, second, ?_,
    back, rfl⟩
  exact bind_eq_ok.mpr ⟨tenant, enforced, bind_eq_ok.mpr ⟨selection,
    Outcome.toExcept_eq_ok.mpr resolved, bind_eq_ok.mpr ⟨first, Outcome.toExcept_eq_ok.mpr front,
      bind_eq_ok.mpr ⟨terms, ordered, rfl⟩⟩⟩⟩

/-- A select has what another one has, and more conjuncts and values: those that the parameters
compile to on the other one. -/
def Narrows (source : Table) (parameters : List (String × String))
    (statement extended : Sql.Select) : Prop :=
  ∃ drafted added more front first ending,
    (Draft.ofStatement (.select statement)).filtered (some source.name) parameters =
        (drafted, .ok (added, more)) ∧
      (Draft.ofStatement (.select statement)).text = front ++
        Isolation.whereText (Fragment.texts first (statement.conditions.map Condition.tokens)) ++
          ending ∧
      Draft.ofStatement (.select extended) =
        { drafted with
          text := front ++
            Isolation.whereText
              (Fragment.texts first (statement.conditions.map Condition.tokens) ++ more) ++ ending }

theorem narrows_extend {added : List Condition} (statement : Sql.Select)
    (compiled : filters (some source.name) parameters = .ok added) :
    Narrows source parameters statement (statement.extend added) := by
  obtain ⟨front, first, ending, before, after⟩ := statement.text_extend added
  refine ⟨_, added, _, front, first, ending, Draft.filtered_eq_ok.mpr ⟨compiled, rfl⟩, before, ?_⟩
  have values : (statement.extend added).tokens.values =
      statement.tokens.values ++ (added.map Condition.tokens).flatMap Fragment.values := by
    rw [statement.values_extend, List.flatMap_map]
    rfl
  exact congr (congrArg Draft.mk after) values

/-- Compiling the parameters of a read goes on where it has got to: a list is compiled part by part.
Each fragment is made of a parameter that asks for one, in their order, and no such parameter is
lost; the first name that is no identifier is reported, and there is no other error.  So parameters
that do not shape a select only narrow it. -/
theorem filters_narrow (draft : Draft) (table : Option Ident)
    (left right : List (String × String)) :
    (∀ drafted conditions texts,
      draft.filtered table (left ++ right) = (drafted, .ok (conditions, texts)) ↔
        ∃ middle front first back second,
          draft.filtered table left = (middle, .ok (front, first)) ∧
            middle.filtered table right = (drafted, .ok (back, second)) ∧
            conditions = front ++ back ∧ texts = first ++ second) ∧
      (∀ drafted conditions texts,
        draft.filtered table left = (drafted, .ok (conditions, texts)) →
          Kept (Condition.ReadFrom table) left conditions ∧
            texts = Fragment.texts draft.next (conditions.map Condition.tokens) ∧
            drafted = draft.bind (conditions.flatMap Condition.values)) ∧
      (∀ error, (draft.filtered table left).2 = .error error ↔
        ∃ name, (left.flatMap checkedNames).find? (fun name => !isIdentifier name) = some name ∧
          error = .invalidIdentifier name) ∧
      ((∀ parameter ∈ right, parameter.1 ∉ shaping) →
        (Query.mk (left ++ right)).select? = (Query.mk left).select? ∧
          ∀ scope source projection extended,
            select scope source projection ⟨left ++ right⟩ = .ok extended →
              ∃ statement, select scope source projection ⟨left⟩ = .ok statement ∧
                Narrows source right statement extended) := by
  refine ⟨fun _ _ _ => Draft.filtered_append, ?_, ?_, fun plain => ⟨?_, ?_⟩⟩
  · intro drafted conditions texts compiled
    obtain ⟨accepted, placed⟩ := Draft.filtered_eq_ok.mp compiled
    cases placed
    rw [List.flatMap_map]
    exact ⟨kept_of_filters accepted, rfl, rfl⟩
  · intro error
    rw [Draft.filtered_eq_error, makes_filters table left error, firstFailure_names_iff]
  · unfold Query.select? Query.visible?
    rw [get?_append fun parameter member same => plain parameter member (same ▸ by decide)]
  · intro scope source projection extended compiled
    obtain ⟨statement, added, first, back, rfl⟩ := select_append plain compiled
    exact ⟨statement, first, narrows_extend statement back⟩

/-- A table of cards that belong to tenants. -/
def cardTable : Table := ⟨⟨"cards", by decide⟩, true⟩

/-- The scope of a tenant with cards. -/
def cardScope : Scope := ⟨.ofTable cardTable, .forTenant "north"⟩

/-- A page of cards with one of two titles; a group and a filter are left out. -/
def fewParameters : List (String × String) :=
  [("limit", "5"), ("title", "in.(a,b)"), ("or", "(title.like.x)"), ("size", "above.3")]

/-- A flag, and a group of which one alternative is left. -/
def moreParameters : List (String × String) :=
  [("done", "is.true"), ("or", "(note.eq.n.m,note.like.x)"), ("single", "true")]

theorem filters_narrow_cards :
    (∀ parameter ∈ moreParameters, parameter.1 ∉ shaping) ∧
      ∃ statement extended,
        select cardScope cardTable {} ⟨fewParameters⟩ = .ok statement ∧
        select cardScope cardTable {} ⟨fewParameters ++ moreParameters⟩ = .ok extended ∧
        Narrows cardTable moreParameters statement extended ∧
        Fragment.text 1 extended.tokens =
          "SELECT \"cards\".* FROM \"cards\" WHERE \"cards\".\"tenant_id\" = $1 AND " ++
            "\"cards\".\"title\" IN ($2, $3) AND \"cards\".\"done\" IS TRUE AND " ++
            "(\"cards\".\"note\" = $4) LIMIT 5" := by
  have plain : ∀ parameter ∈ moreParameters, parameter.1 ∉ shaping := by decide
  have written : ((select cardScope cardTable {} ⟨fewParameters ++ moreParameters⟩).map
      fun extended => Fragment.text 1 extended.tokens).toOption =
        some ("SELECT \"cards\".* FROM \"cards\" WHERE \"cards\".\"tenant_id\" = $1 AND " ++
          "\"cards\".\"title\" IN ($2, $3) AND \"cards\".\"done\" IS TRUE AND " ++
          "(\"cards\".\"note\" = $4) LIMIT 5") := by
    decide +kernel
  obtain ⟨extended, compiled, text⟩ := exists_ok_of_toOption written
  obtain ⟨-, -, -, narrows⟩ := filters_narrow startedDraft none fewParameters moreParameters
  obtain ⟨statement, first, narrow⟩ := (narrows plain).2 _ _ _ _ compiled
  exact ⟨plain, statement, extended, first, compiled, narrow, text⟩

end Compile

end TableGate

import TableGate.Proofs.Compile.Joining
import TableGate.Proofs.Compile.ReadFilter
import TableGate.Proofs.Text.Token

/-!
# Which reads are compiled

A select is compiled exactly where its checks pass, made in a fixed order (`selectChecks`), the
first failure deciding the error: those of the table, of the relations one by one, of the names in
the parameters and of the columns of the order.  Nothing else of a query is checked, so queries
that agree on those names are refused alike (`selectChecks_of_alike`).  The main theorem is
`selects_admitted`.
-/

namespace TableGate

open Text (isBlankText trim)

/-- The columns that the text of an order names: what stands before the first dot of each token,
blank tokens left out. -/
def orderedNames (text : String) : List String :=
  ((text.toList.splitOn ',').filter fun token => !isBlankText token).map fun token =>
    String.ofList ((trim token).takeWhile (· != '.'))

/-- The columns that a query names in its order. -/
def Query.orderColumns (query : Query) : List String :=
  orderedNames ((query.get? "order").getD "")

theorem orderedNames_of_isBlankText {text : String} (blank : isBlankText text.toList = true) :
    orderedNames text = [] := by
  have alone : text.toList.splitOn ',' = [text.toList] :=
    List.splitOn_eq_singleton (Text.not_mem_of_isBlankText (by decide) blank)
  rw [orderedNames, alone, List.filter_cons_of_neg (by simp [blank])]
  rfl

/-- A blank order names no columns, like an order that is missing. -/
theorem Query.orderedNames_order? (query : Query) :
    orderedNames (query.order?.getD "") = query.orderColumns := by
  unfold orderColumns order? visible?
  cases query.get? "order" with
  | none => rfl
  | some text =>
      by_cases blank : isBlankText text.toList = true
      · rw [Option.filter_some, if_neg (by simp [blank])]
        exact (orderedNames_of_isBlankText blank).symm
      · rw [Option.filter_some, if_pos (by simp [blank])]

namespace Compile

variable {scope : Scope} {table : Table} {projection : Projection} {query : Query}

/-! ### What is asked of a read -/

/-- What a select needs: a table that may be used, relations that may be joined, and names of
columns for its filters, for the alternatives of its groups and for its order. -/
structure SelectAllowed (scope : Scope) (table : Table) (projection : Projection)
    (query : Query) : Prop where
  usable : MayUse scope table
  joinable : ∀ relation ∈ projection.relations, Joinable scope relation
  filtersNamed : ∀ parameter ∈ query.pairs, Query.isReserved parameter.1 = false →
    isIdentifier parameter.1 = true
  alternativesNamed : ∀ parameter ∈ query.pairs, parameter.1 = "or" →
    ∀ piece ∈ groupPieces parameter.2, ∀ name, columnOf? piece = some name →
      isIdentifier name = true
  orderNamed : ∀ name ∈ query.orderColumns, isIdentifier name = true

/-- The checks of a select, in their order. -/
def selectChecks (scope : Scope) (table : Table) (projection : Projection) (query : Query) :
    List Check :=
  Check.tenant scope table :: (projection.relations.map (Check.joining scope) ++
    ((query.pairs.flatMap checkedNames).map Check.name ++ query.orderColumns.map Check.name))

/-- Two parameters agree on what is checked of them: on their name, on the columns of their
alternatives and on the columns of their order. -/
structure CheckedAlike (first second : String × String) : Prop where
  name : first.1 = second.1
  alternatives : first.1 = "or" →
    (groupPieces first.2).filterMap columnOf? = (groupPieces second.2).filterMap columnOf?
  ordered : first.1 = "order" → orderedNames first.2 = orderedNames second.2

instance (first second : String × String) : Decidable (CheckedAlike first second) :=
  decidable_of_iff
    (first.1 = second.1 ∧
      (first.1 = "or" →
        (groupPieces first.2).filterMap columnOf? = (groupPieces second.2).filterMap columnOf?) ∧
      (first.1 = "order" → orderedNames first.2 = orderedNames second.2))
    ⟨fun ⟨name, alternatives, ordered⟩ => ⟨name, alternatives, ordered⟩,
      fun alike => ⟨alike.name, alike.alternatives, alike.ordered⟩⟩

theorem passes_checkedNames_iff {parameter : String × String} :
    (∀ name ∈ checkedNames parameter, isIdentifier name = true) ↔
      (Query.isReserved parameter.1 = false → isIdentifier parameter.1 = true) ∧
        (parameter.1 = "or" → ∀ piece ∈ groupPieces parameter.2, ∀ name,
          columnOf? piece = some name → isIdentifier name = true) := by
  unfold checkedNames
  by_cases group : parameter.1 = "or"
  · have reserved : Query.isReserved parameter.1 = true := group ▸ rfl
    rw [if_pos group, reserved]
    simp only [List.mem_filterMap, group, forall_exists_index, and_imp]
    constructor
    · intro named
      exact ⟨nofun, fun _ piece among name => named name piece among⟩
    · rintro ⟨-, named⟩ name piece among
      exact named trivial piece among name
  · rw [if_neg group]
    cases Query.isReserved parameter.1 <;> simp [group]

theorem passes_selectChecks_iff :
    (∀ check ∈ selectChecks scope table projection query, check.Passes) ↔
      SelectAllowed scope table projection query := by
  have relations : (∀ check ∈ projection.relations.map (Check.joining scope),
      Check.Passes check) ↔ ∀ relation ∈ projection.relations, Joinable scope relation := by
    simp only [List.forall_mem_map, passes_joining_iff]
  rw [selectChecks, List.forall_mem_cons, List.forall_mem_append, List.forall_mem_append,
    passes_tenant_iff, relations, passes_names_iff, passes_names_iff, List.forall_mem_flatMap]
  simp only [passes_checkedNames_iff]
  constructor
  · rintro ⟨usable, joinable, named, orderNamed⟩
    exact ⟨usable, joinable, fun parameter among => (named parameter among).1,
      fun parameter among => (named parameter among).2, orderNamed⟩
  · intro allowed
    exact ⟨allowed.usable, allowed.joinable, fun parameter among =>
      ⟨allowed.filtersNamed parameter among, allowed.alternativesNamed parameter among⟩,
      allowed.orderNamed⟩

/-! ### Checks -/

theorem makes_orderTerm (token : List Char) :
    Makes [.name (String.ofList (token.takeWhile (· != '.')))] (orderTerm token) := by
  rw [← Text.fst_cutAt]
  exact (makes_read _).bind fun column _ => makes_ok _

theorem makes_order (query : Query) : Makes (query.orderColumns.map .name) (order query) := by
  -- Blank tokens are left out before they are trimmed instead of after it.
  rw [← query.orderedNames_order?, orderedNames, List.map_map, List.map_eq_flatMap, order,
    ← Text.map_trim_filter, List.mapM_map]
  exact Makes.mapM fun token _ => makes_orderTerm (trim token)

/-- A select makes the checks of its parts, one after another. -/
theorem makes_select (scope : Scope) (table : Table) (projection : Projection) (query : Query) :
    Makes (selectChecks scope table projection query) (select scope table projection query) := by
  refine (makes_enforce scope table).bind fun tenant _ => ?_
  refine (makes_selection scope table projection).bind fun selection _ => ?_
  refine (makes_filters (some table.name) query.pairs).bind fun filters _ => ?_
  exact (makes_order query).map _

/-! ### Queries that are refused alike -/

theorem checkedNames_of_alike {first second : String × String}
    (alike : CheckedAlike first second) : checkedNames first = checkedNames second := by
  unfold checkedNames
  rw [← alike.name]
  by_cases group : first.1 = "or"
  · rw [if_pos group, if_pos group, alike.alternatives group]
  · rw [if_neg group, if_neg group]

theorem flatMap_checkedNames_of_alike {left right : List (String × String)}
    (alike : List.Forall₂ CheckedAlike left right) :
    left.flatMap checkedNames = right.flatMap checkedNames := by
  induction alike with
  | nil => rfl
  | cons same _ ih => rw [List.flatMap_cons, List.flatMap_cons, checkedNames_of_alike same, ih]

theorem orderColumns_of_alike {left right : List (String × String)}
    (alike : List.Forall₂ CheckedAlike left right) :
    Query.orderColumns ⟨left⟩ = Query.orderColumns ⟨right⟩ := by
  unfold Query.orderColumns Query.get?
  induction alike with
  | nil => rfl
  | @cons first second _ _ same _ ih =>
      obtain ⟨name, value⟩ := first
      obtain ⟨other, text⟩ := second
      obtain rfl : name = other := same.name
      by_cases order : name = "order"
      · rw [order, List.lookup_cons_self, List.lookup_cons_self]
        exact same.ordered order
      · have apart : ("order" == name) = false := beq_false_of_ne (Ne.symm order)
        rw [List.lookup_cons, List.lookup_cons, apart]
        exact ih

/-- Queries that agree on what is checked are checked alike. -/
theorem selectChecks_of_alike {other : Query}
    (alike : List.Forall₂ CheckedAlike query.pairs other.pairs) :
    selectChecks scope table projection query = selectChecks scope table projection other := by
  rw [selectChecks, selectChecks, flatMap_checkedNames_of_alike alike,
    orderColumns_of_alike alike]

/-- A select is compiled exactly where it is allowed, and refused with the error of the first check
that fails.  Queries that agree on the names that are checked are refused alike, whatever operators,
operands, limits and offsets they give. -/
theorem selects_admitted (scope : Scope) (table : Table) (projection : Projection)
    (query : Query) :
    ((∃ statement, select scope table projection query = .ok statement) ↔
        SelectAllowed scope table projection query) ∧
      (∀ error, select scope table projection query = .error error ↔
        FirstFailure (selectChecks scope table projection query) error) ∧
      ∀ other : Query, List.Forall₂ CheckedAlike query.pairs other.pairs → ∀ error,
        select scope table projection query = .error error ↔
          select scope table projection other = .error error := by
  have makes := makes_select scope table projection query
  refine ⟨makes.exists_ok_iff.trans passes_selectChecks_iff, makes, ?_⟩
  intro other alike error
  rw [makes error, makes_select scope table projection other error, selectChecks_of_alike alike]

/-- A query with a limit that is no number, an operator that there is not, a group with a part that
is no alternative and an order with a blank token. -/
def deskQuery : Query :=
  ⟨[("limit", "many"), ("caption", "near.A"), ("or", "(floor.gt.3,nonsense)"),
    ("order", " caption.desc, ,floor.up")]⟩

/-- A query with the same names and another value for each of them. -/
def plainDeskQuery : Query :=
  ⟨[("limit", "5"), ("caption", "eq.A"), ("or", "( floor .lte.3)"), ("order", "caption,floor")]⟩

/-- A relation whose target is no table. -/
def strayProjection : Projection where
  relations := [⟨roomTable.name, ⟨"planes", by decide⟩, .all⟩]

theorem selects_admitted_desks :
    SelectAllowed deskScope deskTable deskProjection deskQuery ∧
      (List.Forall₂ CheckedAlike deskQuery.pairs plainDeskQuery.pairs ∧
        ∀ error, select deskScope deskTable deskProjection plainDeskQuery ≠ .error error) ∧
      select deskScope deskTable strayProjection ⟨[("2nd", "eq.1"), ("order", "a b")]⟩ =
        .error (.unknownTable "planes") := by
  obtain ⟨admitted, -, alike⟩ := selects_admitted deskScope deskTable deskProjection deskQuery
  obtain ⟨-, refused, -⟩ :=
    selects_admitted deskScope deskTable strayProjection ⟨[("2nd", "eq.1"), ("order", "a b")]⟩
  have paged : ((select deskScope deskTable deskProjection deskQuery).map
      Sql.Select.page).toOption = some (some ⟨100, 0⟩) := by
    decide +kernel
  obtain ⟨statement, done, -⟩ := exists_ok_of_toOption paged
  have same : List.Forall₂ CheckedAlike deskQuery.pairs plainDeskQuery.pairs := by decide +kernel
  refine ⟨admitted.mp ⟨statement, done⟩, ⟨same, ?_⟩, ?_⟩
  · intro error other
    have failed := (alike plainDeskQuery same error).mpr other
    rw [done] at failed
    exact absurd failed nofun
  · apply (refused _).mpr
    apply FirstFailure.later
    · exact passes_tenant_iff.mpr (.inr ⟨"north", rfl⟩)
    · exact .here (.unknown (by decide))

end Compile

end TableGate

import TableGate.Proofs.Compile.Narrowing

/-!
# The equalities of a query

A write takes its filters from the parameters that a read takes for equalities, and makes the same
conditions of them (`Compile.filters_of_equalityFilters`).  The other parameters are idle in a
write: as long as their names are reserved or are those of columns, they make no difference to it
(`Compile.equalityFilters_of_sameActive`).
-/

namespace TableGate

open Sql (Condition)

/-- A parameter asks nothing of a write: its name is reserved, or is that of a column while its
value does not begin with `eq.`. -/
def Query.isIdle (parameter : String × String) : Bool :=
  isReserved parameter.1 ||
    isIdentifier parameter.1 && !"eq.".toList.isPrefixOf parameter.2.toList

/-- Two lists of parameters differ in idle ones only, wherever they stand. -/
def Query.SameActive (left right : List (String × String)) : Prop :=
  (left.filter fun parameter => !isIdle parameter) =
    right.filter fun parameter => !isIdle parameter

instance (left right : List (String × String)) : Decidable (Query.SameActive left right) :=
  inferInstanceAs (Decidable (_ = _))

/-- Compile the parameters of a write on a draft: the draft with their values, the conditions and
their texts. -/
def Draft.equated (table : Option Ident) (draft : Draft) (parameters : List (String × String)) :
    Draft × Except Error (List Condition × List String) :=
  draft.afterOutcome (List.map Condition.tokens) (Compile.equalityFilters table parameters)

namespace Compile

/-- Items that are left out may be left out beforehand, and the others accepted in another way that
agrees on them. -/
theorem acceptAll_filter_of_ok {α β : Type} {values : β → List Datum}
    {accept other : α → Outcome (Option β)} {kept : α → Bool}
    (agrees : ∀ item, kept item = true → other item = accept item)
    (omits : ∀ item found, accept item = .ok found → kept item = false → found = none)
    {items : List α} {results : List β} (accepted : acceptAll values accept items = .ok results) :
    acceptAll values other (items.filter kept) = .ok results := by
  induction items generalizing results with
  | nil => exact accepted
  | cons item rest ih =>
      rw [acceptAll] at accepted
      cases outcome : accept item with
      | error refusal =>
          rw [outcome] at accepted
          cases accepted
      | ok found =>
          rw [outcome] at accepted
          by_cases keeps : kept item = true
          · rw [List.filter_cons_of_pos keeps, acceptAll, agrees item keeps, outcome]
            cases found with
            | none => exact ih accepted
            | some result =>
                obtain ⟨others, inner, rfl⟩ := map_eq_ok.mp accepted
                have later := ih (Outcome.after_eq_ok.mp inner)
                exact map_eq_ok.mpr ⟨others, Outcome.after_eq_ok.mpr later, rfl⟩
          · obtain rfl := omits item found outcome ((Bool.not_eq_true _).mp keeps)
            rw [List.filter_cons_of_neg keeps]
            exact ih accepted

variable {table : Option Ident} {parameter : String × String}
  {parameters left right : List (String × String)} {conditions : List Condition}

/-! ### Parameters that ask for equality -/

/-- A read and a write take a parameter that asks for equality alike. -/
theorem readFilter_of_asksEquality (asked : Query.asksEquality parameter = true) :
    readFilter table parameter = writeFilter table parameter := by
  obtain ⟨name, value⟩ := parameter
  obtain ⟨unreserved, begins⟩ := (Bool.and_eq_true _ _).mp asked
  have plain : ¬ Query.isReserved name = true := by simpa using unreserved
  have column : name ≠ "or" := fun same => plain (same ▸ by decide)
  unfold readFilter writeFilter
  rw [if_neg column, if_neg plain, if_neg plain]
  cases read : Filter.ofParameter name value with
  | error error => rfl
  | ok filter =>
      rcases ofParameter_cases read with ⟨column, operand, -, -, rfl⟩ | ⟨apart, -⟩
      · rfl
      · exact absurd (List.isPrefixOf_iff_prefix.mp begins) apart

theorem eq_none_of_writeFilter {found : Option Condition}
    (read : writeFilter table parameter = .ok found)
    (unasked : Query.asksEquality parameter = false) : found = none := by
  rw [← Option.not_isSome_iff_eq_none, isSome_of_writeFilter read, unasked]
  exact Bool.false_ne_true

/-- The filters of a write are those of a read of the parameters that ask for equality. -/
theorem filters_of_equalityFilters (compiled : equalityFilters table parameters = .ok conditions) :
    filters table (parameters.filter Query.asksEquality) = .ok conditions := by
  apply acceptAll_filter_of_ok _ _ compiled
  · intro parameter asked
    exact readFilter_of_asksEquality asked
  · intro parameter found read unasked
    exact eq_none_of_writeFilter read unasked

/-! ### Idle parameters -/

theorem writeFilter_of_isIdle (idle : Query.isIdle parameter = true) :
    writeFilter table parameter = .ok none := by
  obtain ⟨name, value⟩ := parameter
  by_cases reserved : Query.isReserved name = true
  · rw [writeFilter, if_pos reserved]
  · have column : (isIdentifier name && !"eq.".toList.isPrefixOf value.toList) = true :=
      ((Bool.or_eq_true _ _).mp idle).resolve_left reserved
    obtain ⟨valid, other⟩ := (Bool.and_eq_true _ _).mp column
    have named : Filter.ofParameter name value =
        .ok (Filter.ofSpelling? ⟨name, valid⟩ value.toList) := by
      rw [Filter.ofParameter_eq, Ident.read_text ⟨name, valid⟩]
      rfl
    have accepted : ∃ found, writeFilter table (name, value) = .ok found := by
      rw [writeFilter, if_neg reserved, named]
      exact ⟨_, rfl⟩
    -- A filter that is read is dropped, because its value would have to begin with `eq.`.
    obtain ⟨found, read⟩ := accepted
    have unasked : Query.asksEquality (name, value) = false := by
      rw [Query.asksEquality, (Bool.not_eq_true _).mp reserved]
      simpa using other
    rw [read, eq_none_of_writeFilter read unasked]

/-- Idle parameters make no difference to the filters of a write, not even to their refusal. -/
theorem equalityFilters_of_sameActive (same : Query.SameActive left right) :
    equalityFilters table left = equalityFilters table right := by
  have skipped (parameter : String × String) (idle : (!Query.isIdle parameter) = false) :
      writeFilter table parameter = .ok none :=
    writeFilter_of_isIdle (by simpa using idle)
  have active (parameters : List (String × String)) :
      equalityFilters table (parameters.filter fun parameter => !Query.isIdle parameter) =
        equalityFilters table parameters :=
    acceptAll_filter skipped
  rw [← active left, ← active right, same]

/-- A write depends on its query through the filters only. -/
theorem requiredFilters_of_sameActive (action : String) (same : Query.SameActive left right) :
    requiredFilters action ⟨left⟩ = requiredFilters action ⟨right⟩ := by
  unfold requiredFilters
  rw [equalityFilters_of_sameActive same]

theorem delete_of_sameActive (scope : Scope) (source : Table)
    (same : Query.SameActive left right) :
    delete scope source ⟨left⟩ = delete scope source ⟨right⟩ := by
  unfold delete
  rw [requiredFilters_of_sameActive _ same]

theorem update_of_sameActive (scope : Scope) (source : Table) (patch : Record)
    (same : Query.SameActive left right) :
    update scope source patch ⟨left⟩ = update scope source patch ⟨right⟩ := by
  unfold update
  rw [requiredFilters_of_sameActive _ same]

/-- The filters of a write are the equalities of a read: where they compile on a draft, a read of
the parameters that ask for equality gives the same conditions and texts and binds the same values.
They are refused for the first name alone that is neither reserved nor an identifier.  So
parameters that are idle may be added to a write or taken from it, anywhere, and the statement stays
the same, or the refusal. -/
theorem equalities_of_read (draft : Draft) (table : Option Ident)
    (parameters : List (String × String)) :
    (∀ drafted conditions texts,
      draft.equated table parameters = (drafted, .ok (conditions, texts)) →
        draft.filtered table (parameters.filter Query.asksEquality) =
          (drafted, .ok (conditions, texts))) ∧
      (∀ error, (draft.equated table parameters).2 = .error error ↔
        ∃ name, ((parameters.map Prod.fst).filter fun name => !Query.isReserved name).find?
            (fun name => !isIdentifier name) = some name ∧
          error = .invalidIdentifier name) ∧
      ∀ others, Query.SameActive parameters others → ∀ scope source,
        delete scope source ⟨parameters⟩ = delete scope source ⟨others⟩ ∧
          ∀ patch, update scope source patch ⟨parameters⟩ = update scope source patch ⟨others⟩ := by
  refine ⟨?_, ?_, ?_⟩
  · intro drafted conditions texts equated
    obtain ⟨compiled, placed⟩ := Draft.afterOutcome_eq_ok.mp equated
    exact Draft.filtered_eq_ok.mpr ⟨filters_of_equalityFilters compiled, placed⟩
  · intro error
    apply Draft.afterOutcome_eq_error.trans
    rw [makes_equalityFilters table ⟨parameters⟩ error, firstFailure_names_iff]
    rfl
  · intro others same scope source
    exact ⟨delete_of_sameActive scope source same,
      fun patch => update_of_sameActive scope source patch same⟩

/-- A table of boats that belong to tenants. -/
def boatTable : Table := ⟨⟨"boats", by decide⟩, true⟩

/-- Two equalities among parameters that are idle in a write. -/
def boatParameters : List (String × String) :=
  [("or", "(skipper.eq.Ada)"), ("skipper", "eq.Ada"), ("size", "gt.3"), ("order", "eq.skipper"),
    ("sold", "eq.null")]

/-- The two equalities. -/
def boatEqualities : List (String × String) := [("skipper", "eq.Ada"), ("sold", "eq.null")]

/-- The conditions of the two equalities. -/
def boatConditions : List Condition :=
  [.single (.compare ⟨some boatTable.name, ⟨"skipper", by decide⟩⟩ .equal (.text "Ada")),
    .single (.isNull ⟨some boatTable.name, ⟨"sold", by decide⟩⟩)]

/-- A draft that has a value already. -/
def boatDraft : Draft := { values := [.bool true] }

theorem equalities_of_read_boats :
    boatDraft.filtered (some boatTable.name) boatEqualities =
        (boatDraft.bind [.text "Ada"],
          .ok (boatConditions, ["\"boats\".\"skipper\" = $2", "\"boats\".\"sold\" IS NULL"])) ∧
      Query.SameActive boatParameters boatEqualities ∧
      ((delete ⟨.ofTable boatTable, .forTenant "north"⟩ boatTable ⟨boatParameters⟩).map
          fun statement => (Sql.Statement.delete statement).text).toOption =
        some ("DELETE FROM \"boats\" WHERE \"tenant_id\" = $1 AND \"skipper\" = $2 AND " ++
          "\"sold\" IS NULL RETURNING *") := by
  obtain ⟨equalities, -, idle⟩ :=
    equalities_of_read boatDraft (some boatTable.name) boatParameters
  have kept : boatParameters.filter Query.asksEquality = boatEqualities := rfl
  have equated : boatDraft.equated (some boatTable.name) boatParameters =
      (boatDraft.bind [.text "Ada"],
        .ok (boatConditions, ["\"boats\".\"skipper\" = $2", "\"boats\".\"sold\" IS NULL"])) := rfl
  have same : Query.SameActive boatParameters boatEqualities := by decide
  have filtered := equalities _ _ _ equated
  rw [kept] at filtered
  obtain ⟨deleted, -⟩ := idle boatEqualities same ⟨.ofTable boatTable, .forTenant "north"⟩ boatTable
  refine ⟨filtered, same, ?_⟩
  rw [deleted]
  decide +kernel

end Compile

end TableGate

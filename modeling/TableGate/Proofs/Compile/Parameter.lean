import Mathlib.Data.List.Forall2
import TableGate.Proofs.Compile.Check
import TableGate.Proofs.Compile.Naming
import TableGate.Proofs.Compile.Reading

/-!
# Parameters of a write

A write takes the parameters whose value begins with `eq.`, and makes an equality of each
(`forall₂_of_equalityFilters`).  The names of all parameters that are not reserved have to be
identifiers, and nothing else is checked (`makes_equalityFilters`).
-/

namespace TableGate

open Sql (Condition)

/-- A parameter asks for equality: its name is not reserved and its value begins with `eq.`. -/
def Query.asksEquality (parameter : String × String) : Bool :=
  !isReserved parameter.1 && "eq.".toList.isPrefixOf parameter.2.toList

/-- The condition that a column equals an operand: the words `null`, `true` and `false` stand for
themselves, any other operand is bound as it is. -/
inductive Sql.Condition.Equates (column : Ident) : String → Condition → Prop
  | null : Equates column "null" (.single (.isNull ⟨none, column⟩))
  | flag (value : Bool) :
      Equates column (if value then "true" else "false")
        (.single (.equalsFlag ⟨none, column⟩ value))
  | value {operand : String} (plain : operand ∉ ["null", "true", "false"]) :
      Equates column operand (.single (.compare ⟨none, column⟩ .equal (.text operand)))

/-- A condition is the equality that a parameter asks for. -/
def Sql.Condition.AskedBy (parameter : String × String) (condition : Condition) : Prop :=
  ∃ (column : Ident) (operand : String), column.text = parameter.1 ∧
    parameter.2 = "eq." ++ operand ∧ Equates column operand condition

/-- A filter for equality is the condition that its column equals its operand. -/
theorem Filter.equates_predicate (column : Ident) (operand : String) :
    Condition.Equates column operand (.single (Filter.predicate none ⟨column, .eq, operand⟩)) := by
  unfold Filter.predicate
  cases literal : Literal.ofOperand? operand with
  | none =>
      refine .value fun word => ?_
      simp only [List.mem_cons, List.not_mem_nil, or_false] at word
      rcases word with rfl | rfl | rfl <;> exact absurd literal nofun
  | some found =>
      unfold Literal.ofOperand? at literal
      split at literal
      · cases literal
        exact .flag true
      · cases literal
        exact .flag false
      · cases literal
        exact .null
      · exact absurd literal nofun

namespace Compile

section

variable {α β : Type} {values : β → List Datum} {accept : α → Outcome (Option β)}

/-- Where the items that are left out are known, the others are accepted one by one. -/
theorem forall₂_of_acceptAll {kept : α → Bool}
    (decided : ∀ item found, accept item = .ok found → found.isSome = kept item)
    {items : List α} {results : List β} (accepted : acceptAll values accept items = .ok results) :
    List.Forall₂ (fun item result => accept item = .ok (some result)) (items.filter kept)
      results := by
  induction items generalizing results with
  | nil =>
      cases accepted
      exact .nil
  | cons item rest ih =>
      rw [acceptAll] at accepted
      cases outcome : accept item with
      | error refusal =>
          rw [outcome] at accepted
          cases accepted
      | ok found =>
          -- What the item is accepted as decides whether the filter keeps it.
          have keeps := decided item found outcome
          rw [outcome] at accepted
          cases found with
          | none =>
              rw [List.filter_cons_of_neg (by simp [← keeps])]
              exact ih accepted
          | some result =>
              obtain ⟨others, inner, rfl⟩ := map_eq_ok.mp accepted
              rw [List.filter_cons_of_pos keeps.symm]
              exact .cons outcome (ih (Outcome.after_eq_ok.mp inner))

end

/-- The filter of a parameter is one for equality exactly where its value begins with `eq.`. -/
theorem ofParameter_cases {name value : String} {filter : Option Filter}
    (read : Filter.ofParameter name value = .ok filter) :
    (∃ column operand, column.text = name ∧ value = "eq." ++ operand ∧
        filter = some ⟨column, .eq, operand⟩) ∨
      (¬ "eq.".toList <+: value.toList ∧ ∀ found, filter = some found → found.operator ≠ .eq) := by
  by_cases asked : "eq.".toList <+: value.toList
  · obtain ⟨operand, shape⟩ := asked
    obtain rfl : "eq." ++ String.ofList operand = value := by
      apply String.toList_injective
      rw [← shape]
      simp
    obtain ⟨column, named, -⟩ := bind_eq_ok.mp read
    have spelled : Filter.ofParameter name ("eq." ++ String.ofList operand) =
        .ok (some ⟨column, .eq, String.ofList operand⟩) :=
      Filter.ofParameter_eq_some_iff.mpr ⟨(Ident.text_of_read named).symm, rfl⟩
    rw [spelled] at read
    exact .inl ⟨column, _, Ident.text_of_read named, rfl, (Except.ok.inj read).symm⟩
  · refine .inr ⟨asked, ?_⟩
    -- No other word names the operator, so a filter for equality would spell the beginning.
    rintro found rfl same
    obtain ⟨-, spelled⟩ := Filter.ofParameter_eq_some_iff.mp read
    rw [spelled, Filter.toList_spelling, same] at asked
    exact asked ⟨found.operand.toList, rfl⟩

variable {table : Option Ident} {parameter : String × String} {found : Option Condition}

/-- A parameter that asks for equality is taken for a filter with that operator; any other one is
left out, unless it is refused. -/
theorem writeFilter_eq_ok (read : writeFilter table parameter = .ok found) :
    (Query.asksEquality parameter = false ∧ found = none) ∨
      (Query.asksEquality parameter = true ∧ ∃ column operand, column.text = parameter.1 ∧
        parameter.2 = "eq." ++ operand ∧
          found = some (.single (Filter.predicate table ⟨column, .eq, operand⟩))) := by
  obtain ⟨name, value⟩ := parameter
  unfold writeFilter at read
  split at read
  · next reserved =>
      cases read
      exact .inl
        ⟨by simp [Query.asksEquality, show Query.isReserved name = true from reserved], rfl⟩
  · next unreserved =>
      have plain : Query.isReserved name = false := (Bool.not_eq_true _).mp unreserved
      obtain ⟨filter, checked, rfl⟩ := map_eq_ok.mp read
      rcases ofParameter_cases (Outcome.ofCheck_eq_ok.mp checked) with
        ⟨column, operand, named, shape, rfl⟩ | ⟨other, apart⟩
      · obtain rfl : value = "eq." ++ operand := shape
        exact .inr ⟨by simp [Query.asksEquality, plain], column, operand, named, rfl, rfl⟩
      · have dropped : filter.filter (fun filter => filter.operator == .eq) = none := by
          cases filter with
          | none => rfl
          | some found => simpa using apart found rfl
        have unasked : "eq.".toList.isPrefixOf value.toList = false := by
          rw [← Bool.not_eq_true, List.isPrefixOf_iff_prefix]
          exact other
        rw [dropped, Query.asksEquality, plain, unasked]
        exact .inl ⟨rfl, rfl⟩

/-- The parameters that ask for equality are those that a write makes a condition of. -/
theorem isSome_of_writeFilter (read : writeFilter table parameter = .ok found) :
    found.isSome = Query.asksEquality parameter := by
  rcases writeFilter_eq_ok read with ⟨unasked, rfl⟩ | ⟨asked, _, _, -, -, rfl⟩
  · exact unasked.symm
  · exact asked.symm

theorem askedBy_of_writeFilter {condition : Condition}
    (read : writeFilter none parameter = .ok (some condition)) : condition.AskedBy parameter := by
  rcases writeFilter_eq_ok read with ⟨-, none⟩ | ⟨-, column, operand, named, shape, same⟩
  · exact absurd none (Option.some_ne_none condition)
  · obtain rfl := Option.some.inj same
    exact ⟨column, operand, named, shape, Filter.equates_predicate column operand⟩

variable {query : Query} {conditions : List Condition}

/-- The conditions of a write are the equalities that its parameters ask for. -/
theorem forall₂_of_equalityFilters
    (compiled : equalityFilters none query.pairs = .ok conditions) :
    List.Forall₂ Condition.AskedBy (query.pairs.filter Query.asksEquality) conditions := by
  have accepted := forall₂_of_acceptAll (fun _ _ read => isSome_of_writeFilter read) compiled
  exact accepted.imp fun _ _ read => askedBy_of_writeFilter read

/-! ### Checks -/

theorem makes_ofParameter (name value : String) :
    Makes [.name name] (Filter.ofParameter name value) := by
  refine (makes_read name).bind fun column _ => ?_
  cases Text.cutAt '.' value.toList with
  | none => exact makes_ok none
  | some parts => exact makes_ok _

/-- The names of the parameters that are not reserved are the only ones that are checked. -/
theorem makes_equalityFilters (table : Option Ident) (query : Query) :
    Makes (query.filterNames.map .name) (equalityFilters table query.pairs).toExcept := by
  have each (parameter : String × String) :
      Makes (if Query.isReserved parameter.1 then [] else [.name parameter.1])
        (writeFilter table parameter).toExcept := by
    unfold writeFilter
    split
    · exact makes_ok none
    · rw [Outcome.toExcept_map, Outcome.toExcept_ofCheck]
      exact (makes_ofParameter parameter.1 parameter.2).map _
  have checks : (query.pairs.flatMap fun parameter =>
      if Query.isReserved parameter.1 then [] else [Check.name parameter.1]) =
        query.filterNames.map .name := by
    unfold Query.filterNames
    induction query.pairs with
    | nil => rfl
    | cons parameter rest ih =>
        rw [List.flatMap_cons, ih, List.map_cons]
        cases reserved : Query.isReserved parameter.1 with
        | true => rw [List.filter_cons_of_neg (by simp [reserved])]; rfl
        | false => rw [List.filter_cons_of_pos (by simp [reserved])]; rfl
  rw [← checks]
  exact Makes.acceptAll fun parameter _ => each parameter

/-- A write needs a parameter that asks for equality. -/
def Check.filter (action : String) (query : Query) : Check :=
  .of (∀ parameter ∈ query.pairs, Query.asksEquality parameter = false) (.missingFilter action)

theorem makes_requiredFilters (action : String) (query : Query) :
    Makes (query.filterNames.map .name ++ [.filter action query])
      (requiredFilters action query) := by
  refine (makes_equalityFilters none query).bind fun conditions read => ?_
  refine Makes.guard ?_ (makes_ok conditions)
  have counts := (forall₂_of_equalityFilters (Outcome.toExcept_eq_ok.mp read)).length_eq
  rw [List.isEmpty_iff_length_eq_zero, ← counts, List.length_eq_zero_iff, List.filter_eq_nil_iff]
  simp only [Bool.not_eq_true]

end Compile

end TableGate

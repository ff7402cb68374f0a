import TableGate.Proofs.Compile.Alternative
import TableGate.Proofs.Compile.Parameter

/-!
# Parameters of a read

A read makes a condition of every filter and of every group with an alternative left
(`Condition.ReadFrom`), in the order of the parameters, and of no other parameter
(`kept_of_filters`).  The names of the parameters that are not reserved, and the columns of the
alternatives, have to be identifiers, and nothing else is checked (`makes_filters`).
-/

namespace TableGate

open Sql (Condition Predicate)

/-- Results that some items give, in the order of the items; the items between them give none. -/
inductive Kept {α β : Type} (gives : α → β → Prop) : List α → List β → Prop
  | nil : Kept gives [] []
  | skip {item : α} {items : List α} {results : List β} (none : ∀ result, ¬ gives item result)
      (rest : Kept gives items results) : Kept gives (item :: items) results
  | keep {item : α} {result : β} {items : List α} {results : List β} (found : gives item result)
      (rest : Kept gives items results) : Kept gives (item :: items) (result :: results)

/-- Items that give one result at most leave no choice. -/
theorem Kept.unique {α β : Type} {gives : α → β → Prop} (functional : Relator.RightUnique gives)
    {items : List α} {first second : List β} (left : Kept gives items first)
    (right : Kept gives items second) : first = second := by
  induction left generalizing second with
  | nil =>
      cases right
      rfl
  | skip none _ ih =>
      cases right with
      | skip _ rest => exact ih rest
      | keep found _ => exact absurd found (none _)
  | keep found _ ih =>
      cases right with
      | skip none _ => exact absurd found (none _)
      | keep other rest => rw [functional found other, ih rest]

/-- A filter stands in a group as a piece: its column between blanks, a dot and its spelling. -/
def Filter.IsPiece (piece : List Char) (filter : Filter) : Prop :=
  filter.operator.allowedInGroup = true ∧
    ∃ written, Text.Padded filter.column.text.toList written ∧
      piece = written ++ '.' :: filter.spelling.toList

/-- A predicate is that of a filter that stands in a group as a piece. -/
def Sql.Predicate.ReadFrom (table : Option Ident) (piece : List Char) (predicate : Predicate) :
    Prop :=
  ∃ filter, Filter.IsPiece piece filter ∧ predicate = filter.predicate table

/-- A condition of a read is made of a parameter: a filter, under a name that is not reserved, or a
group with an alternative left. -/
inductive Sql.Condition.ReadFrom (table : Option Ident) (parameter : String × String) :
    Condition → Prop
  | filter {filter : Filter} (plain : Query.isReserved parameter.1 = false)
      (named : parameter.1 = filter.column.text) (spelled : parameter.2 = filter.spelling) :
      ReadFrom table parameter (.single (filter.predicate table))
  | group {alternatives : List Predicate} (named : parameter.1 = "or")
      (kept : Kept (Predicate.ReadFrom table) (Compile.groupPieces parameter.2) alternatives)
      (present : alternatives ≠ []) : ReadFrom table parameter (.anyOf alternatives)

namespace Compile

variable {table : Option Ident} {piece : List Char} {parameter : String × String}

/-- What is accepted are the results that the items give. -/
theorem kept_of_acceptAll {α β : Type} {values : β → List Datum} {accept : α → Outcome (Option β)}
    {gives : α → β → Prop} {items : List α} {results : List β}
    (decided : ∀ item found, accept item = .ok found → ∀ result,
      gives item result ↔ found = some result)
    (accepted : acceptAll values accept items = .ok results) : Kept gives items results := by
  induction items generalizing results with
  | nil =>
      cases accepted
      exact .nil
  | cons item rest ih =>
      rw [acceptAll] at accepted
      cases outcome : accept item with
      | error refusal =>
          rw [outcome] at accepted
          cases accepted
      | ok found =>
          have gives := decided item found outcome
          rw [outcome] at accepted
          cases found with
          | none =>
              have none (result : β) : ¬ _ := fun given =>
                Option.some_ne_none result ((gives result).mp given).symm
              exact .skip none (ih accepted)
          | some result =>
              obtain ⟨others, inner, rfl⟩ := map_eq_ok.mp accepted
              exact .keep ((gives result).mpr rfl) (ih (Outcome.after_eq_ok.mp inner))

/-! ### Pieces of a group -/

theorem readFrom_iff_of_readAlternative {found : Option Predicate}
    (read : readAlternative table piece = .ok found) (predicate : Predicate) :
    Predicate.ReadFrom table piece predicate ↔ found = some predicate := by
  obtain ⟨filter, checked, rfl⟩ := map_eq_ok.mp read
  have known := Outcome.ofCheck_eq_ok.mp checked
  rw [Option.map_eq_some_iff]
  constructor
  · rintro ⟨made, isPiece, rfl⟩
    rw [Filter.ofAlternative_eq_some_iff.mpr isPiece] at known
    exact ⟨made, (Except.ok.inj known).symm, rfl⟩
  · rintro ⟨made, rfl, rfl⟩
    exact ⟨made, Filter.ofAlternative_eq_some_iff.mp known, rfl⟩

/-- A piece is that of one filter only. -/
theorem readFrom_rightUnique (table : Option Ident) :
    Relator.RightUnique (Predicate.ReadFrom table) := by
  rintro piece _ _ ⟨first, firstPiece, rfl⟩ ⟨second, secondPiece, rfl⟩
  have same := (Filter.ofAlternative_eq_some_iff.mpr firstPiece).symm.trans
    (Filter.ofAlternative_eq_some_iff.mpr secondPiece)
  rw [Option.some.inj (Except.ok.inj same)]

/-! ### Parameters -/

/-- A group is made the condition of its alternatives, if it has one. -/
theorem readFrom_iff_of_group {found : Option Condition} (named : parameter.1 = "or")
    (read : group table parameter.2 = .ok found) (condition : Condition) :
    Condition.ReadFrom table parameter condition ↔ found = some condition := by
  rw [group_eq] at read
  obtain ⟨alternatives, accepted, rfl⟩ := map_eq_ok.mp read
  have kept := kept_of_acceptAll (fun _ _ => readFrom_iff_of_readAlternative) accepted
  simp only [List.isEmpty_iff, ite_eq_iff, reduceCtorEq, and_false, false_or, Option.some.injEq]
  constructor
  · rintro (⟨plain, -, -⟩ | ⟨-, others, present⟩)
    · rw [named] at plain
      exact absurd plain (by decide)
    · rw [kept.unique (readFrom_rightUnique table) others]
      exact ⟨present, rfl⟩
  · rintro ⟨present, rfl⟩
    exact .group named kept present

/-- Any other parameter under a name that is not reserved is made the condition of its filter, if it
is one. -/
theorem readFrom_iff_of_ofParameter {found : Option Filter} (other : parameter.1 ≠ "or")
    (plain : Query.isReserved parameter.1 = false)
    (read : Filter.ofParameter parameter.1 parameter.2 = .ok found) (condition : Condition) :
    Condition.ReadFrom table parameter condition ↔
      found.map (fun filter => .single (filter.predicate table)) = some condition := by
  rw [Option.map_eq_some_iff]
  constructor
  · rintro (⟨-, named, spelled⟩ | ⟨named, -, -⟩)
    · rw [Filter.ofParameter_eq_some_iff.mpr ⟨named, spelled⟩] at read
      exact ⟨_, (Except.ok.inj read).symm, rfl⟩
    · exact absurd named other
  · rintro ⟨made, rfl, rfl⟩
    obtain ⟨named, spelled⟩ := Filter.ofParameter_eq_some_iff.mp read
    exact .filter plain named spelled

/-- A parameter that is not refused is made the condition that is read from it, if there is one. -/
theorem readFrom_iff_of_readFilter {found : Option Condition}
    (read : readFilter table parameter = .ok found) (condition : Condition) :
    Condition.ReadFrom table parameter condition ↔ found = some condition := by
  unfold readFilter at read
  split at read
  · next named => exact readFrom_iff_of_group named read condition
  · next other =>
      split at read
      · next reserved =>
          cases read
          refine ⟨?_, nofun⟩
          rintro (⟨plain, -, -⟩ | ⟨named, -, -⟩)
          · rw [reserved] at plain
            exact absurd plain nofun
          · exact absurd named other
      · next unreserved =>
          obtain ⟨filter, checked, rfl⟩ := map_eq_ok.mp read
          exact readFrom_iff_of_ofParameter other ((Bool.not_eq_true _).mp unreserved)
            (Outcome.ofCheck_eq_ok.mp checked) condition

/-- The conditions of a read are those that its parameters give, in their order. -/
theorem kept_of_filters {parameters : List (String × String)} {conditions : List Condition}
    (compiled : filters table parameters = .ok conditions) :
    Kept (Condition.ReadFrom table) parameters conditions :=
  kept_of_acceptAll (fun _ _ => readFrom_iff_of_readFilter) compiled

/-! ### Checks -/

/-- The column of a piece with three parts between dots at least. -/
def columnOf? (piece : List Char) : Option String :=
  match piece.splitOn '.' with
  | column :: _ :: _ :: _ => some (String.ofList (Text.trim column))
  | _ => none

/-- The names in a parameter of a read that have to be identifiers. -/
def checkedNames (parameter : String × String) : List String :=
  if parameter.1 = "or" then (groupPieces parameter.2).filterMap columnOf?
  else if Query.isReserved parameter.1 then [] else [parameter.1]

theorem columnOf?_eq (piece : List Char) :
    columnOf? piece =
      (Filter.cutAlternative? piece).map fun parts => String.ofList (Text.trim parts.1) := by
  unfold columnOf? Filter.cutAlternative?
  cases one : Text.cutAt '.' piece with
  | none =>
      rw [List.splitOn_eq_singleton (Text.cutAt_eq_none_iff.mp one)]
      rfl
  | some parts =>
      obtain ⟨column, rest⟩ := parts
      obtain ⟨rfl, apart⟩ := Text.cutAt_eq_some_iff.mp one
      rw [List.splitOn_append_cons_self_of_not_mem apart]
      cases two : Text.cutAt '.' rest with
      | none =>
          rw [List.splitOn_eq_singleton (Text.cutAt_eq_none_iff.mp two)]
          simp [two]
      | some parts =>
          obtain ⟨operator, operand⟩ := parts
          obtain ⟨rfl, inside⟩ := Text.cutAt_eq_some_iff.mp two
          rw [List.splitOn_append_cons_self_of_not_mem inside]
          obtain ⟨last, more, shape⟩ := List.exists_cons_of_ne_nil (List.splitOn_ne_nil '.' operand)
          simp [shape, two]

theorem makes_readAlternative (table : Option Ident) (piece : List Char) :
    Makes ((columnOf? piece).toList.map .name) (readAlternative table piece).toExcept := by
  rw [readAlternative, Outcome.toExcept_map, Outcome.toExcept_ofCheck, columnOf?_eq]
  refine Makes.map ?_ _
  unfold Filter.ofAlternative
  cases Filter.cutAlternative? piece with
  | none => exact makes_ok none
  | some parts => exact (makes_read _).bind fun column _ => makes_ok _

theorem makes_readFilter (table : Option Ident) (parameter : String × String) :
    Makes ((checkedNames parameter).map .name) (readFilter table parameter).toExcept := by
  unfold checkedNames readFilter
  split
  · rw [group_eq, Outcome.toExcept_map, List.filterMap_eq_flatMap_toList, List.map_flatMap]
    exact (Makes.acceptAll fun piece _ => makes_readAlternative table piece).map _
  · split
    · exact makes_ok none
    · rw [Outcome.toExcept_map, Outcome.toExcept_ofCheck]
      exact (makes_ofParameter parameter.1 parameter.2).map _

theorem makes_filters (table : Option Ident) (parameters : List (String × String)) :
    Makes ((parameters.flatMap checkedNames).map .name) (filters table parameters).toExcept := by
  rw [List.map_flatMap]
  exact Makes.acceptAll fun parameter _ => makes_readFilter table parameter

/-- The first of some names that is no identifier is the one that is reported. -/
theorem firstFailure_names_iff {names : List String} {error : Error} :
    FirstFailure (names.map .name) error ↔
      ∃ name, names.find? (fun name => !isIdentifier name) = some name ∧
        error = .invalidIdentifier name := by
  induction names with
  | nil => exact ⟨nofun, fun ⟨_, found, _⟩ => nomatch found⟩
  | cons name rest ih =>
      rw [List.map_cons, firstFailure_cons, ih, passes_name_iff]
      cases valid : isIdentifier name with
      | true => simp [valid, Check.name, Check.of]
      | false => simp [valid, Check.name, Check.of]

end Compile

end TableGate

import Mathlib.Data.List.Forall2
import TableGate.Proofs.Compile.Drafting
import TableGate.Proofs.Compile.Reading
import TableGate.Proofs.Text.Nested

/-!
# Alternatives

A group of alternatives is written as filters with commas between them, in parentheses
(`SpelledFilter.groupText`), and is cut into these filters again as long as their operands close
what they open (`groupPieces_groupText`).  So a group compiles to the filters that may stand in it,
as if each were the only parameter (`draft_of_groupText`).
-/

namespace TableGate

open Sql (Condition)

/-- A filter as it is spelled, with any word in the place of its operator. -/
structure SpelledFilter where
  column : Ident
  word : String
  operand : String
deriving DecidableEq, Repr

namespace SpelledFilter

/-- The value of the parameter that asks for the filter. -/
def value (spelled : SpelledFilter) : String := spelled.word ++ "." ++ spelled.operand

/-- The filter as an alternative. -/
def text (spelled : SpelledFilter) : String := spelled.column.text ++ "." ++ spelled.value

/-- The value of the parameter that asks for one of the filters. -/
def groupText (alternatives : List SpelledFilter) : String :=
  "(" ++ ",".intercalate (alternatives.map text) ++ ")"

/-- Whether the word is that of an operator for groups. -/
def isAlternative (spelled : SpelledFilter) : Bool :=
  ["eq", "is", "gt", "gte", "lt", "lte"].contains spelled.word

/-- Whether the word is one of ASCII letters, and the operand closes what it opens and has no comma
outside quotes and parentheses. -/
structure WellSpelled (spelled : SpelledFilter) : Prop where
  letters : ∀ c ∈ spelled.word.toList, c.isAlpha = true
  nested : Text.isNested false 0 spelled.operand.toList = true

variable {spelled : SpelledFilter} {alternatives : List SpelledFilter}

theorem toList_value (spelled : SpelledFilter) :
    spelled.value.toList = spelled.word.toList ++ '.' :: spelled.operand.toList := by
  simp [value]

theorem toList_text (spelled : SpelledFilter) :
    spelled.text.toList = spelled.column.text.toList ++ '.' :: spelled.value.toList := by
  simp [text]

theorem toList_groupText (alternatives : List SpelledFilter) :
    (groupText alternatives).toList =
      '(' :: [','].intercalate (alternatives.map fun spelled => spelled.text.toList) ++ [')'] := by
  have texts : (alternatives.map text).map String.toList =
      alternatives.map fun spelled => spelled.text.toList := List.map_map
  simp [groupText, texts]

/-! ### Pieces of a group -/

theorem isNested_text (wellSpelled : spelled.WellSpelled) :
    Text.isNested false 0 spelled.text.toList = true := by
  have dot {rest : List Char} : Text.isNested false 0 ('.' :: rest) = Text.isNested false 0 rest :=
    Text.isNested_append (List.forall_mem_singleton.mpr (by decide)) rest
  have word : ∀ c ∈ spelled.word.toList, c ∉ Text.marks := fun c member =>
    not_mem_marks_of_isIdentPart (by simp [isIdentPart, wellSpelled.letters c member])
  rw [toList_text, Text.isNested_append spelled.column.not_mem_marks, dot, toList_value,
    Text.isNested_append word, dot]
  exact wellSpelled.nested

theorem isBlankText_text (spelled : SpelledFilter) :
    Text.isBlankText spelled.text.toList = false := by
  rw [toList_text, Text.isBlankText_append, spelled.column.isBlankText_text, Bool.false_and]

/-- A group is cut into the filters it is made of. -/
theorem groupPieces_groupText (wellSpelled : ∀ spelled ∈ alternatives, spelled.WellSpelled) :
    Compile.groupPieces (groupText alternatives) =
      alternatives.map fun spelled => spelled.text.toList := by
  rw [Compile.groupPieces, toList_groupText, Text.trim_of_edges (by decide) (by decide),
    Text.inner_of_edges]
  apply Text.splitTopLevel_intercalate
  · intro piece member
    obtain ⟨spelled, listed, rfl⟩ := List.mem_map.mp member
    exact Text.isPiece_of_isNested (isNested_text (wellSpelled spelled listed))
  · intro piece member
    obtain ⟨spelled, -, rfl⟩ := List.mem_map.mp member
    exact isBlankText_text spelled

/-! ### Filters of a group -/

/-- The filter that is spelled, if the word is that of an operator. -/
def filter? (spelled : SpelledFilter) : Option Filter :=
  Filter.ofSpelling? spelled.column spelled.value.toList

theorem ofParameter_value (spelled : SpelledFilter) :
    Filter.ofParameter spelled.column.text spelled.value = .ok spelled.filter? := by
  rw [Filter.ofParameter_eq, Ident.read_text]
  rfl

/-- The filter of an alternative is that of a parameter, if it may stand in a group. -/
theorem ofAlternative_text (spelled : SpelledFilter) :
    Filter.ofAlternative spelled.text.toList =
      .ok (spelled.filter?.filter fun filter => filter.operator.allowedInGroup) := by
  have dot : '.' ∈ spelled.value.toList := by simp [toList_value]
  rw [toList_text, Filter.ofAlternative_append (spelled.column.not_mem_text (by decide)) dot,
    spelled.column.trim_text, String.ofList_toList, Ident.read_text]
  rfl

theorem dot_not_mem_word (wellSpelled : spelled.WellSpelled) : '.' ∉ spelled.word.toList :=
  fun member => absurd (wellSpelled.letters '.' member) (by decide)

theorem isSome_filter? (wellSpelled : spelled.WellSpelled) :
    (spelled.filter?.filter fun filter => filter.operator.allowedInGroup).isSome =
      spelled.isAlternative := by
  rw [filter?, toList_value, Filter.ofSpelling?_append (dot_not_mem_word wellSpelled),
    String.ofList_toList, String.ofList_toList, Option.filter_map, Option.isSome_map]
  exact Operator.isSome_allowed spelled.word

end SpelledFilter

namespace Compile

section

variable {α β γ : Type} {values : β → List Datum} {accept : α → Outcome (Option β)}

/-- Where no item is refused, those that are not left out are accepted. -/
theorem acceptAll_of_ok {make : γ → α} {read : γ → Option β} {items : List γ}
    (each : ∀ item ∈ items, accept (make item) = .ok (read item)) :
    acceptAll values accept (items.map make) = .ok (items.filterMap read) := by
  induction items with
  | nil => rfl
  | cons item rest ih =>
      have first := each item List.mem_cons_self
      have others := ih fun other later => each other (List.mem_cons_of_mem _ later)
      rw [List.map_cons, acceptAll, first, others]
      cases found : read item with
      | none => rw [List.filterMap_cons_none found]
      | some result =>
          rw [List.filterMap_cons_some found]
          rfl

/-- The items that are read are those that are kept. -/
theorem forall₂_filterMap {read : α → Option β} {kept : α → Bool} {items : List α}
    (decided : ∀ item ∈ items, (read item).isSome = kept item) :
    List.Forall₂ (fun item result => read item = some result) (items.filter kept)
      (items.filterMap read) := by
  induction items with
  | nil => exact .nil
  | cons item rest ih =>
      have keeps := decided item List.mem_cons_self
      have others := ih fun other later => decided other (List.mem_cons_of_mem _ later)
      cases found : read item with
      | none =>
          rw [List.filter_cons_of_neg (by simp [← keeps, found]), List.filterMap_cons_none found]
          exact others
      | some result =>
          rw [List.filter_cons_of_pos (by simp [← keeps, found]), List.filterMap_cons_some found]
          exact .cons found others

end

/-- The predicate of a piece of a group. -/
def readAlternative (table : Option Ident) (piece : List Char) : Outcome (Option Sql.Predicate) :=
  (Outcome.ofCheck (Filter.ofAlternative piece)).map fun filter =>
    filter.map (Filter.predicate table)

theorem group_eq (table : Option Ident) (value : String) :
    group table value =
      (acceptAll (fun predicate => predicate.tokens.values) (readAlternative table)
        (groupPieces value)).map fun alternatives =>
          if alternatives.isEmpty then none else some (.anyOf alternatives) := rfl

variable {alternatives : List SpelledFilter}

/-- A group keeps the filters whose word is that of an operator for groups, and is no condition
where none is left. -/
theorem group_groupText (table : Option Ident)
    (wellSpelled : ∀ spelled ∈ alternatives, spelled.WellSpelled) :
    ∃ kept, group table (SpelledFilter.groupText alternatives) =
        .ok (if kept = [] then none else some (.anyOf (kept.map (Filter.predicate table)))) ∧
      List.Forall₂
        (fun spelled filter =>
          Filter.ofParameter spelled.column.text spelled.value = .ok (some filter))
        (alternatives.filter SpelledFilter.isAlternative) kept := by
  let read (spelled : SpelledFilter) : Option Filter :=
    spelled.filter?.filter fun filter => filter.operator.allowedInGroup
  have pieces (spelled : SpelledFilter) : readAlternative table spelled.text.toList =
      .ok ((read spelled).map (Filter.predicate table)) := by
    rw [readAlternative, SpelledFilter.ofAlternative_text]
    rfl
  refine ⟨alternatives.filterMap read, ?_, ?_⟩
  · rw [group_eq, SpelledFilter.groupPieces_groupText wellSpelled,
      acceptAll_of_ok fun spelled _ => pieces spelled, ← List.map_filterMap]
    simp only [Except.map, List.isEmpty_iff, List.map_eq_nil_iff]
  · have kept := forall₂_filterMap fun spelled listed =>
      SpelledFilter.isSome_filter? (wellSpelled spelled listed)
    refine kept.imp fun spelled filter found => ?_
    rw [SpelledFilter.ofParameter_value, (Option.filter_eq_some_iff.mp found).1]

/-- A group of filters is one condition, the alternatives of which are the filters that may stand in
a group, rendered one after another as if each were a parameter; it is no condition, and binds
nothing, where no such filter is left. -/
theorem draft_of_groupText (draft : Draft) (table : Option Ident)
    (wellSpelled : ∀ spelled ∈ alternatives, spelled.WellSpelled) :
    ∃ kept,
      List.Forall₂
        (fun spelled filter =>
          Filter.ofParameter spelled.column.text spelled.value = .ok (some filter))
        (alternatives.filter SpelledFilter.isAlternative) kept ∧
      draft.afterOutcome (fun found => found.toList.map Condition.tokens)
          (group table (SpelledFilter.groupText alternatives)) =
        if kept = [] then (draft, .ok (none, []))
        else
          ((draft.render table kept).1,
            .ok (some (.anyOf (kept.map (Filter.predicate table))),
              ["(" ++ " OR ".intercalate (draft.render table kept).2 ++ ")"])) := by
  obtain ⟨kept, compiled, each⟩ := group_groupText table wellSpelled
  refine ⟨kept, each, ?_⟩
  rw [compiled]
  by_cases none : kept = []
  · rw [if_pos none, if_pos none, Draft.afterOutcome, Option.toList_none, List.map_nil,
      Draft.place_nil]
  · rw [if_neg none, if_neg none, Draft.afterOutcome, Option.toList_some, List.map_singleton,
      Draft.place_anyOf]

/-- Filters with dots, quotes and parentheses in their operands; the second one may not stand in a
group, and the third one binds nothing. -/
def mixedAlternatives : List SpelledFilter :=
  [⟨⟨"subject", by decide⟩, "eq", "a.b"⟩, ⟨⟨"subject", by decide⟩, "like", "c"⟩,
    ⟨⟨"done", by decide⟩, "is", "true"⟩, ⟨⟨"note", by decide⟩, "gte", "\"x,y)\"(p,q)"⟩]

/-- The mixed filters that are kept. -/
def mixedKept : List Filter :=
  [⟨⟨"subject", by decide⟩, .eq, "a.b"⟩, ⟨⟨"done", by decide⟩, .is, "true"⟩,
    ⟨⟨"note", by decide⟩, .gte, "\"x,y)\"(p,q)"⟩]

/-- The table of the mixed filters. -/
def mixedTable : Ident := ⟨"tasks", by decide⟩

/-- A draft with one value. -/
def startedDraft : Draft := { values := [.null] }

theorem draft_of_groupText_mixed :
    SpelledFilter.groupText mixedAlternatives =
        "(subject.eq.a.b,subject.like.c,done.is.true,note.gte.\"x,y)\"(p,q))" ∧
      (∀ spelled ∈ mixedAlternatives, spelled.WellSpelled) ∧
      startedDraft.afterOutcome (fun found => found.toList.map Condition.tokens)
          (group (some mixedTable) (SpelledFilter.groupText mixedAlternatives)) =
        (startedDraft.bind [.text "a.b", .text "\"x,y)\"(p,q)"],
          .ok (some (.anyOf (mixedKept.map (Filter.predicate (some mixedTable)))),
            ["(\"tasks\".\"subject\" = $2 OR \"tasks\".\"done\" IS TRUE OR " ++
              "\"tasks\".\"note\" >= $3)"])) := by
  have wellSpelled : ∀ spelled ∈ mixedAlternatives, spelled.WellSpelled := by
    simp only [mixedAlternatives, List.forall_mem_cons]
    exact ⟨⟨List.all_eq_true.mp rfl, rfl⟩, ⟨List.all_eq_true.mp rfl, rfl⟩,
      ⟨List.all_eq_true.mp rfl, rfl⟩, ⟨List.all_eq_true.mp rfl, rfl⟩, List.forall_mem_nil _⟩
  obtain ⟨kept, each, compiled⟩ :=
    draft_of_groupText startedDraft (some mixedTable) wellSpelled
  have expected : List.Forall₂
      (fun spelled filter =>
        Filter.ofParameter spelled.column.text spelled.value = .ok (some filter))
      (mixedAlternatives.filter SpelledFilter.isAlternative) mixedKept :=
    .cons rfl (.cons rfl (.cons rfl .nil))
  have unique : Relator.RightUnique fun (spelled : SpelledFilter) filter =>
      Filter.ofParameter spelled.column.text spelled.value = .ok (some filter) := by
    intro spelled first second left right
    rw [left] at right
    exact Option.some.inj (Except.ok.inj right)
  obtain rfl : kept = mixedKept := List.right_unique_forall₂' unique each expected
  refine ⟨by decide +kernel, wellSpelled, compiled.trans ?_⟩
  have present : mixedKept ≠ [] := List.cons_ne_nil _ _
  have rendered : (startedDraft.render (some mixedTable) mixedKept).2 =
      ["\"tasks\".\"subject\" = $2", "\"tasks\".\"done\" IS TRUE",
        "\"tasks\".\"note\" >= $3"] := by
    decide +kernel
  rw [if_neg present, rendered]
  rfl

end Compile

end TableGate

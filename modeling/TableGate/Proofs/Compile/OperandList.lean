import TableGate.Draft
import TableGate.Proofs.Compile.Parameter
import TableGate.Proofs.Statement.Layout

/-!
# Lists as operands

A list operand whose items stand in double quotes is read as these items, whatever else they hold
(`Filter.listItems_quotedList`).  So a filter with such an operand compiles to the condition that
its column has one of them, with one placeholder for each (`Compile.draft_of_quotedList`).
-/

namespace TableGate

open Sql (Column Condition)

namespace Filter

/-- A list operand with each of its items in double quotes. -/
def quotedList (items : List String) : String :=
  "(" ++ ",".intercalate (items.map fun item => "\"" ++ item ++ "\"") ++ ")"

variable {items : List String}

theorem toList_quotedList (items : List String) :
    (quotedList items).toList =
      '(' :: [','].intercalate (items.map fun item => Text.quoted item.toList) ++ [')'] := by
  have pieces : items.map (String.toList ∘ fun item => "\"" ++ item ++ "\"") =
      items.map fun item => Text.quoted item.toList := by
    refine List.map_congr_left fun item _ => ?_
    simp [Text.quoted]
  simp [quotedList, pieces]

/-- The items of a list come back from their quotes. -/
theorem listItems_quotedList (plain : ∀ item ∈ items, '"' ∉ item.toList) :
    listItems (quotedList items) = items := by
  have split : Text.splitTopLevel
      ([','].intercalate (items.map fun item => Text.quoted item.toList)) =
        items.map fun item => Text.quoted item.toList := by
    apply Text.splitTopLevel_intercalate
    · intro piece member
      obtain ⟨item, listed, rfl⟩ := List.mem_map.mp member
      exact Text.isPiece_quoted (plain item listed)
    · intro piece member
      obtain ⟨item, -, rfl⟩ := List.mem_map.mp member
      exact Text.isBlankText_quoted item.toList
  have read (item : String) :
      String.ofList (Text.inner '"' '"' (Text.trim (Text.quoted item.toList))) = item := by
    rw [Text.trim_quoted, Text.quoted, Text.inner_of_edges, String.ofList_toList]
  rw [listItems, toList_quotedList, Text.trim_of_edges (by decide) (by decide),
    Text.inner_of_edges, split, List.map_map]
  exact (List.map_congr_left fun item _ => read item).trans (List.map_id items)

end Filter

namespace Compile

/-- A filter for one of some texts, each of them in quotes, compiles to one condition, which has a
placeholder for each text, numbered after the values that are bound already; no text at all is
matched by nothing.  This holds of every column, and the filter is that of a parameter unless its
name is reserved. -/
theorem draft_of_quotedList (draft : Draft) (table : Option Ident) (column : Ident)
    {items : List String} (plain : ∀ item ∈ items, '"' ∉ item.toList) :
    ∃ filter,
      Filter.ofParameter column.text ("in." ++ Filter.quotedList items) = .ok (some filter) ∧
      draft.place [(filter.predicate table).tokens] =
        (draft.bind (items.map Datum.text),
          [(Column.mk table column).withinText (draft.values.length + 1) items.length]) ∧
      (Query.isReserved column.text = false →
        draft.afterOutcome (List.map Condition.tokens)
            (filters table [(column.text, "in." ++ Filter.quotedList items)]) =
          (draft.bind (items.map Datum.text),
            .ok ([.single (filter.predicate table)],
              [(Column.mk table column).withinText (draft.values.length + 1) items.length]))) := by
  have read : Filter.ofParameter column.text ("in." ++ Filter.quotedList items) =
      .ok (some ⟨column, .oneOf, Filter.quotedList items⟩) :=
    Filter.ofParameter_eq_some_iff.mpr ⟨rfl, rfl⟩
  have predicate : Filter.predicate table ⟨column, .oneOf, Filter.quotedList items⟩ =
      .within ⟨table, column⟩ (items.map Datum.text) := by
    rw [Filter.predicate, Filter.listItems_quotedList plain]
    rfl
  have placed : draft.place [(Filter.predicate table
      ⟨column, .oneOf, Filter.quotedList items⟩).tokens] =
        (draft.bind (items.map Datum.text),
          [(Column.mk table column).withinText (draft.values.length + 1) items.length]) := by
    have values := Condition.values_within ⟨table, column⟩ (items.map Datum.text)
    change Sql.Fragment.values (Sql.Predicate.within _ _).tokens = _ at values
    rw [predicate, Draft.place, List.flatMap_singleton, values, Sql.Fragment.texts,
      Sql.Predicate.text_within, List.length_map]
    rfl
  refine ⟨_, read, placed, fun unreserved => ?_⟩
  have alone : filters table [(column.text, "in." ++ Filter.quotedList items)] =
      .ok [.single (Filter.predicate table ⟨column, .oneOf, Filter.quotedList items⟩)] := by
    have other : column.text ≠ "or" := by
      intro same
      rw [same] at unreserved
      exact absurd unreserved (by decide)
    rw [filters, acceptAll, readFilter, if_neg other, if_neg (by simp [unreserved]), read]
    rfl
  rw [alone]
  exact congrArg (fun placed => (placed.1, Except.ok ([Condition.single _], placed.2))) placed

/-- A draft with two values. -/
def markedDraft : Draft := { values := [.null, .bool true] }

/-- Items with what splits, trims and encloses a list, and an empty one. -/
def markedItems : List String := ["a,b", ")((", "", " x ", "1.5"]

/-- The table of the marked items. -/
def markedTable : Ident := ⟨"labels", by decide⟩

theorem draft_of_quotedList_marks :
    (∀ item ∈ markedItems, '"' ∉ item.toList) ∧
      Filter.quotedList markedItems = "(\"a,b\",\")((\",\"\",\" x \",\"1.5\")" ∧
      ∃ filter,
        Filter.ofParameter "tag" ("in." ++ Filter.quotedList markedItems) = .ok (some filter) ∧
        markedDraft.afterOutcome (List.map Condition.tokens)
            (filters (some markedTable) [("tag", "in." ++ Filter.quotedList markedItems)]) =
          (markedDraft.bind (markedItems.map Datum.text),
            .ok ([.single (filter.predicate (some markedTable))],
              ["\"labels\".\"tag\" IN ($3, $4, $5, $6, $7)"])) := by
  have plain : ∀ item ∈ markedItems, '"' ∉ item.toList := by decide
  obtain ⟨filter, read, -, compiled⟩ :=
    draft_of_quotedList markedDraft (some markedTable) ⟨"tag", by decide⟩ plain
  have written : (Column.mk (some markedTable) ⟨"tag", by decide⟩).withinText
      (markedDraft.values.length + 1) markedItems.length =
        "\"labels\".\"tag\" IN ($3, $4, $5, $6, $7)" := by
    decide +kernel
  rw [written] at compiled
  exact ⟨plain, by decide +kernel, filter, read, compiled (by decide)⟩

end Compile

end TableGate

import TableGate.Proofs.Compile.Naming
import TableGate.Proofs.Projection.Parsing

/-!
# Writing and reading projections

A projection can be printed (`Projection.print`), and every text that is a way of writing it, the
printed one among them, is read back into it; whatever is read is sound (`Projection.round_trip`).
-/

namespace TableGate

open Text (Padded)

/-! ### Printing -/

namespace Fields

/-- The fields of a relation: a star, or the names with commas between them. -/
def print : Fields → List Char
  | .all => ['*']
  | .listed names => [','].intercalate (names.map fun name => name.text.toList)

/-- Names with commas between them are cut at these commas only. -/
theorem items_intercalate {names : List Ident} (present : names ≠ []) :
    items ([','].intercalate (names.map fun name => name.text.toList)) =
      names.map fun name => name.text.toList := by
  have apart : ∀ item ∈ names.map fun name => name.text.toList, ',' ∉ item := by
    intro item member
    obtain ⟨name, -, rfl⟩ := List.mem_map.mp member
    exact name.not_mem_text (by decide)
  rw [items, List.splitOn_intercalate ',' apart (by simpa using present), List.filter_eq_self]
  intro item member
  obtain ⟨name, -, rfl⟩ := List.mem_map.mp member
  rw [name.isBlankText_text]
  rfl

/-- Printed fields are a way of writing them. -/
theorem written_print {fields : Fields} (shown : fields ≠ .listed []) :
    fields.Written Projection.IsName fields.print := by
  cases fields with
  | all =>
      have alone : items ['*'] = [['*']] := by
        rw [items, List.splitOn_eq_singleton (by decide)]
        rfl
      have star : ∀ item ∈ items ['*'], Padded ['*'] item := by
        intro item member
        rw [alone, List.mem_singleton] at member
        exact member ▸ Text.padded_self _
      exact .all ⟨['*'], alone ▸ List.mem_singleton_self _, Text.padded_self _⟩
        fun item member => .inl (star item member)
  | listed names =>
      have present : names ≠ [] := fun empty => shown (congrArg Fields.listed empty)
      refine .listed present ?_
      rw [print, items_intercalate present, List.forall₂_map_left_iff, List.forall₂_same]
      exact fun name _ => Text.padded_self _

end Fields

namespace Projection

/-- A term; a relation is printed with its alias, even where that is the target's name. -/
def Term.print : Term → List Char
  | .all => ['*']
  | .column name => name.text.toList
  | .relation shown =>
      Relation.token (shown.name.text.toList ++ ':' :: shown.target.text.toList) shown.fields.print

/-- A printed term is a way of writing it, where a relation shows a field. -/
theorem Term.written_print {term : Term}
    (shown : ∀ relation, term = .relation relation → relation.fields ≠ .listed []) :
    term.Written IsName term.print := by
  cases term with
  | all => exact .all (Text.padded_self _)
  | column name => exact .column (Text.padded_self _)
  | relation relation =>
      exact .relation (Text.padded_self _)
        (.labeled rfl (Text.padded_self _) (Text.padded_self _))
        (Fields.written_print (shown relation rfl))

/-- A printed term is not blank, so the split keeps it. -/
theorem Term.isBlankText_print (term : Term) : Text.isBlankText term.print = false := by
  cases term with
  | all => rfl
  | column name => exact name.isBlankText_text
  | relation relation =>
      rw [print, Relation.token, List.append_assoc, List.append_assoc, Text.isBlankText_append,
        relation.name.isBlankText_text, Bool.false_and]

variable {projection : Projection} {text : List Char}

/-- The terms of a projection: the star, the columns, the relations. -/
def terms (projection : Projection) : List Term :=
  (if projection.allColumns then [.all] else []) ++ projection.columns.map .column ++
    projection.relations.map .relation

/-- The terms of a projection with commas between them. -/
def print (projection : Projection) : List Char :=
  [','].intercalate (projection.terms.map Term.print)

/-- The terms of a projection make it up. -/
theorem extend_terms (projection : Projection) : extend {} projection.terms = projection := by
  obtain ⟨allColumns, columns, relations⟩ := projection
  have named : columns.filterMap (Term.column? ∘ .column) = columns := List.filterMap_some
  have unnamed : relations.filterMap (Term.column? ∘ .relation) = [] :=
    List.filterMap_eq_nil_iff.mpr fun _ _ => rfl
  have related : relations.filterMap (Term.relation? ∘ .relation) = relations :=
    List.filterMap_some
  have unrelated : columns.filterMap (Term.relation? ∘ .column) = [] :=
    List.filterMap_eq_nil_iff.mpr fun _ _ => rfl
  cases allColumns <;>
    simp [extend, terms, List.filterMap_cons, Term.column?, Term.relation?, named, unnamed, related,
      unrelated]

/-- Every relation among the terms of a sound projection shows a field. -/
theorem fields_of_mem_terms (sound : projection.IsSound) {relation : Relation}
    (member : .relation relation ∈ projection.terms) : relation.fields ≠ .listed [] := by
  apply sound.fields
  rw [terms, List.mem_append, List.mem_append] at member
  rcases member with (star | column) | listed
  · split at star
    · exact absurd (List.mem_singleton.mp star) nofun
    · exact absurd star List.not_mem_nil
  · obtain ⟨name, -, same⟩ := List.mem_map.mp column
    exact absurd same nofun
  · obtain ⟨found, among, same⟩ := List.mem_map.mp listed
    cases same
    exact among

/-- A printed projection is a way of writing it. -/
theorem written_print (sound : projection.IsSound) :
    projection.Written IsName projection.print := by
  refine ⟨projection.terms, projection.terms.map Term.print, projection.extend_terms, ?_, rfl⟩
  have visible : ((projection.terms.map Term.print).filter fun piece => !Text.isBlankText piece) =
      projection.terms.map Term.print := by
    rw [List.filter_eq_self]
    intro piece member
    obtain ⟨term, -, rfl⟩ := List.mem_map.mp member
    rw [term.isBlankText_print]
    rfl
  rw [visible, List.forall₂_map_left_iff, List.forall₂_same]
  intro term member
  refine Term.written_print fun relation same => ?_
  rw [same] at member
  exact fields_of_mem_terms sound member

/-! ### Reading back -/

/-- All columns, a column or a relation is asked for. -/
def HasPart (projection : Projection) : Prop :=
  projection.allColumns = true ∨ projection.columns ≠ [] ∨ projection.relations ≠ []

/-- Every way of writing a projection is read back into it. -/
theorem parse_of_written (sound : projection.IsSound) (part : projection.HasPart)
    (written : projection.Written IsName text) :
    parse (some (String.ofList text)) = .ok projection := by
  obtain ⟨terms, pieces, made, each, rfl⟩ := written
  have tokens := splitTopLevel_of_written each
  have visible : Text.isBlankText (String.ofList ([','].intercalate pieces)).toList = false := by
    rw [String.toList_ofList, ← Bool.not_eq_true]
    intro blank
    -- A blank text has no terms, and those that it had would make up nothing.
    rw [← tokens, Text.splitTopLevel_of_isBlankText blank, List.forall₂_nil_left_iff] at each
    rw [← made, each] at part
    exact part.elim nofun fun others => others.elim (fun columns => columns rfl) fun relations =>
      relations rfl
  rw [parse_eq_ok_iff visible, String.toList_ofList, tokens]
  refine ⟨isBalanced_of_flat (.intercalate (flat_of_written each)), terms, ?_, made, sound.distinct⟩
  exact each.imp fun piece term => Term.Written.mono fun _ _ => trivial

/-- A relation is written with a field at least. -/
theorem fields_of_written {beside : List Char → Prop} {pieces : List (List Char)}
    {terms : List Term} {relation : Relation}
    (each : List.Forall₂ (Term.Written beside) pieces terms)
    (member : .relation relation ∈ terms) : relation.fields ≠ .listed [] := by
  induction each with
  | nil => exact absurd member List.not_mem_nil
  | cons written _ ih =>
      rcases List.mem_cons.mp member with rfl | later
      · cases written with
        | relation around headed fields =>
            rintro empty
            rw [empty] at fields
            cases fields with
            | listed present each => exact present rfl
      · exact ih later

/-- Whatever is read repeats no alias, and each of its relations shows a field. -/
theorem isSound_of_parse {select : Option String} (read : parse select = .ok projection) :
    projection.IsSound := by
  cases blank : Text.isBlankText (select.getD "").toList with
  | true =>
      rw [parse_of_blank blank] at read
      cases read
      exact ⟨List.nodup_nil, fun relation member => absurd member List.not_mem_nil⟩
  | false =>
      cases select with
      | none => exact absurd blank (by decide)
      | some select =>
          obtain ⟨-, terms, each, rfl, distinct⟩ := (parse_eq_ok_iff blank).mp read
          refine ⟨distinct, fun relation member => ?_⟩
          obtain ⟨term, among, same⟩ := List.mem_filterMap.mp member
          cases term with
          | all => exact absurd same nofun
          | column name => exact absurd same nofun
          | relation found =>
              cases same
              exact fields_of_written each among

/-- Every way of writing a projection is read back into it, and there is one.  Whatever a text is
read into has identifiers for its names, no alias twice and no relation without a field. -/
theorem round_trip :
    (∀ projection : Projection, projection.IsSound → projection.HasPart →
      projection.Written IsName projection.print ∧
        ∀ text, projection.Written IsName text →
          parse (some (String.ofList text)) = .ok projection) ∧
      ∀ select projection, parse select = .ok projection →
        projection.IsSound ∧ ∀ name ∈ projection.names, isIdentifier name.text = true := by
  refine ⟨fun projection sound part => ⟨written_print sound, fun text => ?_⟩, ?_⟩
  · exact parse_of_written sound part
  · exact fun select projection read => ⟨isSound_of_parse read, fun name _ => name.valid⟩

/-- All columns, two of them by name, the owner of a card and what its tags show. -/
def cardProjection : Projection :=
  ⟨true, [.id, ⟨"title", by decide⟩],
    [⟨⟨"owner", by decide⟩, ⟨"people", by decide⟩, .all⟩,
      ⟨⟨"tags", by decide⟩, ⟨"tags", by decide⟩,
        .listed [⟨"label", by decide⟩, ⟨"color", by decide⟩]⟩]⟩

/-- A way of writing it: in another order, with blanks and a blank term, and one alias left out. -/
def cardText : String := " id ,*,, owner : people ( * ),title,tags( label ,color ) "

/-- The text is a way of writing the projection, term by term. -/
theorem written_cardText : cardProjection.Written IsName cardText.toList := by
  have owner : Relation.HeadWritten "owner : people ".toList ⟨"owner", by decide⟩
      ⟨"people", by decide⟩ :=
    @Relation.HeadWritten.labeled _ _ _ "owner ".toList " people ".toList rfl
      (Text.padded_of_trim (by decide))
      (Text.padded_of_trim (by decide))
  have star : Fields.Written IsName " * ".toList .all := by
    have alone : Fields.items " * ".toList = [" * ".toList] := by decide
    have padded : Padded ['*'] " * ".toList := Text.padded_of_trim (by decide)
    refine .all ⟨_, alone ▸ List.mem_singleton_self _, padded⟩ fun item member => .inl ?_
    rw [alone, List.mem_singleton] at member
    exact member ▸ padded
  have names : Fields.Written IsName " label ,color ".toList
      (.listed [⟨"label", by decide⟩, ⟨"color", by decide⟩]) := by
    have pair : Fields.items " label ,color ".toList = [" label ".toList, "color ".toList] := by
      decide
    refine .listed (List.cons_ne_nil _ _) (pair ▸ ?_)
    exact .cons (Text.padded_of_trim (by decide))
      (.cons (Text.padded_of_trim (by decide)) .nil)
  refine ⟨[.column .id, .all, .relation ⟨⟨"owner", by decide⟩, ⟨"people", by decide⟩, .all⟩,
      .column ⟨"title", by decide⟩, .relation ⟨⟨"tags", by decide⟩, ⟨"tags", by decide⟩,
        .listed [⟨"label", by decide⟩, ⟨"color", by decide⟩]⟩],
    [" id ".toList, ['*'], [], " owner : people ( * )".toList, "title".toList,
      "tags( label ,color ) ".toList], rfl, ?_, by decide⟩
  exact .cons (.column (Text.padded_of_trim (by decide)))
    (.cons (.all (Text.padded_self _))
      (.cons (.relation (Text.padded_of_trim (by decide)) owner star)
        (.cons (.column (Text.padded_self _))
          (.cons (.relation (Text.padded_of_trim (by decide))
            (.bare rfl (Text.padded_self _)) names) .nil))))

theorem round_trip_cards :
    cardProjection.IsSound ∧ cardProjection.HasPart ∧
      cardProjection.Written IsName cardText.toList ∧
      parse (some cardText) = .ok cardProjection ∧
      String.ofList cardProjection.print =
        "*,id,title,owner:people(*),tags:tags(label,color)" := by
  have sound : cardProjection.IsSound := ⟨by decide, by decide⟩
  have part : cardProjection.HasPart := .inl rfl
  have read := (round_trip.1 cardProjection sound part).2 cardText.toList written_cardText
  rw [String.ofList_toList] at read
  exact ⟨sound, part, written_cardText, read, by decide⟩

end Projection

end TableGate

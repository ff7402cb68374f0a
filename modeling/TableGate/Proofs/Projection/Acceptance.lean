import TableGate.Proofs.Projection.Fault
import TableGate.Proofs.Projection.Parsing

/-!
# Which projections are accepted

A text is accepted if it belongs to the grammar in which a list of fields has names and stars only
(`Conforms`), and in one other case: beside a star a list of fields may have items that are neither,
because nobody looks at them (`Overlooks`).  The two exclude each other, and every other text is
refused (`Projection.accepts_iff`).
-/

namespace TableGate.Projection

open Text (Padded)

variable {piece text : List Char} {term : Term}

/-- A text of the grammar with names and stars only, no alias used twice. -/
def Conforms (text : List Char) : Prop :=
  ∃ projection : Projection, projection.aliases.Nodup ∧ projection.Written IsName text

/-- A relation with a star among its fields, and beside it an item that is neither a star nor a
name. -/
def HidesItem (piece : List Char) : Prop :=
  ∃ head inner name target, Padded (Relation.token head inner) piece ∧
    Relation.HeadWritten head name target ∧ (∃ item ∈ Fields.items inner, Padded ['*'] item) ∧
    ∃ item ∈ Fields.items inner, ¬ Padded ['*'] item ∧ ¬ IsName item

/-- A text that is cut into terms beside whose stars anything may stand, and beside one of them
something other than a name does. -/
def Overlooks (text : List Char) : Prop :=
  isBalanced 0 text = true ∧
    ∃ terms, List.Forall₂ (Term.Written Fields.Anything) (Text.splitTopLevel text) terms ∧
      (extend {} terms).aliases.Nodup ∧ ∃ piece ∈ Text.splitTopLevel text, HidesItem piece

/-- Where nothing is hidden beside a star, there are only names. -/
theorem written_of_not_hidesItem (written : term.Written Fields.Anything piece)
    (plain : ¬ HidesItem piece) : term.Written IsName piece := by
  cases written with
  | all star => exact .all star
  | column named => exact .column named
  | @relation shown head inner around headed fields =>
      refine .relation around headed ?_
      obtain ⟨name, target, shownFields⟩ := shown
      cases fields with
      | listed present each => exact .listed present each
      | all star others =>
          refine .all star fun item listed => ?_
          by_contra neither
          rw [not_or] at neither
          exact plain ⟨head, inner, _, _, around, headed, star, item, listed, neither⟩

/-- Where there are only names, nothing is hidden beside a star. -/
theorem not_hidesItem_of_written (written : term.Written IsName piece) : ¬ HidesItem piece := by
  rintro ⟨head, inner, name, target, around, headed, ⟨star, among, isStar⟩, item, listed, neither⟩
  have cut := Relation.cutAt_of_token around headed
  have opened : '(' ∈ Text.trim piece := by simp [Relation.trim_of_token around]
  cases written with
  | all star =>
      rw [Text.trim_of_padded star] at opened
      exact absurd opened (by decide)
  | @column column named =>
      rw [Text.trim_of_padded named, column.trim_text] at opened
      exact column.not_mem_text (by decide) opened
  | @relation shown _ found placed before fields =>
      obtain rfl : found = inner := by
        have same := (Relation.cutAt_of_token placed before).symm.trans cut
        exact List.append_cancel_right (Prod.mk.inj (Option.some.inj same)).2
      obtain ⟨_, _, shownFields⟩ := shown
      cases fields with
      | all star others => exact (others item listed).elim neither.1 neither.2
      | listed present each => exact Relation.not_padded_star_of_mem each star among isStar

/-- A text that conforms is cut into terms with names only, so it is flat. -/
theorem Conforms.tokens (conforms : Conforms text) :
    ∃ terms, List.Forall₂ (Term.Written IsName) (Text.splitTopLevel text) terms ∧
      (extend {} terms).aliases.Nodup ∧ Text.Flat true text := by
  obtain ⟨projection, distinct, terms, pieces, rfl, each, rfl⟩ := conforms
  rw [splitTopLevel_of_written each]
  exact ⟨terms, each, distinct, .intercalate (flat_of_written each)⟩

theorem conforms_of_tokens {terms : List Term}
    (each : List.Forall₂ (Term.Written IsName) (Text.splitTopLevel text) terms)
    (distinct : (extend {} terms).aliases.Nodup) : Conforms text :=
  ⟨extend {} terms, distinct, terms, Text.topPieces text, rfl, each,
    (Text.intercalate_topPiecesFrom {} text).symm⟩

/-- What is read either has only names beside its stars, or overlooks an item there. -/
theorem conforms_or_overlooks {select : String} (visible : Text.isBlankText select.toList = false)
    {projection : Projection} (read : parse (some select) = .ok projection) :
    Conforms select.toList ∨ Overlooks select.toList := by
  obtain ⟨balanced, terms, each, rfl, distinct⟩ := (parse_eq_ok_iff visible).mp read
  by_cases hidden : ∃ piece ∈ Text.splitTopLevel select.toList, HidesItem piece
  · exact .inr ⟨balanced, terms, each, distinct, hidden⟩
  · have plain : ∀ piece ∈ Text.splitTopLevel select.toList, ¬ HidesItem piece :=
      fun piece listed hides => hidden ⟨piece, listed, hides⟩
    have named := ((List.forall₂_and_left _ terms).mpr ⟨plain, each⟩).imp
      fun piece term found => written_of_not_hidesItem found.2 found.1
    exact .inl (conforms_of_tokens named distinct)

theorem Conforms.exists_ok {select : String} (visible : Text.isBlankText select.toList = false)
    (conforms : Conforms select.toList) : ∃ projection, parse (some select) = .ok projection := by
  obtain ⟨terms, each, distinct, flat⟩ := conforms.tokens
  have anything := each.imp fun piece term => Term.Written.mono fun _ _ => trivial
  exact ⟨_, (parse_eq_ok_iff visible).mpr
    ⟨isBalanced_of_flat flat, terms, anything, rfl, distinct⟩⟩

theorem Overlooks.exists_ok {select : String} (visible : Text.isBlankText select.toList = false)
    (overlooks : Overlooks select.toList) : ∃ projection, parse (some select) = .ok projection := by
  obtain ⟨balanced, terms, each, distinct, -⟩ := overlooks
  exact ⟨_, (parse_eq_ok_iff visible).mpr ⟨balanced, terms, each, rfl, distinct⟩⟩

/-- A text that conforms is cut into terms with names only, so nothing is overlooked. -/
theorem Conforms.not_overlooks (conforms : Conforms text) : ¬ Overlooks text := by
  rintro ⟨-, -, -, -, piece, listed, hidden⟩
  obtain ⟨terms, each, -, -⟩ := conforms.tokens
  exact forall_mem_of_forall₂ each (fun _ _ => not_hidesItem_of_written) piece listed hidden

/-- A text is accepted where it conforms to the grammar, or where an item that is neither a star nor
a name is overlooked beside a star; the faults of all other texts are those of projections.  A text
that conforms has no quotes, and no list in parentheses inside another one. -/
theorem accepts_iff {select : String} (visible : Text.isBlankText select.toList = false) :
    ((∃ projection, parse (some select) = .ok projection) ↔
        Conforms select.toList ∨ Overlooks select.toList) ∧
      ¬ (Conforms select.toList ∧ Overlooks select.toList) ∧
      (∀ error, parse (some select) = .error error →
        (∃ reason, error = .invalidProjection reason) ∨
          ∃ name, error = .invalidIdentifier name) ∧
      (Conforms select.toList → '"' ∉ select.toList ∧
        ∀ before after, select.toList = before ++ '(' :: after →
          before.count '(' = before.count ')') := by
  refine ⟨⟨fun ⟨_, read⟩ => conforms_or_overlooks visible read, ?_⟩, ?_, failsAs_parse _, ?_⟩
  · rintro (conforms | overlooks)
    · exact conforms.exists_ok visible
    · exact overlooks.exists_ok visible
  · rintro ⟨conforms, overlooks⟩
    exact conforms.not_overlooks overlooks
  · intro conforms
    obtain ⟨-, -, -, flat⟩ := conforms.tokens
    exact ⟨flat.quote_not_mem, fun before after => flat.count_eq⟩

/-- A quoted name beside a star. -/
def quotedSelect : String := "c:clients(*,\"x\")"

theorem accepts_iff_quoted :
    Text.isBlankText quotedSelect.toList = false ∧
      parse (some quotedSelect) =
        .ok ⟨false, [], [⟨⟨"c", by decide⟩, ⟨"clients", by decide⟩, .all⟩]⟩ ∧
      ¬ Conforms quotedSelect.toList ∧ Overlooks quotedSelect.toList := by
  have visible : Text.isBlankText quotedSelect.toList = false := by decide
  have read : parse (some quotedSelect) =
      .ok ⟨false, [], [⟨⟨"c", by decide⟩, ⟨"clients", by decide⟩, .all⟩]⟩ := by
    decide +kernel
  obtain ⟨accepted, -, -, unquoted⟩ := accepts_iff visible
  have strange : ¬ Conforms quotedSelect.toList :=
    fun conforms => (unquoted conforms).1 (by decide)
  exact ⟨visible, read, strange, (accepted.mp ⟨_, read⟩).resolve_left strange⟩

end TableGate.Projection

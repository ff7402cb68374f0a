import TableGate.Text.Cut

/-!
# Splitting at the top

A scan for commas goes through a part of a text and on to the next one from where it stands then
(`topPiecesFrom_append`).  So texts that have no comma at the top and close whatever they open come
back, one by one, from the text that joins them with commas (`splitTopLevel_intercalate`).  A text
in double quotes is such a piece, whatever else it holds (`isPiece_quoted`).
-/

namespace TableGate.Text

variable {nesting : Nesting} {text left right : List Char}

/-! ### Scanning part by part -/

namespace Nesting

/-- Where a scan stands after a text. -/
def after (nesting : Nesting) (text : List Char) : Nesting := text.foldl step nesting

theorem after_append (nesting : Nesting) (left right : List Char) :
    nesting.after (left ++ right) = (nesting.after left).after right :=
  List.foldl_append

/-- Inside quotes only a quote makes a difference. -/
theorem step_of_quoted {c : Char} (quoted : nesting.quoted = true) (other : c ≠ '"') :
    nesting.step c = nesting := by
  rw [step, if_neg other, if_pos quoted]

end Nesting

/-- No comma of a text stands at the top, where the scan of the text starts as `nesting` says. -/
def IsUncut (nesting : Nesting) : List Char → Prop
  | [] => True
  | c :: rest => ¬ (c = ',' ∧ nesting.isTop = true) ∧ IsUncut (nesting.step c) rest

theorem isUncut_append :
    IsUncut nesting (left ++ right) ↔
      IsUncut nesting left ∧ IsUncut (nesting.after left) right := by
  induction left generalizing nesting with
  | nil => exact ⟨fun uncut => ⟨trivial, uncut⟩, And.right⟩
  | cons c rest ih =>
      rw [List.cons_append, IsUncut, ih, IsUncut, and_assoc]
      rfl

/-- A part without a comma at the top becomes the beginning of the next piece. -/
theorem topPiecesFrom_append (uncut : IsUncut nesting left) (right : List Char) :
    topPiecesFrom nesting (left ++ right) =
      (topPiecesFrom (nesting.after left) right).modifyHead (left ++ ·) := by
  induction left generalizing nesting with
  | nil => exact (congrFun List.modifyHead_id _).symm
  | cons c rest ih =>
      rw [List.cons_append, topPiecesFrom, if_neg uncut.1, ih uncut.2, List.modifyHead_modifyHead]
      rfl

/-! ### Pieces -/

/-- A text that is one piece of a split, after which the next piece starts afresh. -/
structure IsPiece (text : List Char) : Prop where
  uncut : IsUncut {} text
  closed : Nesting.after {} text = {}

theorem topPieces_of_isUncut (uncut : IsUncut {} text) : topPieces text = [text] := by
  have alone := topPiecesFrom_append uncut []
  rwa [List.append_nil, topPiecesFrom, List.modifyHead_cons, List.append_nil] at alone

theorem topPieces_append_comma (piece : IsPiece left) (right : List Char) :
    topPieces (left ++ ',' :: right) = left :: topPieces right := by
  rw [topPieces, topPiecesFrom_append piece.uncut, piece.closed, topPiecesFrom, if_pos (by decide),
    List.modifyHead_cons, List.append_nil, topPieces]

/-- Splitting the text that joins some pieces gives them back. -/
theorem topPieces_intercalate {pieces : List (List Char)} (each : ∀ piece ∈ pieces, IsPiece piece)
    (present : pieces ≠ []) : topPieces ([','].intercalate pieces) = pieces := by
  induction pieces with
  | nil => exact absurd rfl present
  | cons piece rest ih =>
      have first := each piece List.mem_cons_self
      cases rest with
      | nil =>
          rw [List.intercalate_singleton]
          exact topPieces_of_isUncut first.uncut
      | cons next more =>
          have others := ih (fun other later => each other (List.mem_cons_of_mem _ later))
            (List.cons_ne_nil _ _)
          rw [List.intercalate_cons_cons, List.append_assoc, List.singleton_append,
            topPieces_append_comma first, others]

/-- Pieces that are not blank are all kept, and there may be none of them. -/
theorem splitTopLevel_intercalate {pieces : List (List Char)}
    (each : ∀ piece ∈ pieces, IsPiece piece)
    (visible : ∀ piece ∈ pieces, isBlankText piece = false) :
    splitTopLevel ([','].intercalate pieces) = pieces := by
  cases pieces with
  | nil => rfl
  | cons piece rest =>
      rw [splitTopLevel, topPieces_intercalate each (List.cons_ne_nil _ _), List.filter_eq_self]
      intro other member
      rw [visible other member]
      rfl

/-! ### Texts in quotes -/

/-- A text in double quotes. -/
def quoted (text : List Char) : List Char := '"' :: text ++ ['"']

/-- Inside quotes a text without quotes is not cut, and the scan stays where it is. -/
theorem isUncut_of_quoted (inside : nesting.quoted = true) (plain : '"' ∉ text) :
    IsUncut nesting text ∧ nesting.after text = nesting := by
  induction text with
  | nil => exact ⟨trivial, rfl⟩
  | cons c rest ih =>
      obtain ⟨other, later⟩ := not_or.mp (mt List.mem_cons.mpr plain)
      have stays := Nesting.step_of_quoted inside (Ne.symm other)
      have covered : nesting.isTop = false := by simp [Nesting.isTop, inside]
      obtain ⟨uncut, same⟩ := ih later
      refine ⟨⟨fun comma => ?_, by rwa [stays]⟩, ?_⟩
      · rw [covered] at comma
        exact absurd comma.2 Bool.false_ne_true
      · change (nesting.step c).after rest = nesting
        rw [stays, same]

theorem isPiece_quoted (plain : '"' ∉ text) : IsPiece (quoted text) := by
  have inside : (Nesting.mk true 0).quoted = true := rfl
  obtain ⟨uncut, stays⟩ := isUncut_of_quoted inside plain
  have opened : Nesting.after {} ('"' :: text) = ⟨true, 0⟩ := stays
  constructor
  · rw [quoted, isUncut_append, opened]
    exact ⟨⟨by decide, uncut⟩, by decide, trivial⟩
  · rw [quoted, Nesting.after_append, opened]
    rfl

theorem isBlankText_quoted (text : List Char) : isBlankText (quoted text) = false := rfl

/-! ### Edges of a text -/

/-- A text that neither begins nor ends with a blank is trimmed to itself. -/
theorem trim_of_edges {first last : Char} (begins : isBlank first = false)
    (ends : isBlank last = false) (middle : List Char) :
    trim (first :: middle ++ [last]) = first :: middle ++ [last] := by
  have started : trimStart (first :: middle ++ [last]) = first :: middle ++ [last] :=
    List.dropWhile_cons_of_neg (by simp [begins])
  have reversed : (first :: middle ++ [last]).reverse = last :: (first :: middle).reverse :=
    List.reverse_concat
  rw [trim, started, trimEnd, reversed, List.dropWhile_cons_of_neg (by simp [ends]), ← reversed,
    List.reverse_reverse]

theorem trim_quoted (text : List Char) : trim (quoted text) = quoted text :=
  trim_of_edges (by decide) (by decide) text

theorem inner_of_edges (opening closing : Char) (middle : List Char) :
    inner opening closing (opening :: middle ++ [closing]) = middle := by
  rw [inner, List.cons_append, inner?, if_pos ⟨rfl, List.getLast?_concat⟩, List.dropLast_concat]
  rfl

/-- The text before a mark and the text after it are found where the mark does not come earlier. -/
theorem cutAt_append {mark : Char} (absent : mark ∉ left) (right : List Char) :
    cutAt mark (left ++ mark :: right) = some (left, right) := by
  induction left with
  | nil => simp [cutAt]
  | cons c rest ih =>
      obtain ⟨other, later⟩ := not_or.mp (mt List.mem_cons.mpr absent)
      rw [List.cons_append, cutAt, if_neg (Ne.symm other), ih later]
      rfl

theorem not_mem_of_cutAt {mark : Char} (cut : cutAt mark text = some (left, right)) :
    mark ∉ left := by
  induction text generalizing left with
  | nil => exact absurd cut nofun
  | cons c rest ih =>
      rw [cutAt] at cut
      split at cut
      · cases cut
        exact List.not_mem_nil
      · next other =>
          obtain ⟨⟨before, after⟩, later, shape⟩ := Option.map_eq_some_iff.mp cut
          cases shape
          exact List.not_mem_cons_of_ne_of_not_mem (Ne.symm other) (ih later)

/-- A text is cut at its first mark. -/
theorem cutAt_eq_some_iff {mark : Char} :
    cutAt mark text = some (left, right) ↔ text = left ++ mark :: right ∧ mark ∉ left := by
  constructor
  · exact fun cut => ⟨eq_of_cutAt cut, not_mem_of_cutAt cut⟩
  · rintro ⟨rfl, absent⟩
    exact cutAt_append absent right

/-- A text without the mark is not cut. -/
theorem cutAt_eq_none_iff {mark : Char} : cutAt mark text = none ↔ mark ∉ text := by
  constructor
  · intro uncut present
    obtain ⟨before, after, rfl, absent⟩ := List.eq_append_cons_of_mem present
    rw [cutAt_append absent] at uncut
    exact absurd uncut nofun
  · intro absent
    cases cut : cutAt mark text with
    | none => rfl
    | some parts =>
        rw [eq_of_cutAt cut] at absent
        exact absurd (List.mem_append_right _ List.mem_cons_self) absent

/-- The part before the first mark, or all of a text without one, has the characters up to it. -/
theorem fst_cutAt (mark : Char) (text : List Char) :
    ((cutAt mark text).getD (text, [])).1 = text.takeWhile (· != mark) := by
  induction text with
  | nil => rfl
  | cons c rest ih =>
      rw [cutAt, List.takeWhile_cons]
      by_cases same : c = mark
      · rw [if_pos same, if_neg (by simp [same])]
        rfl
      · rw [if_neg same, if_pos (by simp [same]), ← ih]
        cases cutAt mark rest <;> rfl

end TableGate.Text

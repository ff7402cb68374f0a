import Mathlib.Algebra.Order.Ring.Int
import TableGate.Proofs.Text.Bytes
import TableGate.Proofs.Text.Splitting

/-!
# Where a text is cut

A scan stands at the top after a text exactly where the text closes its quotes and, outside quotes,
as many parentheses as it opens (`isTop_after_iff`).  A text is cut at the commas that such a text
comes before, and nowhere else (`breaksAt_topPiecesFrom_iff`).  At each cut the scan stands where it
began, so a piece is cut no further when it is split by itself (`splitTopLevel_of_mem`).
-/

namespace TableGate.Text

variable {nesting : Nesting} {text before after piece : List Char}
  {pieces : List (List Char)}

/-! ### What stands outside quotes -/

/-- Every other item of a list, beginning with the first one. -/
def everyOther {α : Type} : List α → List α
  | [] => []
  | [item] => [item]
  | item :: _ :: rest => item :: everyOther rest

/-- What stands outside double quotes in a text that begins inside them or not: every other part
between its quotes. -/
def unquotedFrom (quoted : Bool) (text : List Char) : List Char :=
  (everyOther ((text.splitOn '"').drop quoted.toNat)).flatten

/-- What stands outside double quotes. -/
def unquoted (text : List Char) : List Char := unquotedFrom false text

/-- Every quote of a text is closed, and outside quotes it closes as many parentheses as it
opens. -/
def ClosesAll (text : List Char) : Prop :=
  text.count '"' % 2 = 0 ∧ (unquoted text).count '(' = (unquoted text).count ')'

instance (text : List Char) : Decidable (ClosesAll text) :=
  inferInstanceAs (Decidable (_ ∧ _))

theorem everyOther_cons {α : Type} (item : α) (rest : List α) :
    everyOther (item :: rest) = item :: everyOther rest.tail := by
  cases rest <;> rfl

@[simp]
theorem unquotedFrom_nil (quoted : Bool) : unquotedFrom quoted [] = [] := by
  cases quoted <;> rfl

/-- A quote changes the side of what comes after it. -/
theorem unquotedFrom_quote (quoted : Bool) (text : List Char) :
    unquotedFrom quoted ('"' :: text) = unquotedFrom (!quoted) text := by
  have split : ('"' :: text).splitOn '"' = [] :: text.splitOn '"' := by
    rw [List.splitOn, List.splitOnP_cons_eq_if_modifyHead, if_pos (by decide)]
    rfl
  unfold unquotedFrom
  rw [split]
  cases quoted with
  | true => rfl
  | false => simp [everyOther_cons]

/-- Any other character stands on the side that the text begins on. -/
theorem unquotedFrom_cons {c : Char} (other : c ≠ '"') (quoted : Bool) (text : List Char) :
    unquotedFrom quoted (c :: text) =
      if quoted then unquotedFrom quoted text else c :: unquotedFrom quoted text := by
  have split : (c :: text).splitOn '"' = (text.splitOn '"').modifyHead (List.cons c) := by
    rw [List.splitOn, List.splitOnP_cons_eq_if_modifyHead, if_neg (by simpa using other)]
    rfl
  unfold unquotedFrom
  rw [split]
  cases parts : text.splitOn '"' with
  | nil => exact absurd parts (List.splitOn_ne_nil '"' text)
  | cons first rest =>
      cases quoted with
      | true => rfl
      | false => simp [everyOther_cons]

/-- Where a scan stands after a text: a quote for each quote of the text, and the parentheses that
stand outside quotes. -/
theorem after_eq (quoted : Bool) (depth : Int) (text : List Char) :
    Nesting.after ⟨quoted, depth⟩ text =
      ⟨quoted ^^ decide (text.count '"' % 2 = 1),
        depth + ((unquotedFrom quoted text).count '(' - (unquotedFrom quoted text).count ')')⟩ := by
  induction text generalizing quoted depth with
  | nil => simp [Nesting.after]
  | cons c rest ih =>
      have scanned : Nesting.after ⟨quoted, depth⟩ (c :: rest) =
          Nesting.after (Nesting.step ⟨quoted, depth⟩ c) rest := rfl
      by_cases quote : c = '"'
      · subst quote
        have odd : decide ((rest.count '"' + 1) % 2 = 1) = !decide (rest.count '"' % 2 = 1) := by
          rw [← decide_not, decide_eq_decide]
          omega
        have turned : Nesting.step ⟨quoted, depth⟩ '"' = ⟨!quoted, depth⟩ := rfl
        rw [scanned, turned, ih, unquotedFrom_quote, List.count_cons_self, odd]
        simp
      · rw [scanned, unquotedFrom_cons quote, List.count_cons_of_ne quote]
        cases quoted with
        | true => rw [Nesting.step_of_quoted rfl quote, ih, if_pos rfl]
        | false =>
            rw [if_neg Bool.false_ne_true, List.count_cons, List.count_cons]
            by_cases opening : c = '('
            · subst opening
              have opened : Nesting.step ⟨false, depth⟩ '(' = ⟨false, depth + 1⟩ := rfl
              rw [opened, ih]
              simp
              omega
            · by_cases closing : c = ')'
              · subst closing
                have closed : Nesting.step ⟨false, depth⟩ ')' = ⟨false, depth - 1⟩ := rfl
                rw [closed, ih]
                simp
                omega
              · have stays : Nesting.step ⟨false, depth⟩ c = ⟨false, depth⟩ := by
                  simp [Nesting.step, quote, opening, closing]
                rw [stays, ih]
                simp [opening, closing]

/-- A scan stands at the top after the texts that close everything. -/
theorem isTop_after_iff : (Nesting.after {} text).isTop = true ↔ ClosesAll text := by
  have scanned : Nesting.after {} text = _ := after_eq false 0 text
  rw [scanned, ClosesAll, unquoted, Nesting.isTop]
  simp only [Bool.false_bne, Bool.and_eq_true, Bool.not_eq_true', decide_eq_false_iff_not,
    beq_iff_eq]
  omega

/-! ### Cuts -/

/-- A comma between two parts of a text stands at the top, where the scan of the text starts as
`nesting` says. -/
def TopCommaAt (nesting : Nesting) (text before after : List Char) : Prop :=
  text = before ++ ',' :: after ∧ (nesting.after before).isTop = true

theorem not_topCommaAt_nil : ¬ TopCommaAt nesting [] before after := by
  rintro ⟨shape, -⟩
  exact List.append_ne_nil_of_right_ne_nil before (List.cons_ne_nil _ _) shape.symm

/-- A comma at the top is the first character or comes later, after one more step of the scan. -/
theorem topCommaAt_cons_iff {c : Char} :
    TopCommaAt nesting (c :: text) before after ↔
      (before = [] ∧ after = text ∧ c = ',' ∧ nesting.isTop = true) ∨
        ∃ later, before = c :: later ∧ TopCommaAt (nesting.step c) text later after := by
  constructor
  · rintro ⟨shape, top⟩
    cases before with
    | nil =>
        obtain ⟨rfl, rfl⟩ := List.cons.inj shape
        exact .inl ⟨rfl, rfl, rfl, top⟩
    | cons first later =>
        obtain ⟨rfl, rest⟩ := List.cons.inj shape
        exact .inr ⟨later, rfl, rest, top⟩
  · rintro (⟨rfl, rfl, rfl, top⟩ | ⟨later, rfl, rfl, top⟩)
    · exact ⟨rfl, top⟩
    · exact ⟨rfl, top⟩

theorem topCommaAt_iff :
    TopCommaAt {} text before after ↔ text = before ++ ',' :: after ∧ ClosesAll before := by
  rw [TopCommaAt, isTop_after_iff]

theorem isUncut_iff :
    IsUncut nesting text ↔ ∀ before after, ¬ TopCommaAt nesting text before after := by
  induction text generalizing nesting with
  | nil => exact iff_of_true trivial fun _ _ => not_topCommaAt_nil
  | cons c rest ih =>
      rw [IsUncut, ih]
      constructor
      · rintro ⟨other, later⟩ before after found
        rcases topCommaAt_cons_iff.mp found with ⟨-, -, comma, top⟩ | ⟨front, -, within⟩
        · exact other ⟨comma, top⟩
        · exact later front after within
      · intro uncut
        refine ⟨fun cut => ?_, fun front after within => ?_⟩
        · exact uncut [] rest (topCommaAt_cons_iff.mpr (.inl ⟨rfl, rfl, cut.1, cut.2⟩))
        · exact uncut (c :: front) after (topCommaAt_cons_iff.mpr (.inr ⟨front, rfl, within⟩))

/-- Some pieces end and others begin between two texts, each of which joins its pieces with
commas. -/
def BreaksAt (pieces : List (List Char)) (before after : List Char) : Prop :=
  ∃ front back, pieces = front ++ back ∧ front ≠ [] ∧ back ≠ [] ∧
    [','].intercalate front = before ∧ [','].intercalate back = after

theorem not_breaksAt_singleton : ¬ BreaksAt [piece] before after := by
  rintro ⟨front, back, shape, some, others, -, -⟩
  have length := congrArg List.length shape
  have first := List.length_pos_iff.mpr some
  have second := List.length_pos_iff.mpr others
  simp only [List.length_singleton, List.length_append] at length
  omega

theorem breaksAt_cons_iff (present : pieces ≠ []) :
    BreaksAt (piece :: pieces) before after ↔
      (before = piece ∧ after = [','].intercalate pieces) ∨
        ∃ later, before = piece ++ ',' :: later ∧ BreaksAt pieces later after := by
  constructor
  · rintro ⟨front, back, shape, some, others, rfl, rfl⟩
    cases front with
    | nil => exact absurd rfl some
    | cons first front =>
        obtain ⟨rfl, rfl⟩ := List.cons.inj shape
        cases front with
        | nil => exact .inl ⟨List.intercalate_singleton, rfl⟩
        | cons second front =>
            refine .inr ⟨_, ?_, second :: front, back, rfl, List.cons_ne_nil _ _, others, rfl, rfl⟩
            rw [List.intercalate_cons_cons, List.append_assoc, List.singleton_append]
  · rintro (⟨rfl, rfl⟩ | ⟨later, rfl, front, back, rfl, some, others, rfl, rfl⟩)
    · exact ⟨[before], pieces, rfl, List.cons_ne_nil _ _, present, List.intercalate_singleton, rfl⟩
    · obtain ⟨second, more, rfl⟩ := List.exists_cons_of_ne_nil some
      refine ⟨piece :: second :: more, back, rfl, List.cons_ne_nil _ _, others, ?_, rfl⟩
      rw [List.intercalate_cons_cons, List.append_assoc, List.singleton_append]

/-- A character in front of the first piece moves no break. -/
theorem breaksAt_modifyHead_iff {c : Char} (present : pieces ≠ []) :
    BreaksAt (pieces.modifyHead (List.cons c)) before after ↔
      ∃ later, before = c :: later ∧ BreaksAt pieces later after := by
  obtain ⟨piece, rest, rfl⟩ := List.exists_cons_of_ne_nil present
  rw [List.modifyHead_cons]
  cases rest with
  | nil => simp [not_breaksAt_singleton]
  | cons next more =>
      rw [breaksAt_cons_iff (List.cons_ne_nil _ _)]
      simp only [breaksAt_cons_iff (List.cons_ne_nil next more)]
      constructor
      · rintro (⟨rfl, rfl⟩ | ⟨later, rfl, breaks⟩)
        · exact ⟨piece, rfl, .inl ⟨rfl, rfl⟩⟩
        · exact ⟨_, rfl, .inr ⟨later, rfl, breaks⟩⟩
      · rintro ⟨_, rfl, ⟨rfl, rfl⟩ | ⟨later, rfl, breaks⟩⟩
        · exact .inl ⟨rfl, rfl⟩
        · exact .inr ⟨later, rfl, breaks⟩

/-- A text is cut at its commas at the top. -/
theorem breaksAt_topPiecesFrom_iff :
    BreaksAt (topPiecesFrom nesting text) before after ↔ TopCommaAt nesting text before after := by
  induction text generalizing nesting before with
  | nil => exact iff_of_false not_breaksAt_singleton not_topCommaAt_nil
  | cons c rest ih =>
      have present := topPiecesFrom_ne_nil (nesting.step c) rest
      rw [topPiecesFrom, topCommaAt_cons_iff]
      split
      · next comma =>
          obtain ⟨rfl, top⟩ := comma
          have stays : nesting.step ',' = nesting := by simp [Nesting.step]
          rw [stays] at present ⊢
          rw [breaksAt_cons_iff present, intercalate_topPiecesFrom]
          simp only [ih, top, and_true, List.nil_append]
      · next other =>
          rw [breaksAt_modifyHead_iff present]
          simp only [ih]
          constructor
          · exact .inr
          · rintro (⟨-, -, comma⟩ | within)
            · exact absurd comma other
            · exact within

/-! ### Pieces -/

/-- The first piece goes on from where the scan starts; all the others start at the top. -/
theorem isUncut_of_topPiecesFrom {others : List (List Char)}
    (cut : topPiecesFrom nesting text = piece :: others) :
    IsUncut nesting piece ∧ ∀ other ∈ others, IsUncut {} other := by
  induction text generalizing nesting piece others with
  | nil =>
      cases cut
      exact ⟨trivial, List.forall_mem_nil _⟩
  | cons c rest ih =>
      rw [topPiecesFrom] at cut
      split at cut
      · next comma =>
          cases cut
          have top : nesting = {} := by
            have shape := comma.2
            simp only [Nesting.isTop, Bool.and_eq_true, Bool.not_eq_true', beq_iff_eq] at shape
            cases nesting
            obtain ⟨rfl, rfl⟩ := shape
            rfl
          obtain ⟨first, more, shape⟩ :=
            List.exists_cons_of_ne_nil (topPiecesFrom_ne_nil nesting rest)
          obtain ⟨begun, later⟩ := ih shape
          rw [shape]
          exact ⟨trivial, List.forall_mem_cons.mpr ⟨top ▸ begun, later⟩⟩
      · next other =>
          obtain ⟨first, more, shape⟩ :=
            List.exists_cons_of_ne_nil (topPiecesFrom_ne_nil (nesting.step c) rest)
          rw [shape] at cut
          obtain ⟨rfl, rfl⟩ := List.cons.inj cut
          obtain ⟨begun, later⟩ := ih shape
          exact ⟨⟨other, begun⟩, later⟩

theorem isUncut_of_mem (member : piece ∈ topPieces text) : IsUncut {} piece := by
  obtain ⟨first, others, shape⟩ := List.exists_cons_of_ne_nil (topPiecesFrom_ne_nil {} text)
  obtain ⟨begun, later⟩ := isUncut_of_topPiecesFrom shape
  rw [topPieces, shape] at member
  rcases List.mem_cons.mp member with rfl | among
  · exact begun
  · exact later piece among

/-- A piece that is split by itself is cut no further. -/
theorem splitTopLevel_of_mem (member : piece ∈ splitTopLevel text) :
    splitTopLevel piece = [piece] := by
  obtain ⟨among, visible⟩ := List.mem_filter.mp member
  rw [splitTopLevel, topPieces_of_isUncut (isUncut_of_mem among)]
  exact List.filter_cons_of_pos visible

/-! ### The depth of a scan -/

theorem depth_step (nesting : Nesting) (c : Char) :
    nesting.depth - 1 ≤ (nesting.step c).depth ∧ (nesting.step c).depth ≤ nesting.depth + 1 := by
  have near : (nesting.step c).depth = nesting.depth ∨
      (nesting.step c).depth = nesting.depth + 1 ∨ (nesting.step c).depth = nesting.depth - 1 := by
    unfold Nesting.step
    repeat' split
    all_goals simp
  omega

/-- A scan opens or closes at most one parenthesis for each character. -/
theorem depth_after (nesting : Nesting) (text : List Char) :
    nesting.depth - text.length ≤ (nesting.after text).depth ∧
      (nesting.after text).depth ≤ nesting.depth + text.length := by
  induction text generalizing nesting with
  | nil => simp [Nesting.after]
  | cons c rest ih =>
      have scanned : nesting.after (c :: rest) = (nesting.step c).after rest := rfl
      have one := depth_step nesting c
      have others := ih (nesting.step c)
      rw [scanned, List.length_cons]
      omega

/-- **Splitting loses nothing and is stable.**  The pieces of a text joined with commas are the
text, which is cut exactly at the commas outside double quotes before which as many parentheses are
closed as opened.  Those that are not blank are kept, and none of them is cut further when it is
split by itself.  The number of open parentheses stays a signed 32-bit number throughout. -/
theorem splitTopLevel_exact {text : String} (sized : text.utf8ByteSize < 2 ^ 31) :
    [','].intercalate (topPieces text.toList) = text.toList ∧
      (∀ before after, BreaksAt (topPieces text.toList) before after ↔
        text.toList = before ++ ',' :: after ∧ ClosesAll before) ∧
      splitTopLevel text.toList =
        (topPieces text.toList).filter (fun piece => !isBlankText piece) ∧
      (∀ piece ∈ splitTopLevel text.toList, isBlankText piece = false ∧
        (∀ before after, piece = before ++ ',' :: after → ¬ ClosesAll before) ∧
        splitTopLevel piece = [piece]) ∧
      ∀ before, before <+: text.toList →
        -2 ^ 31 ≤ (Nesting.after {} before).depth ∧ (Nesting.after {} before).depth < 2 ^ 31 := by
  refine ⟨intercalate_topPiecesFrom _ _, fun before after => ?_, rfl, fun piece member => ?_,
    fun before begins => ?_⟩
  · rw [topPieces, breaksAt_topPiecesFrom_iff, topCommaAt_iff]
  · obtain ⟨among, visible⟩ := List.mem_filter.mp member
    refine ⟨by simpa using visible, fun before after shape closes => ?_,
      splitTopLevel_of_mem member⟩
    exact isUncut_iff.mp (isUncut_of_mem among) before after (topCommaAt_iff.mpr ⟨shape, closes⟩)
  · have bounds := depth_after {} before
    have shorter := begins.length_le
    have bytes := length_le_utf8ByteSize text
    have start : (Nesting.mk false 0).depth = 0 := rfl
    omega

/-- A text with a blank piece, a list, a parenthesis that is closed too often and a quote that is
left open. -/
def tangledText : String := "a,(b,c), ,d),e,\"(f,"

theorem splitTopLevel_exact_tangled :
    splitTopLevel tangledText.toList =
        ["a".toList, "(b,c)".toList, "d),e,\"(f,".toList] ∧
      BreaksAt (topPieces tangledText.toList) "a,(b,c)".toList " ,d),e,\"(f,".toList ∧
      splitTopLevel "d),e,\"(f,".toList = ["d),e,\"(f,".toList] := by
  have sized : tangledText.utf8ByteSize < 2 ^ 31 := by decide
  obtain ⟨-, cuts, -, each, -⟩ := splitTopLevel_exact sized
  have pieces : splitTopLevel tangledText.toList =
      ["a".toList, "(b,c)".toList, "d),e,\"(f,".toList] := by decide
  refine ⟨pieces, (cuts _ _).mpr ⟨by decide, by decide⟩, ?_⟩
  exact (each "d),e,\"(f,".toList (pieces ▸ by decide)).2.2

end TableGate.Text

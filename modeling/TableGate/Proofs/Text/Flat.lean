import TableGate.Proofs.Text.Nested

/-!
# Flat texts

A flat text has lists in parentheses, none inside another, and no quotes (`Flat`).  So every
parenthesis stands where all those before it are closed (`Flat.count_eq`), and a flat text without
commas outside its lists is nested (`Flat.isNested`).
-/

namespace TableGate.Text

variable {commas : Bool} {text left right before after : List Char}

/-- A text of lists in parentheses and of characters that are no marks; between the lists there may
be commas if `commas` says so. -/
inductive Flat (commas : Bool) : List Char → Prop
  | nil : Flat commas []
  | plain {c : Char} {rest : List Char} (allowed : c ∉ marks ∨ (commas = true ∧ c = ','))
      (more : Flat commas rest) : Flat commas (c :: rest)
  | list {inner rest : List Char} (listed : ∀ c ∈ inner, c = ',' ∨ c ∉ marks)
      (more : Flat commas rest) : Flat commas ('(' :: inner ++ ')' :: rest)

/-- In a list there is no mark but the comma. -/
theorem not_mem_of_listed {mark : Char} (listed : ∀ c ∈ text, c = ',' ∨ c ∉ marks)
    (marked : mark ∈ marks) (other : mark ≠ ',') : mark ∉ text :=
  fun member => (listed mark member).elim other fun unmarked => unmarked marked

/-- Neither is there between lists. -/
theorem ne_of_allowed {c mark : Char} (allowed : c ∉ marks ∨ (commas = true ∧ c = ','))
    (marked : mark ∈ marks) (other : mark ≠ ',') : c ≠ mark := by
  rintro rfl
  exact allowed.elim (fun unmarked => unmarked marked) fun comma => other comma.2

namespace Flat

/-- A text without marks is flat. -/
theorem of_unmarked (plain : ∀ c ∈ text, c ∉ marks) : Flat commas text := by
  induction text with
  | nil => exact .nil
  | cons c rest ih =>
      exact .plain (.inl (plain c List.mem_cons_self))
        (ih fun other later => plain other (List.mem_cons_of_mem _ later))

/-- Flat texts in a row are flat. -/
theorem append (front : Flat commas left) (back : Flat commas right) :
    Flat commas (left ++ right) := by
  induction front with
  | nil => exact back
  | plain allowed _ ih => exact .plain allowed ih
  | @list inner rest listed _ ih =>
      have shape : '(' :: inner ++ ')' :: rest ++ right =
          '(' :: inner ++ ')' :: (rest ++ right) := by
        simp
      rw [shape]
      exact .list listed ih

/-- A text that is flat without commas is flat with them. -/
theorem mono (flat : Flat false text) : Flat commas text := by
  induction flat with
  | nil => exact .nil
  | plain allowed _ ih =>
      exact .plain (.inl (allowed.resolve_right fun comma => nomatch comma.1)) ih
  | list listed _ ih => exact .list listed ih

/-- Flat texts with commas between them are flat. -/
theorem intercalate {pieces : List (List Char)} (each : ∀ piece ∈ pieces, Flat false piece) :
    Flat true ([','].intercalate pieces) := by
  induction pieces with
  | nil => exact .nil
  | cons piece rest ih =>
      have first : Flat true piece := (each piece List.mem_cons_self).mono
      cases rest with
      | nil =>
          rw [List.intercalate_singleton]
          exact first
      | cons next more =>
          have others := ih fun other later => each other (List.mem_cons_of_mem _ later)
          rw [List.intercalate_cons_cons, List.append_assoc]
          exact first.append (.plain (.inr ⟨rfl, rfl⟩) others)

/-- In a flat text every parenthesis is closed and no quote is opened. -/
theorem isNested (flat : Flat false text) : Text.isNested false 0 text = true := by
  induction flat with
  | nil => rfl
  | @plain c rest allowed _ ih =>
      have unmarked : c ∉ marks := allowed.resolve_right fun comma => nomatch comma.1
      have head := @isNested_append 0 [c] (by simpa using unmarked) rest
      exact head.trans ih
  | list listed _ ih => rw [isNested_enclosed_append listed, ih]

/-- A flat text without commas of its own is a piece of a split. -/
theorem isPiece (flat : Flat false text) : IsPiece text := isPiece_of_isNested flat.isNested

/-- A flat text has no quotes. -/
theorem quote_not_mem (flat : Flat commas text) : '"' ∉ text := by
  induction flat with
  | nil => exact List.not_mem_nil
  | @plain c rest allowed _ ih =>
      have other : c ≠ '"' := ne_of_allowed allowed (by decide) (by decide)
      exact List.not_mem_cons_of_ne_of_not_mem other.symm ih
  | @list inner rest listed _ ih =>
      have within : '"' ∉ inner := not_mem_of_listed listed (by decide) (by decide)
      simp [within, ih]

/-- Where a parenthesis is opened, all those before it are closed. -/
theorem count_eq (flat : Flat commas text) (opened : text = before ++ '(' :: after) :
    before.count '(' = before.count ')' := by
  induction flat generalizing before with
  | nil => simp at opened
  | @plain c rest allowed _ ih =>
      have opening : c ≠ '(' := ne_of_allowed allowed (by decide) (by decide)
      have closing : c ≠ ')' := ne_of_allowed allowed (by decide) (by decide)
      cases before with
      | nil => exact absurd (List.cons.inj opened).1 opening
      | cons first more =>
          obtain ⟨rfl, later⟩ := List.cons.inj opened
          rw [List.count_cons_of_ne opening, List.count_cons_of_ne closing, ih later]
  | @list inner rest listed _ ih =>
      have opening : '(' ∉ inner := not_mem_of_listed listed (by decide) (by decide)
      have closing : ')' ∉ inner := not_mem_of_listed listed (by decide) (by decide)
      cases before with
      | nil => rfl
      | cons first more =>
          obtain ⟨rfl, later⟩ := List.cons.inj opened
          rcases List.append_eq_append_iff.mp later with
            ⟨front, rfl, shape⟩ | ⟨back, rfl, shape⟩
          · cases front with
            | nil => exact absurd (List.cons.inj shape).1 (by decide)
            | cons mark others =>
                obtain ⟨rfl, remaining⟩ := List.cons.inj shape
                simp [List.count_eq_zero_of_not_mem opening, List.count_eq_zero_of_not_mem closing,
                  ih remaining]
          · -- The next parenthesis would be opened inside the list.
            cases back with
            | nil => exact absurd (List.cons.inj shape).1 (by decide)
            | cons mark others =>
                obtain ⟨rfl, -⟩ := List.cons.inj shape
                exact absurd (List.mem_append_right more List.mem_cons_self) opening

end Flat

end TableGate.Text

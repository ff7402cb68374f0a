import TableGate.Proofs.Text.Splitting

/-!
# Nested texts

A text is nested if it closes whatever it opens, quotes and parentheses alike, and has no comma
outside both (`isNested`).  Such a text is one piece of a split (`isPiece_of_isNested`).  Characters
that are no marks can be put in front of a nested text (`isNested_append`), and so can a list in
parentheses (`isNested_enclosed_append`).
-/

namespace TableGate.Text

variable {quoted : Bool} {depth : Nat} {text rest : List Char}

/-- The characters that a split depends on. -/
def marks : List Char := ['"', '(', ')', ',']

/-- Whether quotes come in pairs, parentheses outside quotes are closed after they are opened, each
of them once, and commas stand in quotes or in parentheses; where the text begins, `depth`
parentheses are open. -/
def isNested (quoted : Bool) (depth : Nat) : List Char → Bool
  | [] => !quoted && depth == 0
  | c :: rest =>
      if c = '"' then isNested (!quoted) depth rest
      else if quoted then isNested quoted depth rest
      else if c = '(' then isNested quoted (depth + 1) rest
      else if c = ')' then
        match depth with
        | 0 => false
        | outer + 1 => isNested quoted outer rest
      else (c != ',' || depth != 0) && isNested quoted depth rest

/-! ### Nested texts are pieces -/

/-- A scan of a nested text meets no comma at the top, and ends there. -/
theorem isUncut_of_isNested (nested : isNested quoted depth text = true) :
    IsUncut ⟨quoted, depth⟩ text ∧ Nesting.after ⟨quoted, depth⟩ text = {} := by
  fun_induction isNested quoted depth text with
  | case1 quoted depth =>
      simp only [Bool.and_eq_true, Bool.not_eq_true', beq_iff_eq] at nested
      obtain ⟨rfl, rfl⟩ := nested
      exact ⟨trivial, rfl⟩
  | case2 quoted depth rest ih =>
      obtain ⟨uncut, ended⟩ := ih nested
      exact ⟨⟨fun comma => absurd comma.1 (by decide), uncut⟩, ended⟩
  | case3 depth c rest other ih =>
      have stays : Nesting.step ⟨true, depth⟩ c = ⟨true, depth⟩ := Nesting.step_of_quoted rfl other
      obtain ⟨uncut, ended⟩ := ih nested
      rw [IsUncut, Nesting.after, List.foldl_cons, stays]
      exact ⟨⟨fun comma => absurd comma.2 Bool.false_ne_true, uncut⟩, ended⟩
  | case4 quoted depth rest unquoted _ ih =>
      obtain rfl := (Bool.not_eq_true quoted).mp unquoted
      have opens : Nesting.step ⟨false, depth⟩ '(' = ⟨false, (depth + 1 : Nat)⟩ := rfl
      obtain ⟨uncut, ended⟩ := ih nested
      rw [IsUncut, Nesting.after, List.foldl_cons, opens]
      exact ⟨⟨fun comma => absurd comma.1 (by decide), uncut⟩, ended⟩
  | case5 => exact absurd nested Bool.false_ne_true
  | case6 quoted rest unquoted outer _ _ ih =>
      obtain rfl := (Bool.not_eq_true quoted).mp unquoted
      have closes : Nesting.step ⟨false, outer.succ⟩ ')' = ⟨false, outer⟩ := by
        simp [Nesting.step]
      obtain ⟨uncut, ended⟩ := ih nested
      rw [IsUncut, Nesting.after, List.foldl_cons, closes]
      exact ⟨⟨fun comma => absurd comma.1 (by decide), uncut⟩, ended⟩
  | case7 quoted depth c rest quote unquoted opening closing ih =>
      obtain rfl := (Bool.not_eq_true quoted).mp unquoted
      have stays : Nesting.step ⟨false, depth⟩ c = ⟨false, depth⟩ := by
        simp [Nesting.step, quote, opening, closing]
      rw [Bool.and_eq_true] at nested
      obtain ⟨uncut, ended⟩ := ih nested.2
      rw [IsUncut, Nesting.after, List.foldl_cons, stays]
      refine ⟨⟨?_, uncut⟩, ended⟩
      rintro ⟨rfl, top⟩
      -- At the top no parenthesis is open, where a nested text has no comma.
      have level : depth = 0 := by simpa [Nesting.isTop] using top
      exact absurd nested.1 (by simp [level])

theorem isPiece_of_isNested (nested : isNested false 0 text = true) : IsPiece text :=
  have scanned := isUncut_of_isNested nested
  ⟨scanned.1, scanned.2⟩

/-! ### Nested texts part by part -/

/-- Characters that are no marks make no difference. -/
theorem isNested_append (plain : ∀ c ∈ text, c ∉ marks) (rest : List Char) :
    isNested false depth (text ++ rest) = isNested false depth rest := by
  induction text with
  | nil => rfl
  | cons c more ih =>
      have head := plain c List.mem_cons_self
      simp only [marks, List.mem_cons, List.not_mem_nil, or_false, not_or] at head
      obtain ⟨quote, opening, closing, comma⟩ := head
      rw [← ih fun other later => plain other (List.mem_cons_of_mem _ later)]
      simp [isNested, quote, opening, closing, comma]

/-- In parentheses commas make no difference either. -/
theorem isNested_inside_append (plain : ∀ c ∈ text, c = ',' ∨ c ∉ marks) (rest : List Char) :
    isNested false (depth + 1) (text ++ rest) = isNested false (depth + 1) rest := by
  induction text with
  | nil => rfl
  | cons c more ih =>
      rw [← ih fun other later => plain other (List.mem_cons_of_mem _ later)]
      rcases plain c List.mem_cons_self with rfl | unmarked
      · simp [isNested]
      · have head := @isNested_append (depth + 1) [c] (by simpa using unmarked) (more ++ rest)
        exact head

/-- A list in parentheses makes no difference. -/
theorem isNested_enclosed_append (plain : ∀ c ∈ text, c = ',' ∨ c ∉ marks) (rest : List Char) :
    isNested false depth ('(' :: text ++ ')' :: rest) = isNested false depth rest := by
  have opened : isNested false depth ('(' :: text ++ ')' :: rest) =
      isNested false (depth + 1) (text ++ ')' :: rest) := by
    simp [isNested]
  rw [opened, isNested_inside_append plain]
  simp [isNested]

end TableGate.Text

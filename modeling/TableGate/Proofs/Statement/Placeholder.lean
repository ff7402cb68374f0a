import TableGate.Proofs.Compile.BindingOrder
import TableGate.Proofs.Statement.Naming

/-!
# Placeholders in the text of a statement

A placeholder is a dollar sign and the digits after it.  Dollar signs are written for bound values
only, and no numeral is written right after one, so the placeholders of a statement's text are
those of its values, from left to right and each once (`Sql.Statement.dollarRuns_text`).  The main
theorem, `Compile.Call.placeholders_of_draft`, says this of a call that is drafted in order: the
numbers that its values get when they are bound are those of their places in the text.
-/

namespace TableGate

/-- The run of digits after each dollar sign of a text, from left to right. -/
def dollarRuns : List Char → List (List Char)
  | [] => []
  | c :: rest =>
      if c = '$' then rest.takeWhile Char.isDigit :: dollarRuns rest else dollarRuns rest

/-- A text does not go on with digits. -/
def Settled (text : List Char) : Prop := ∀ c, text.head? = some c → c.isDigit = false

/-- A text that is at its end does not go on. -/
theorem settled_nil : Settled [] := by
  intro c begins
  cases begins

/-- The placeholders of a text are the numbers after its dollar signs. -/
theorem Draft.placeholdersIn_eq (text : List Char) :
    placeholdersIn text = (dollarRuns text).filterMap (Text.naturalBelow? Text.wordBound) := by
  induction text with
  | nil => rfl
  | cons c rest ih =>
      rw [placeholdersIn, dollarRuns]
      split
      · rw [ih, List.filterMap_cons]
        cases Text.naturalBelow? Text.wordBound (rest.takeWhile Char.isDigit) <;> rfl
      · exact ih

/-- A text without dollar signs has no placeholders. -/
theorem dollarRuns_append_of_absent {front : List Char} (absent : '$' ∉ front)
    (back : List Char) : dollarRuns (front ++ back) = dollarRuns back := by
  induction front with
  | nil => rfl
  | cons c rest ih =>
      obtain ⟨other, later⟩ := not_or.mp (mt List.mem_cons.mpr absent)
      rw [List.cons_append, dollarRuns, if_neg (Ne.symm other)]
      exact ih later

/-- A run of digits ends where the text does not go on with digits. -/
theorem takeWhile_isDigit {run rest : List Char} (digits : ∀ c ∈ run, c.isDigit = true)
    (settled : Settled rest) : (run ++ rest).takeWhile Char.isDigit = run := by
  rw [List.takeWhile_append_of_pos digits]
  cases rest with
  | nil => exact List.append_nil _
  | cons c more =>
      rw [List.takeWhile_cons_of_neg (by simp [settled c rfl]), List.append_nil]

/-- A placeholder is read with its own number where no more digits follow. -/
theorem dollarRuns_placeholder {rest : List Char} (settled : Settled rest) (number : Nat) :
    dollarRuns ((Sql.placeholder number).toList ++ rest) =
      Text.digits number :: dollarRuns rest := by
  have shape : (Sql.placeholder number).toList ++ rest = '$' :: (Text.digits number ++ rest) := by
    simp [Sql.placeholder]
  have absent : '$' ∉ Text.digits number := Sql.not_mem_digits (by decide) number
  have run : (Text.digits number ++ rest).takeWhile Char.isDigit = Text.digits number :=
    takeWhile_isDigit (fun c member => Sql.isDigit_of_mem_digits member) settled
  rw [shape, dollarRuns, if_pos rfl, run, dollarRuns_append_of_absent absent]

namespace Sql

/-! ### Tokens -/

/-- No word of a statement begins with a digit. -/
theorem Word.settled (word : Word) (rest : List Char) : Settled (word.text.toList ++ rest) := by
  cases word <;> (rintro c begins; cases begins; decide)

/-- No word of a statement has a dollar sign. -/
theorem Word.dollar_not_mem (word : Word) : '$' ∉ word.text.toList := by
  cases word <;> decide

/-- No name has a dollar sign. -/
theorem dollar_not_mem_ident (name : Ident) : '$' ∉ name.text.toList :=
  name.not_mem_text (by decide)

/-- A token that is no numeral does not begin with a digit. -/
theorem Token.settled {token : Token} (plain : ∀ number, token ≠ .numeral number) (number : Nat)
    (rest : List Char) : Settled ((token.text number).toList ++ rest) := by
  have begun {c : Char} {text : List Char} (sign : c.isDigit = false) : Settled (c :: text) :=
    fun _ same => Option.some.inj same ▸ sign
  cases token with
  | word word => exact word.settled rest
  | name ident => simpa [Token.text, Ident.quoted] using begun (by decide)
  | label ident => simpa [Token.text] using begun (by decide)
  | numeral found => exact absurd rfl (plain found)
  | value datum => simpa [Token.text, placeholder] using begun (by decide)

/-- Only values are written with a dollar sign. -/
theorem Token.dollar_not_mem {token : Token} (unbound : token.arity = 0) (number : Nat) :
    '$' ∉ (token.text number).toList := by
  cases token with
  | word word => exact word.dollar_not_mem
  | name ident => simp [Token.text, Ident.quoted, dollar_not_mem_ident]
  | label ident => simp [Token.text, dollar_not_mem_ident]
  | numeral found => simpa [Token.text] using not_mem_digits (by decide) found
  | value datum => exact absurd unbound (Nat.succ_ne_zero 0)

namespace Fragment

variable {first : Nat} {fragment : Fragment} {rest : List Char}

/-- A fragment without numerals does not begin with a digit. -/
theorem settled_text (plain : ∀ number, .numeral number ∉ fragment) (settled : Settled rest) :
    Settled ((text first fragment).toList ++ rest) := by
  cases fragment with
  | nil => simpa using settled
  | cons token more =>
      rw [text_cons, String.toList_append, List.append_assoc]
      apply Token.settled
      rintro number rfl
      exact plain number List.mem_cons_self

/-- The placeholders of a fragment without numerals are those of its values, one after another. -/
theorem dollarRuns_text (plain : ∀ number, .numeral number ∉ fragment) (settled : Settled rest) :
    dollarRuns ((text first fragment).toList ++ rest) =
      (List.range' first (values fragment).length).map Text.digits ++ dollarRuns rest := by
  induction fragment generalizing first with
  | nil => simp
  | cons token more ih =>
      have later : ∀ number, .numeral number ∉ more :=
        fun number member => plain number (List.mem_cons_of_mem _ member)
      rw [text_cons, String.toList_append, List.append_assoc, length_values_cons]
      cases token with
      | value datum =>
          -- what follows a placeholder begins with no digit, because no numeral comes next
          have bound : Token.arity (.value datum) + (values more).length =
              (values more).length + 1 := Nat.add_comm _ _
          rw [bound, List.range'_succ, List.map_cons, List.cons_append]
          rw [Token.text, dollarRuns_placeholder (settled_text later settled), ih later]
          rfl
      | _ =>
          rw [dollarRuns_append_of_absent (Token.dollar_not_mem rfl first), ih later]
          simp [Token.arity]

/-- A fragment that binds nothing is written without dollar signs. -/
theorem dollar_not_mem_text (unbound : ∀ token ∈ fragment, token.arity = 0) :
    '$' ∉ (text first fragment).toList := by
  induction fragment generalizing first with
  | nil => exact List.not_mem_nil
  | cons token more ih =>
      have head := Token.dollar_not_mem (unbound token List.mem_cons_self) first
      have later : ∀ other ∈ more, other.arity = 0 :=
        fun other member => unbound other (List.mem_cons_of_mem _ member)
      rw [text_cons, String.toList_append, List.mem_append]
      exact not_or.mpr ⟨head, ih later⟩

/-- A fragment whose tokens bind nothing has no values. -/
theorem values_eq_nil (unbound : ∀ token ∈ fragment, token.arity = 0) : values fragment = [] := by
  induction fragment with
  | nil => rfl
  | cons token more ih =>
      have length := length_values_cons token more
      rw [unbound token List.mem_cons_self,
        ih fun other later => unbound other (List.mem_cons_of_mem _ later)] at length
      exact List.length_eq_zero_iff.mp length

end Fragment

/-! ### Statements -/

/-- The tokens of a page bind nothing. -/
theorem Page.unbound {page : Page} : ∀ token ∈ page.tokens, token.arity = 0 := by
  intro token member
  rcases Page.word_or_numeral member with ⟨word, rfl⟩ | ⟨number, rfl⟩ <;> rfl

/-- A page begins with a word. -/
theorem Page.settled (page : Page) (first : Nat) : Settled (page.tokens.text first).toList := by
  rw [tokens, List.cons_append, Fragment.text_word_cons, String.toList_append]
  exact Word.limited.settled _

/-- All the names there are make up a statement, whatever it is. -/
theorem Statement.namedBy_true (statement : Statement) :
    statement.NamedBy (fun _ => True) (fun _ => True) := by
  have column (column : Column) : column.NamedBy fun _ => True := ⟨fun _ _ => trivial, trivial⟩
  cases statement with
  | select statement =>
      have join (join : Join) : join.NamedBy (fun _ => True) fun _ => True :=
        ⟨trivial, trivial, trivial, trivial, trivial, fun _ _ _ _ => ⟨trivial, trivial⟩,
          fun _ _ => trivial⟩
      exact ⟨⟨trivial, fun _ _ => trivial, fun found _ => join found⟩,
        fun _ _ found _ => column found, fun _ _ => trivial⟩
  | insert statement => exact ⟨trivial, fun _ _ => trivial⟩
  | update statement =>
      exact ⟨trivial, fun _ _ => trivial, fun _ _ found _ => column found⟩
  | delete statement => exact ⟨trivial, fun _ _ found _ => column found⟩

/-- The placeholders of a statement's text are those of its values, numbered from one. -/
theorem Statement.dollarRuns_text (statement : Statement) :
    dollarRuns statement.text.toList =
      (List.range' 1 statement.values.length).map Text.digits := by
  have plain := (Statement.known statement.namedBy_true).numeral_not_mem
  rw [Statement.text, Statement.values, tokens_eq_append, Fragment.text_append,
    Fragment.values_append, String.toList_append]
  cases statement.page? with
  | none =>
      have ended : dollarRuns ((Fragment.text 1 statement.body).toList ++ []) = _ :=
        Fragment.dollarRuns_text plain settled_nil
      simpa [dollarRuns] using ended
  | some page =>
      have unmarked (first : Nat) : dollarRuns (page.tokens.text first).toList = [] := by
        rw [← List.append_nil (page.tokens.text first).toList]
        exact dollarRuns_append_of_absent (Fragment.dollar_not_mem_text Page.unbound) []
      rw [Option.map_some, Option.getD_some, Fragment.dollarRuns_text plain (page.settled _),
        unmarked, Fragment.values_eq_nil Page.unbound, List.append_nil, List.append_nil]

end Sql

/-! ### Drafts -/

/-- A number below the bound is read back from its digits. -/
theorem Text.naturalBelow?_digits {bound number : Nat} (below : number < bound) :
    naturalBelow? bound (digits number) = some number := by
  rw [naturalBelow?, natural?_digits, Option.filter_some, decide_eq_true below, if_pos rfl]

/-- Numbers below the bound are read back from their digits. -/
theorem Text.filterMap_naturalBelow?_digits {bound : Nat} {numbers : List Nat}
    (below : ∀ number ∈ numbers, number < bound) :
    (numbers.map digits).filterMap (naturalBelow? bound) = numbers := by
  induction numbers with
  | nil => rfl
  | cons number rest ih =>
      have read := naturalBelow?_digits (below number List.mem_cons_self)
      rw [List.map_cons, List.filterMap_cons_some read,
        ih fun other later => below other (List.mem_cons_of_mem _ later)]

namespace Compile

/-- A call that is drafted, each value bound where its part is met, gives the text and the values of
the statement that it compiles to, or is refused alike.  The placeholders in the text are `$1`, `$2`
and so on up to the number of its values, in this order.  They are read as 64-bit numbers, so a
draft passes for complete as long as its values can be counted by such numbers. -/
theorem Call.placeholders_of_draft (scope : Scope) (table : Table) (call : Call) :
    call.draft scope table = (call.compile scope table).map Draft.ofStatement ∧
      ∀ draft, call.draft scope table = .ok draft →
        dollarRuns draft.text.toList = (List.range' 1 draft.values.length).map Text.digits ∧
        (draft.values.length < Text.wordBound →
          draft.placeholders = List.range' 1 draft.values.length ∧ draft.isComplete = true) := by
  refine ⟨call.draft_eq, fun draft drafted => ?_⟩
  rw [Call.draft_eq] at drafted
  obtain ⟨statement, -, rfl⟩ := map_eq_ok.mp drafted
  have runs : dollarRuns (Draft.ofStatement statement).text.toList =
      (List.range' 1 (Draft.ofStatement statement).values.length).map Text.digits :=
    statement.dollarRuns_text
  refine ⟨runs, fun few => ?_⟩
  have read : (Draft.ofStatement statement).placeholders =
      List.range' 1 (Draft.ofStatement statement).values.length := by
    rw [Draft.placeholders, Draft.placeholdersIn_eq, runs]
    apply Text.filterMap_naturalBelow?_digits
    intro number member
    have bounds := List.mem_range'_1.mp member
    omega
  have sorted : (List.range' 1 (Draft.ofStatement statement).values.length).Pairwise
      fun left right => decide (left ≤ right) = true := by
    apply List.Pairwise.imp _ List.pairwise_lt_range'
    intro left right less
    exact decide_eq_true (Nat.le_of_lt less)
  refine ⟨read, ?_⟩
  rw [Draft.isComplete, read, List.mergeSort_of_pairwise sorted, beq_self_eq_true]

/-- A table of notes that belong to tenants. -/
def noteTable : Table := ⟨⟨"notes", by decide⟩, true⟩

/-- An insert of two notes, of which each lacks a column of the other; a title looks like a
placeholder. -/
def noteCall : Call :=
  .insert [.ofFields [("title", .string "$9"), ("done", .null)], .ofFields [("done", .bool true)]]

theorem Call.placeholders_of_draft_notes :
    ∃ draft, noteCall.draft ⟨.ofTable noteTable, .forTenant "north"⟩ noteTable = .ok draft ∧
      draft.text = "INSERT INTO \"notes\" (\"title\", \"tenant_id\", \"done\") VALUES " ++
        "($1, $2, DEFAULT), (DEFAULT, $3, $4) RETURNING *" ∧
      draft.values.length = 4 ∧
      dollarRuns draft.text.toList = [['1'], ['2'], ['3'], ['4']] ∧
      draft.placeholders = [1, 2, 3, 4] ∧ draft.isComplete = true := by
  have written : ((noteCall.draft ⟨.ofTable noteTable, .forTenant "north"⟩ noteTable).map
      fun draft => (draft.text, draft.values.length)).toOption =
        some ("INSERT INTO \"notes\" (\"title\", \"tenant_id\", \"done\") VALUES " ++
          "($1, $2, DEFAULT), (DEFAULT, $3, $4) RETURNING *", 4) := by
    decide +kernel
  cases drafted : noteCall.draft ⟨.ofTable noteTable, .forTenant "north"⟩ noteTable with
  | error error =>
      rw [drafted] at written
      exact absurd written nofun
  | ok draft =>
      rw [drafted] at written
      obtain ⟨text, count⟩ := Prod.mk.inj (Option.some.inj written)
      obtain ⟨runs, complete⟩ := (Call.placeholders_of_draft _ noteTable noteCall).2 draft drafted
      rw [count] at runs complete
      exact ⟨draft, rfl, text, count, runs, complete (by decide)⟩

end Compile

end TableGate

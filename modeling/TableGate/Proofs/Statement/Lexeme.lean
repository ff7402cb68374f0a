import TableGate.Proofs.Statement.Keyword

/-!
# Lexemes of a text

The text of a statement can be cut into lexemes: words of the fixed vocabulary, names in double
quotes, labels in single quotes, placeholders and numerals.  A quote stands in a text only as one of
the two around a name or a label (`Lexeme.count_quote`), and no semicolon and no mark of a comment
stands in it at all.  `LexicallySafe` says all of this of a text; a fragment has such a text if its
names are known and its numerals placed (`Fragment.lexicallySafe`).
-/

namespace TableGate.Sql

/-- A smallest part of a text. -/
inductive Lexeme
  | word (fixed : Word)
  | name (ident : Ident)
  | label (ident : Ident)
  | placeholder (number : Nat)
  | numeral (number : Nat)
deriving DecidableEq, Repr

namespace Lexeme

def text : Lexeme → String
  | .word fixed => fixed.text
  | .name ident => "\"" ++ ident.text ++ "\""
  | .label ident => "'" ++ ident.text ++ "'"
  | .placeholder number => "$" ++ String.ofList (Text.digits number)
  | .numeral number => String.ofList (Text.digits number)

/-- The quote on either side of a name or a label. -/
def quote? : Lexeme → Option Char
  | .name _ => some '"'
  | .label _ => some '\''
  | _ => none

/-- The text that lexemes make up. -/
def join (lexemes : List Lexeme) : String := String.join (lexemes.map text)

@[simp]
theorem join_cons (lexeme : Lexeme) (rest : List Lexeme) :
    join (lexeme :: rest) = lexeme.text ++ join rest := by
  rw [join, List.map_cons, String.join_cons, join]

/-- A quote stands in a lexeme on its two sides or nowhere. -/
theorem count_text {c : Char} (quote : c = '"' ∨ c = '\'') (lexeme : Lexeme) :
    lexeme.text.toList.count c = if lexeme.quote? = some c then 2 else 0 := by
  have outside : isIdentPart c = false := by
    rcases quote with rfl | rfl <;> decide
  have apart : c ≠ '$' := by
    rcases quote with rfl | rfl <;> decide
  have ident (name : Ident) : name.text.toList.count c = 0 :=
    List.count_eq_zero.mpr (name.not_mem_text outside)
  have digits (number : Nat) : (Text.digits number).count c = 0 :=
    List.count_eq_zero.mpr (not_mem_digits outside number)
  cases lexeme with
  | word fixed =>
      rcases quote with rfl | rfl <;> cases fixed <;> decide
  | name name =>
      rcases quote with rfl | rfl <;> simp [text, quote?, ident]
  | label name =>
      rcases quote with rfl | rfl <;> simp [text, quote?, ident]
  | placeholder number =>
      simp [text, quote?, digits, apart.symm]
  | numeral number => simp [text, quote?, digits]

theorem count_quote {c : Char} (quote : c = '"' ∨ c = '\'') (lexemes : List Lexeme) :
    (join lexemes).toList.count c = 2 * lexemes.countP fun lexeme => lexeme.quote? = some c := by
  induction lexemes with
  | nil => rfl
  | cons lexeme rest ih =>
      rw [join_cons, String.toList_append, List.count_append, ih, count_text quote,
        List.countP_cons]
      by_cases enclosed : lexeme.quote? = some c
      · simp only [enclosed, ↓reduceIte, decide_true]
        omega
      · simp only [enclosed, ↓reduceIte, decide_false, Bool.false_eq_true]
        omega

/-- Every numeral comes right after the word for a limit or that for an offset. -/
def NumeralsPlaced (lexemes : List Lexeme) : Prop :=
  ∀ before number after, lexemes = before ++ .numeral number :: after →
    before.getLast? = some (.word .limited) ∨ before.getLast? = some (.word .skipping)

theorem numeralsPlaced_of_absent {lexemes : List Lexeme}
    (absent : ∀ number, .numeral number ∉ lexemes) : NumeralsPlaced lexemes := by
  rintro before number after rfl
  exact absurd (List.mem_append_right before List.mem_cons_self) (absent number)

theorem numeralsPlaced_pair {word : Word} (placing : word = .limited ∨ word = .skipping)
    (number : Nat) : NumeralsPlaced [.word word, .numeral number] := by
  intro before found after shape
  cases before with
  | nil => exact absurd shape nofun
  | cons head more =>
      obtain ⟨rfl, rest⟩ := List.cons.inj shape
      cases more with
      | nil =>
          rcases placing with rfl | rfl
          · exact .inl rfl
          · exact .inr rfl
      | cons second others =>
          have length := congrArg List.length rest
          simp at length

/-- Numerals that are placed stay so whatever comes before or after. -/
theorem NumeralsPlaced.append {left right : List Lexeme} (front : NumeralsPlaced left)
    (back : NumeralsPlaced right) : NumeralsPlaced (left ++ right) := by
  intro before number after shape
  -- the numeral stands in the second part, or it stands in the first
  rcases List.append_eq_append_iff.mp shape with ⟨middle, rfl, inner⟩ | ⟨middle, inner, rest⟩
  · rcases back middle number after inner with placed | placed
    · exact .inl (by rw [List.getLast?_append, placed, Option.some_or])
    · exact .inr (by rw [List.getLast?_append, placed, Option.some_or])
  · cases middle with
    | nil =>
        rcases back [] number after rest.symm with placed | placed
        · exact absurd placed nofun
        · exact absurd placed nofun
    | cons head more =>
        obtain ⟨rfl, -⟩ := List.cons.inj rest
        exact front before number more inner

end Lexeme

/-- How a text is made up of lexemes whose names and labels are known: where its numerals and its
quotes stand, and that it has no mark that ends a statement or belongs to a comment. -/
structure LexicallySafe (names labels : Ident → Prop) (lexemes : List Lexeme) (text : String) :
    Prop where
  cut : text = Lexeme.join lexemes
  names : ∀ name, .name name ∈ lexemes → names name
  labels : ∀ name, .label name ∈ lexemes → labels name
  numerals : Lexeme.NumeralsPlaced lexemes
  quotes : ∀ c, c = '"' ∨ c = '\'' →
    text.toList.count c = 2 * lexemes.countP fun lexeme => lexeme.quote? = some c
  marks : ∀ mark ∈ [";", "--", "/*", "*/"], ¬ Mentions mark text

/-! ### Fragments -/

/-- The lexeme of a token whose placeholder, if it has one, gets the given number. -/
def Token.lexeme (number : Nat) : Token → Lexeme
  | .word fixed => .word fixed
  | .name ident => .name ident
  | .label ident => .label ident
  | .numeral n => .numeral n
  | .value _ => .placeholder number

@[simp]
theorem Token.text_lexeme (number : Nat) (token : Token) :
    (token.lexeme number).text = token.text number := by
  cases token <;> rfl

namespace Fragment

variable {first : Nat}

/-- The lexemes of a fragment whose first placeholder gets the given number. -/
def lexemes (first : Nat) : Fragment → List Lexeme
  | [] => []
  | token :: rest => token.lexeme first :: lexemes (first + token.arity) rest

theorem join_lexemes (fragment : Fragment) :
    Lexeme.join (lexemes first fragment) = text first fragment := by
  induction fragment generalizing first with
  | nil => rfl
  | cons token rest ih =>
      rw [lexemes, Lexeme.join_cons, ih, Token.text_lexeme, text_cons]

theorem lexemes_append (left right : Fragment) :
    lexemes first (left ++ right) =
      lexemes first left ++ lexemes (first + (values left).length) right := by
  induction left generalizing first with
  | nil => rfl
  | cons token rest ih =>
      rw [List.cons_append, lexemes, ih, lexemes, List.cons_append, length_values_cons,
        Nat.add_assoc]

theorem mem_of_mem_lexemes {fragment : Fragment} {lexeme : Lexeme}
    (member : lexeme ∈ lexemes first fragment) :
    ∃ token ∈ fragment, ∃ number, token.lexeme number = lexeme := by
  induction fragment generalizing first with
  | nil => exact absurd member List.not_mem_nil
  | cons token rest ih =>
      rcases List.mem_cons.mp member with rfl | later
      · exact ⟨token, List.mem_cons_self, first, rfl⟩
      · obtain ⟨found, present, shape⟩ := ih later
        exact ⟨found, List.mem_cons_of_mem _ present, shape⟩

/-- No statement has a mark that ends it or belongs to a comment. -/
theorem not_mentions_mark {mark : String} (listed : mark ∈ [";", "--", "/*", "*/"])
    (fragment : Fragment) : ¬ Mentions mark (text first fragment) := by
  have absent (c : Char) (among : c ∈ [';', '-', '/']) : c ∉ (text first fragment).toList := by
    apply not_mem_text
    · simp only [List.mem_cons, List.not_mem_nil, or_false] at among
      rcases among with rfl | rfl | rfl <;> decide
    · simp only [List.mem_cons, List.not_mem_nil, or_false] at among
      rcases among with rfl | rfl | rfl <;> decide
    · intro word _
      simp only [List.mem_cons, List.not_mem_nil, or_false] at among
      rcases among with rfl | rfl | rfl <;> cases word <;> decide
  intro mentioned
  have within (c : Char) (spelled : c ∈ mark.toList) : c ∉ [';', '-', '/'] := fun among =>
    absent c among (mentioned.subset spelled)
  simp only [List.mem_cons, List.not_mem_nil, or_false] at listed
  rcases listed with rfl | rfl | rfl | rfl
  · exact within ';' (by decide) (by decide)
  · exact within '-' (by decide) (by decide)
  · exact within '/' (by decide) (by decide)
  · exact within '/' (by decide) (by decide)

end Fragment

end TableGate.Sql

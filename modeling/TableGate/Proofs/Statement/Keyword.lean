import TableGate.Proofs.Statement.Layout
import TableGate.Proofs.Text.Name

/-!
# Keywords in the text of a statement

A keyword stands between blanks, and blanks are written by the fixed vocabulary only.  So the text
of a fragment mentions a keyword only where one of its words does (`not_mentions_text`): neither a
name, whatever its letters, nor a placeholder or a numeral can make one up, and no keyword arises
at the seam of two tokens.
-/

namespace TableGate.Sql

/-- Whether a text mentions a keyword, the blanks around it included. -/
def Mentions (keyword text : String) : Prop := keyword.toList <:+: text.toList

namespace Keyword

/-- The characters of a keyword of the given letters: a blank on either side. -/
def spaced (letters : List Char) : List Char := ' ' :: (letters ++ [' '])

/-- A keyword is spelled with the given letters, of which the first is a capital one and none is a
blank. -/
def IsSpelled (initial : Char) (others : List Char) (keyword : String) : Prop :=
  keyword.toList = spaced (initial :: others) ∧ initial.isUpper = true ∧ ' ' ∉ initial :: others

instance (initial : Char) (others : List Char) (keyword : String) :
    Decidable (IsSpelled initial others keyword) :=
  inferInstanceAs (Decidable (_ ∧ _ ∧ _))

/-- What is left of a keyword to be read after one more character; nothing once it has been read.
A character that does not fit starts the keyword again. -/
def follow (keyword : List Char) : List Char → Char → List Char
  | [], _ => []
  | next :: more, c => if c = next then more else if c = ' ' then keyword.tail else keyword

/-- What is left of a keyword to be read after a text. -/
def scan (keyword left text : List Char) : List Char := text.foldl (follow keyword) left

variable {letters left text : List Char}

/-- A keyword that has been read stays read. -/
theorem scan_nil (keyword : List Char) : scan keyword [] text = [] := by
  induction text with
  | nil => rfl
  | cons c rest ih => exact ih

/-- A text is scanned part by part. -/
theorem scan_append (keyword : List Char) (first second : List Char) :
    scan keyword left (first ++ second) = scan keyword (scan keyword left first) second :=
  List.foldl_append

/-- Reading what is left of a keyword leaves nothing. -/
theorem scan_self (keyword : List Char) : scan keyword text text = [] := by
  induction text with
  | nil => rfl
  | cons c rest ih =>
      rw [scan, List.foldl_cons, follow, if_pos rfl]
      exact ih

/-- What is left of a keyword is always an ending of it. -/
theorem follow_suffix {keyword : List Char} (ending : left <:+ keyword) (c : Char) :
    follow keyword left c <:+ keyword := by
  cases left with
  | nil => exact ending
  | cons next more =>
      rw [follow]
      split
      · exact (List.suffix_cons next more).trans ending
      · split
        · exact List.tail_suffix keyword
        · exact List.suffix_refl keyword

/-- What is left is always an end of the keyword. -/
theorem scan_suffix {keyword : List Char} (ending : left <:+ keyword) :
    scan keyword left text <:+ keyword := by
  induction text generalizing left with
  | nil => exact ending
  | cons c rest ih => exact ih (follow_suffix ending c)

/-- After a blank the keyword has been read, or its letters are due. -/
theorem follow_blank (solid : ' ' ∉ letters) (ending : left <:+ spaced letters) :
    follow (spaced letters) left ' ' = [] ∨
      follow (spaced letters) left ' ' = letters ++ [' '] := by
  cases left with
  | nil => exact .inl rfl
  | cons next more =>
      rw [follow]
      split
      · next same =>
          subst same
          rcases List.suffix_cons_iff.mp ending with whole | inner
          · exact .inr (List.cons.inj whole).2
          · rcases List.suffix_concat_iff.mp inner with empty | ⟨front, shape, within⟩
            · exact absurd empty (List.cons_ne_nil _ _)
            · cases front with
              | nil => exact .inl (List.cons.inj shape).2
              | cons head tail =>
                  obtain ⟨rfl, -⟩ := List.cons.inj shape
                  exact absurd (within.subset List.mem_cons_self) solid
      · exact .inr (if_pos rfl)

/-- A text that mentions the keyword leaves nothing of it to be read. -/
theorem scan_eq_nil_of_infix (solid : ' ' ∉ letters) (mentioned : spaced letters <:+: text) :
    scan (spaced letters) (spaced letters) text = [] := by
  obtain ⟨before, after, rfl⟩ := mentioned
  have ending : scan (spaced letters) (spaced letters) before <:+ spaced letters :=
    scan_suffix (List.suffix_refl _)
  have started : scan (spaced letters) (spaced letters) (before ++ spaced letters) = [] := by
    rw [scan_append]
    -- the first blank of the keyword is the last of an earlier one, or its letters are due after it
    change scan (spaced letters)
      (follow (spaced letters) (scan (spaced letters) (spaced letters) before) ' ')
      (letters ++ [' ']) = []
    rcases follow_blank solid ending with done | due
    · rw [done, scan_nil]
    · rw [due, scan_self]
  rw [scan_append, started, scan_nil]

/-! ### Seams -/

/-- Nothing of the keyword has been read, or only the blank before it. -/
def AtSeam (letters left : List Char) : Prop := left = spaced letters ∨ left = letters ++ [' ']

instance (letters left : List Char) : Decidable (AtSeam letters left) :=
  inferInstanceAs (Decidable (_ ∨ _))

/-- A text after which the keyword still has to be read, wherever between tokens it stands. -/
def Passes (letters text : List Char) : Prop :=
  AtSeam letters (scan (spaced letters) (spaced letters) text) ∧
    AtSeam letters (scan (spaced letters) (letters ++ [' ']) text)

instance (letters text : List Char) : Decidable (Passes letters text) :=
  inferInstanceAs (Decidable (_ ∧ _))

/-- A text that is passed at a seam ends at a seam. -/
theorem Passes.at_seam (passes : Passes letters text) (seam : AtSeam letters left) :
    AtSeam letters (scan (spaced letters) left text) := by
  rcases seam with rfl | rfl
  · exact passes.1
  · exact passes.2

theorem passes_nil (letters : List Char) : Passes letters [] := ⟨.inl rfl, .inr rfl⟩

/-- Texts that are passed one after another are passed together. -/
theorem Passes.append {first second : List Char} (front : Passes letters first)
    (back : Passes letters second) : Passes letters (first ++ second) := by
  rw [Passes, scan_append, scan_append]
  exact ⟨back.at_seam front.1, back.at_seam front.2⟩

/-- A keyword with blanks around it is not in a text that is passed. -/
theorem Passes.absent (solid : ' ' ∉ letters) (passes : Passes letters text) :
    ¬ spaced letters <:+: text := by
  intro mentioned
  have done := scan_eq_nil_of_infix solid mentioned
  rcases passes.1 with still | still
  · rw [done] at still
    exact List.cons_ne_nil _ _ still.symm
  · rw [done] at still
    exact List.append_ne_nil_of_right_ne_nil letters (List.cons_ne_nil _ _) still.symm

/-- A text without blanks leaves a keyword unread of which nothing has been read. -/
theorem scan_of_no_blank (plain : ' ' ∉ text) :
    scan (spaced letters) (spaced letters) text = spaced letters := by
  induction text with
  | nil => rfl
  | cons c rest ih =>
      have different : c ≠ ' ' := fun same => plain (same ▸ List.mem_cons_self)
      have begun : follow (spaced letters) (spaced letters) c = spaced letters := by
        simp only [spaced, follow, different, ↓reduceIte]
      rw [scan, List.foldl_cons, begun]
      exact ih fun later => plain (List.mem_cons_of_mem _ later)

/-- A text without blanks passes if the keyword does not begin as the text does. -/
theorem passes_of_no_blank {initial : Char} {others : List Char} (plain : ' ' ∉ text)
    (apart : text.head? ≠ some initial) : Passes (initial :: others) text := by
  refine ⟨.inl (scan_of_no_blank plain), ?_⟩
  cases text with
  | nil => exact .inr rfl
  | cons c rest =>
      have different : c ≠ ' ' := fun same => plain (same ▸ List.mem_cons_self)
      have unfit : c ≠ initial := fun same => apart (congrArg some same)
      have begun : follow (spaced (initial :: others)) (initial :: others ++ [' ']) c =
          spaced (initial :: others) := by
        simp only [List.cons_append, follow, unfit, different, ↓reduceIte]
      rw [scan, List.foldl_cons, begun]
      exact .inl (scan_of_no_blank fun later => plain (List.mem_cons_of_mem _ later))

end Keyword

open Keyword

/-! ### Tokens -/

/-- A number is written in digits. -/
theorem isDigit_of_mem_digits {n : Nat} {c : Char} (member : c ∈ Text.digits n) :
    c.isDigit = true :=
  Nat.isDigit_of_mem_toDigits (by decide) (by decide) member

/-- Digits come before capital letters. -/
theorem not_isDigit_of_isUpper {c : Char} (capital : c.isUpper = true) : ¬ c.isDigit = true := by
  intro digit
  have above : c.val ≥ 'A'.val := (of_decide_eq_true capital).1
  have below : c.val ≤ '9'.val := of_decide_eq_true (Bool.and_eq_true_iff.mp digit).2
  exact absurd (UInt32.le_trans above below) (by decide)

/-- A number has no character that is outside of identifiers. -/
theorem not_mem_digits {c : Char} (outside : isIdentPart c = false) (n : Nat) :
    c ∉ Text.digits n := by
  intro member
  have digit := isDigit_of_mem_digits member
  simp [isIdentPart, digit] at outside

theorem blank_not_mem_ident (name : Ident) : ' ' ∉ name.text.toList :=
  name.not_mem_text (by decide)

theorem blank_not_mem_digits (n : Nat) : ' ' ∉ Text.digits n := not_mem_digits (by decide) n

/-- Punctuation other than quotes and the sign of placeholders comes from words only. -/
theorem not_mem_text {c : Char} (outside : isIdentPart c = false) (mark : c ∉ ['"', '\'', '$'])
    {first : Nat} {fragment : Fragment}
    (words : ∀ word, .word word ∈ fragment → c ∉ word.text.toList) :
    c ∉ (Fragment.text first fragment).toList := by
  simp only [List.mem_cons, List.not_mem_nil, or_false, not_or] at mark
  obtain ⟨quote, tick, dollar⟩ := mark
  induction fragment generalizing first with
  | nil => simp
  | cons token rest ih =>
      have head : c ∉ (token.text first).toList := by
        cases token with
        | word word => exact words word List.mem_cons_self
        | name ident => simp [Token.text, Ident.quoted, ident.not_mem_text outside, quote]
        | label ident => simp [Token.text, ident.not_mem_text outside, tick]
        | numeral n => simpa [Token.text] using not_mem_digits outside n
        | value datum => simp [Token.text, placeholder, not_mem_digits outside, dollar]
      rw [Fragment.text_cons, String.toList_append, List.mem_append]
      exact not_or.mpr ⟨head, ih fun word later => words word (List.mem_cons_of_mem _ later)⟩

/-- A token that is no word passes every keyword that begins with a capital letter. -/
theorem passes_token {initial : Char} {others : List Char} (capital : initial.isUpper = true)
    (number : Nat) (token : Token)
    (words : ∀ word, token = .word word → Passes (initial :: others) word.text.toList) :
    Passes (initial :: others) (token.text number).toList := by
  have quote : initial ≠ '"' := by rintro rfl; exact absurd capital (by decide)
  have tick : initial ≠ '\'' := by rintro rfl; exact absurd capital (by decide)
  have dollar : initial ≠ '$' := by rintro rfl; exact absurd capital (by decide)
  cases token with
  | word word => exact words word rfl
  | name ident =>
      refine passes_of_no_blank ?_ ?_
      · simp [Token.text, Ident.quoted, blank_not_mem_ident]
      · simpa [Token.text, Ident.quoted] using quote.symm
  | label ident =>
      refine passes_of_no_blank ?_ ?_
      · simp [Token.text, blank_not_mem_ident]
      · simpa [Token.text] using tick.symm
  | numeral n =>
      refine passes_of_no_blank ?_ ?_
      · simpa [Token.text] using blank_not_mem_digits n
      · intro begins
        have digit : initial.isDigit = true :=
          isDigit_of_mem_digits (List.mem_of_mem_head? (by simpa [Token.text] using begins))
        exact not_isDigit_of_isUpper capital digit
  | value datum =>
      refine passes_of_no_blank ?_ ?_
      · simp [Token.text, placeholder, blank_not_mem_digits]
      · simpa [Token.text, placeholder] using dollar.symm

/-- A fragment is passed where each of its words is, whatever names and values it has. -/
theorem passes_text {initial : Char} {others : List Char} (capital : initial.isUpper = true)
    (first : Nat) (fragment : Fragment)
    (words : ∀ word, .word word ∈ fragment → Passes (initial :: others) word.text.toList) :
    Passes (initial :: others) (Fragment.text first fragment).toList := by
  induction fragment generalizing first with
  | nil => exact passes_nil _
  | cons token rest ih =>
      rw [Fragment.text_cons, String.toList_append]
      refine (passes_token capital first token fun word same => ?_).append
        (ih _ fun word later => ?_)
      · exact words word (same ▸ List.mem_cons_self)
      · exact words word (List.mem_cons_of_mem _ later)

/-- The text of a fragment mentions a keyword only where one of its words does. -/
theorem not_mentions_text {keyword : String} {initial : Char} {others : List Char}
    (spelled : IsSpelled initial others keyword) {first : Nat} {fragment : Fragment}
    (words : ∀ word, .word word ∈ fragment → Passes (initial :: others) word.text.toList) :
    ¬ Mentions keyword (Fragment.text first fragment) := by
  obtain ⟨shape, capital, solid⟩ := spelled
  rw [Mentions, shape]
  exact (passes_text capital first fragment words).absent solid

/-! ### Words of a fragment -/

namespace Fragment

/-- None of the given words stands in a fragment. -/
def Avoids (words : List Word) (fragment : Fragment) : Prop :=
  ∀ word, .word word ∈ fragment → word ∉ words

variable {words : List Word} {rest : Fragment}

@[simp]
theorem avoids_nil : Avoids words [] := fun _ member => absurd member List.not_mem_nil

@[simp]
theorem avoids_word_cons {word : Word} :
    Avoids words (.word word :: rest) ↔ word ∉ words ∧ Avoids words rest := by
  constructor
  · intro avoids
    exact ⟨avoids word List.mem_cons_self, fun other later =>
      avoids other (List.mem_cons_of_mem _ later)⟩
  · rintro ⟨fresh, avoids⟩ other member
    rcases List.mem_cons.mp member with same | later
    · cases same
      exact fresh
    · exact avoids other later

@[simp]
theorem avoids_name_cons {name : Ident} :
    Avoids words (.name name :: rest) ↔ Avoids words rest := by
  simp [Avoids]

@[simp]
theorem avoids_label_cons {name : Ident} :
    Avoids words (.label name :: rest) ↔ Avoids words rest := by
  simp [Avoids]

@[simp]
theorem avoids_numeral_cons {number : Nat} :
    Avoids words (.numeral number :: rest) ↔ Avoids words rest := by
  simp [Avoids]

@[simp]
theorem avoids_value_cons {value : Datum} :
    Avoids words (.value value :: rest) ↔ Avoids words rest := by
  simp [Avoids]

@[simp]
theorem avoids_append {left right : Fragment} :
    Avoids words (left ++ right) ↔ Avoids words left ∧ Avoids words right := by
  simp only [Avoids, List.mem_append]
  constructor
  · intro avoids
    exact ⟨fun word member => avoids word (.inl member),
      fun word member => avoids word (.inr member)⟩
  · rintro ⟨front, back⟩ word (member | member)
    · exact front word member
    · exact back word member

/-- Fragments in a row avoid what each of them and the word between them avoid. -/
theorem avoids_intercalate {word : Word} (fresh : word ∉ words) {fragments : List Fragment}
    (avoids : ∀ fragment ∈ fragments, Avoids words fragment) :
    Avoids words ([.word word].intercalate fragments) := by
  have tokens : ∀ token ∈ ([.word word] : Fragment).intercalate fragments,
      ∀ other, token = .word other → other ∉ words := by
    apply forall_mem_intercalate
    · intro other same
      exact Token.word.inj same ▸ fresh
    · intro fragment present token member other same
      exact avoids fragment present other (same ▸ member)
  exact fun other member => tokens (.word other) member other rfl

/-- A list has the words of its fragments and commas. -/
theorem avoids_list (fresh : .comma ∉ words) {fragments : List Fragment}
    (avoids : ∀ fragment ∈ fragments, Avoids words fragment) : Avoids words (list fragments) :=
  avoids_intercalate fresh avoids

/-- A fragment in parentheses has its own words and the parentheses. -/
theorem avoids_enclosed (opening : .opening ∉ words) (closing : .closing ∉ words)
    (avoids : Avoids words rest) : Avoids words (enclosed rest) := by
  rw [enclosed, List.cons_append, avoids_word_cons, avoids_append, avoids_word_cons]
  exact ⟨opening, avoids, closing, avoids_nil⟩

/-- Without some words, a fragment is without fewer of them. -/
theorem Avoids.mono {fewer : List Word} (avoids : Avoids words rest) (subset : fewer ⊆ words) :
    Avoids fewer rest :=
  fun word member present => avoids word member (subset present)

end Fragment

/-- The only word in a column is the dot. -/
theorem Column.avoids {words : List Word} (fresh : .dot ∉ words) (column : Column) :
    column.tokens.Avoids words := by
  unfold Column.tokens
  split <;> simp [fresh]

/-- A predicate joins neither conditions nor tables and has no page. -/
theorem Predicate.avoids (predicate : Predicate) :
    predicate.tokens.Avoids [.both, .either, .source, .joined, .limited, .skipping] := by
  have column (column : Column) :
      column.tokens.Avoids [.both, .either, .source, .joined, .limited, .skipping] :=
    column.avoids (by decide)
  unfold Predicate.tokens
  split
  · next comparison value => cases comparison <;> simp [column, Comparison.word]
  · simp [column]
  · next flag => cases flag <;> simp [column]
  · next flag => cases flag <;> simp [column]
  · simp [column]
  · simp
  · rw [Fragment.avoids_append, Fragment.avoids_word_cons]
    refine ⟨column _, by decide, Fragment.avoids_enclosed (by decide) (by decide) ?_⟩
    refine Fragment.avoids_list (by decide) fun fragment member => ?_
    obtain ⟨value, -, rfl⟩ := List.mem_map.mp member
    simp

end TableGate.Sql

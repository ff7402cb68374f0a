import Mathlib.Data.List.Chain
import Mathlib.Data.List.Infix
import TableGate.Proofs.Statement.Keyword

/-!
# Letters outside quotes

What stands outside quotes in the text of a fragment is what its words, numerals and placeholders
write, for a name fills its quotes and closes them (`Fragment.bare_append`).  Two letters can come
one after the other there only within a word, or where one token ends and the next one begins, and
no token ends with a letter that is followed so (`Fragment.apart_bare`).  So the letters of a word
with such a pair are nowhere to be found in fragments without that word.
-/

namespace TableGate.Sql

/-- What stands outside quotes in a text that begins outside them or within a quote of the given
kind.  The quotes themselves are kept. -/
def bareFrom : Option Char → List Char → List Char
  | _, [] => []
  | none, c :: rest => c :: bareFrom (if c = '"' ∨ c = '\'' then some c else none) rest
  | some quote, c :: rest =>
      if c = quote then c :: bareFrom none rest else bareFrom (some quote) rest

/-- What stands outside quotes in a text. -/
def bare (text : String) : List Char := bareFrom none text.toList

/-- How often some letters stand in a text. -/
def occurrences (letters text : List Char) : Nat :=
  text.tails.countP fun rest => letters.isPrefixOf rest

variable {letters text front back rest : List Char} {c : Char}

/-! ### Occurrences -/

/-- Letters do not occur exactly where they are no infix. -/
theorem occurrences_eq_zero_iff : occurrences letters text = 0 ↔ ¬ letters <:+: text := by
  rw [occurrences, List.countP_eq_zero, List.infix_iff_prefix_suffix]
  simp only [List.mem_tails, List.isPrefixOf_iff_prefix]
  grind

/-- Letters do not occur where one of them does not. -/
theorem occurrences_of_not_mem (spelled : c ∈ letters) (absent : c ∉ text) :
    occurrences letters text = 0 :=
  occurrences_eq_zero_iff.mpr fun within => absent (within.subset spelled)

/-- Letters without a blank end before the first blank. -/
theorem prefix_append_blank_iff (solid : ' ' ∉ letters) (front back : List Char) :
    letters <+: front ++ ' ' :: back ↔ letters <+: front := by
  constructor
  · intro begins
    rcases Nat.le_total letters.length front.length with short | long
    · exact List.prefix_of_prefix_length_le begins (List.prefix_append _ _) short
    · obtain ⟨more, rfl⟩ := List.prefix_of_prefix_length_le (List.prefix_append _ _) begins long
      cases more with
      | nil => rw [List.append_nil]
      | cons next others =>
          have later := (List.prefix_append_right_inj front).mp begins
          obtain ⟨rfl, -⟩ := List.cons_prefix_cons.mp later
          exact absurd (List.mem_append_right _ List.mem_cons_self) solid
  · exact fun begins => begins.trans (List.prefix_append _ _)

/-- Letters without a blank stand before a blank or after it. -/
theorem occurrences_append_blank (solid : ' ' ∉ letters) (present : letters ≠ []) :
    occurrences letters (front ++ ' ' :: back) =
      occurrences letters front + occurrences letters back := by
  have next (c : Char) (rest : List Char) : occurrences letters (c :: rest) =
      occurrences letters rest + if letters <+: c :: rest then 1 else 0 := by
    rw [occurrences, List.tails_cons, List.countP_cons]
    simp only [List.isPrefixOf_iff_prefix]
    rfl
  have none_left : occurrences letters [] = 0 :=
    occurrences_eq_zero_iff.mpr fun within => present (List.infix_nil.mp within)
  induction front with
  | nil =>
      have blank : ¬ letters <+: ' ' :: back := fun begins =>
        present (List.prefix_nil.mp ((prefix_append_blank_iff solid [] back).mp begins))
      rw [List.nil_append, next, if_neg blank, none_left, Nat.add_zero, Nat.zero_add]
  | cons c more ih =>
      have same := prefix_append_blank_iff solid (c :: more) back
      rw [List.cons_append] at same ⊢
      rw [next, next, ih, if_congr same rfl rfl, Nat.add_right_comm]

/-! ### Quotes -/

/-- A text without quotes is outside of quotes. -/
theorem bareFrom_of_plain (plain : '"' ∉ text ∧ '\'' ∉ text) (rest : List Char) :
    bareFrom none (text ++ rest) = text ++ bareFrom none rest := by
  induction text with
  | nil => rfl
  | cons c more ih =>
      obtain ⟨quote, quotes⟩ := not_or.mp (mt List.mem_cons.mpr plain.1)
      obtain ⟨tick, ticks⟩ := not_or.mp (mt List.mem_cons.mpr plain.2)
      have mark : ¬ (c = '"' ∨ c = '\'') := not_or.mpr ⟨Ne.symm quote, Ne.symm tick⟩
      rw [List.cons_append, bareFrom, if_neg mark, ih ⟨quotes, ticks⟩, List.cons_append]

/-- A text without quotes is bare as it is. -/
theorem bare_of_plain {text : String} (plain : '"' ∉ text.toList ∧ '\'' ∉ text.toList) :
    bare text = text.toList := by
  have whole := bareFrom_of_plain plain []
  rwa [List.append_nil, bareFrom, List.append_nil] at whole

/-- What stands within a quote is left out. -/
theorem bareFrom_quote {quote : Char} (absent : quote ∉ text) (rest : List Char) :
    bareFrom (some quote) (text ++ quote :: rest) = quote :: bareFrom none rest := by
  induction text with
  | nil => rw [List.nil_append, bareFrom, if_pos rfl]
  | cons c more ih =>
      obtain ⟨other, later⟩ := not_or.mp (mt List.mem_cons.mpr absent)
      rw [List.cons_append, bareFrom, if_neg (Ne.symm other), ih later]

/-- What stands between quotes is left out, and the quotes stay. -/
theorem bareFrom_quoted {quote : Char} (mark : quote = '"' ∨ quote = '\'') (absent : quote ∉ text)
    (rest : List Char) :
    bareFrom none (quote :: (text ++ quote :: rest)) = quote :: quote :: bareFrom none rest := by
  rw [bareFrom, if_pos mark, bareFrom_quote absent]

/-! ### Pairs of letters -/

/-- In a text the first letter does not come right before the second one, nor at the end. -/
def Apart (first second : Char) (text : List Char) : Prop :=
  text.IsChain (fun c next => ¬ (c = first ∧ next = second)) ∧ text.getLast? ≠ some first

instance (first second : Char) (text : List Char) : Decidable (Apart first second text) :=
  inferInstanceAs (Decidable (_ ∧ _))

variable {first second : Char}

/-- A pair that is apart in two texts is apart at their seam too. -/
theorem Apart.append (left : Apart first second front) (right : Apart first second back) :
    Apart first second (front ++ back) := by
  constructor
  · refine List.isChain_append.mpr ⟨left.1, right.1, ?_⟩
    rintro c ends next - ⟨rfl, -⟩
    exact left.2 ends
  · rw [List.getLast?_append]
    intro ends
    cases shape : back.getLast? with
    | none =>
        rw [shape, Option.none_or] at ends
        exact left.2 ends
    | some last =>
        rw [shape, Option.some_or] at ends
        exact right.2 (shape.trans ends)

/-- A pair is apart where its first letter is not there. -/
theorem apart_of_not_mem (absent : first ∉ text) : Apart first second text := by
  refine ⟨(List.pairwise_of_forall_mem_list ?_).isChain, fun ends => ?_⟩
  · rintro c among next - ⟨rfl, -⟩
    exact absent among
  · exact absent (List.mem_of_getLast? ends)

/-- Letters in which the first comes right before the second are not in such a text. -/
theorem Apart.occurrences (apart : Apart first second text)
    (pair : [first, second] <:+: letters) : occurrences letters text = 0 := by
  refine occurrences_eq_zero_iff.mpr fun within => ?_
  obtain ⟨before, after, rfl⟩ := pair.trans within
  have front := (List.isChain_append.mp apart.1).1
  have both := (List.isChain_append.mp front).2.1
  simp at both

/-! ### Fragments -/

/-- What a token writes outside quotes. -/
def Token.bare (number : Nat) : Token → List Char
  | .name _ => ['"', '"']
  | .label _ => ['\'', '\'']
  | token => (token.text number).toList

/-- A word has no quotes. -/
theorem Word.plain (word : Word) : '"' ∉ word.text.toList ∧ '\'' ∉ word.text.toList := by
  cases word <;> decide

/-- A number has no quotes. -/
theorem plain_digits (number : Nat) :
    '"' ∉ Text.digits number ∧ '\'' ∉ Text.digits number :=
  ⟨not_mem_digits (by decide) number, not_mem_digits (by decide) number⟩

/-- A token opens no quote that it does not close. -/
theorem Token.bareFrom_text (token : Token) (number : Nat) (rest : List Char) :
    bareFrom none ((token.text number).toList ++ rest) =
      token.bare number ++ bareFrom none rest := by
  cases token with
  | word word => exact bareFrom_of_plain word.plain rest
  | name ident =>
      have absent : '"' ∉ ident.text.toList := ident.not_mem_text (by decide)
      have quoted := bareFrom_quoted (.inl rfl) absent rest
      simpa [text, Ident.quoted, Token.bare] using quoted
  | label ident =>
      have absent : '\'' ∉ ident.text.toList := ident.not_mem_text (by decide)
      have quoted := bareFrom_quoted (.inr rfl) absent rest
      simpa [text, Token.bare] using quoted
  | numeral found =>
      have plain := bareFrom_of_plain (plain_digits found) rest
      simpa [text, Token.bare] using plain
  | value datum =>
      refine bareFrom_of_plain ?_ rest
      simpa [text, placeholder] using plain_digits number

/-- Only words write capital letters outside quotes. -/
theorem Token.capital_not_mem (capital : c.isUpper = true) (number : Nat) {token : Token}
    (other : ∀ word, token ≠ .word word) : c ∉ token.bare number := by
  have digits (number : Nat) : c ∉ Text.digits number := fun member =>
    not_isDigit_of_isUpper capital (isDigit_of_mem_digits member)
  have quote : c ≠ '"' := by rintro rfl; exact absurd capital (by decide)
  have tick : c ≠ '\'' := by rintro rfl; exact absurd capital (by decide)
  have dollar : c ≠ '$' := by rintro rfl; exact absurd capital (by decide)
  cases token with
  | word word => exact absurd rfl (other word)
  | name ident => simp [Token.bare, quote]
  | label ident => simp [Token.bare, tick]
  | numeral found => simpa [Token.bare, text] using digits found
  | value datum => simpa [Token.bare, text, placeholder, dollar] using digits number

namespace Fragment

variable {fragment : Fragment} {number : Nat}

/-- A fragment opens no quote that it does not close. -/
theorem bareFrom_text (rest : List Char) :
    bareFrom none ((Fragment.text number fragment).toList ++ rest) =
      bare (Fragment.text number fragment) ++ bareFrom none rest := by
  induction fragment generalizing number with
  | nil => rfl
  | cons token more ih =>
      rw [bare, text_cons, String.toList_append, List.append_assoc, token.bareFrom_text,
        token.bareFrom_text, ih, List.append_assoc]
      rfl

/-- Quotes that are opened in a fragment are closed in it. -/
theorem bare_append (after : String) :
    bare (Fragment.text number fragment ++ after) =
      bare (Fragment.text number fragment) ++ bare after := by
  rw [bare, String.toList_append, bareFrom_text]
  rfl

/-- The bare text of a fragment is that of its tokens, one after another. -/
theorem bare_cons (token : Token) :
    bare (Fragment.text number (token :: fragment)) =
      token.bare number ++ bare (Fragment.text (number + token.arity) fragment) := by
  rw [bare, text_cons, String.toList_append, token.bareFrom_text]
  rfl

/-- A pair of letters that no word of a fragment has is nowhere outside its quotes. -/
theorem apart_bare (capital : first.isUpper = true)
    (words : ∀ word, .word word ∈ fragment → Apart first second word.text.toList) :
    Apart first second (bare (Fragment.text number fragment)) := by
  induction fragment generalizing number with
  | nil => exact apart_of_not_mem List.not_mem_nil
  | cons token more ih =>
      rw [bare_cons]
      refine Apart.append ?_ (ih fun word later => words word (List.mem_cons_of_mem _ later))
      cases token with
      | word word => exact words word List.mem_cons_self
      | _ => exact apart_of_not_mem (Token.capital_not_mem capital number nofun)

end Fragment

end TableGate.Sql

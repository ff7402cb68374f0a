import TableGate.Ident
import TableGate.Datum.Basic

/-!
# Tokens of a statement

A statement is a list of tokens: words out of a fixed vocabulary, names, labels, numerals and bound
values.  Its text writes a placeholder for each value, numbered from left to right, and its values
are those of the placeholders in that order.  So what a client sends is part of the text only as an
identifier or as a numeral.  The main fact is `values_append`, for the values of joined fragments.
-/

namespace TableGate.Sql

/-- The fixed vocabulary of statements: keywords, functions and punctuation. -/
inductive Word
  | select | whole | source | joined | spaceBetween | matching | filtered | both | either
  | comma | dot | opening | closing
  | equal | unequal | greater | atLeast | less | atMost | like | ilike
  | isNull | equalsTrue | equalsFalse | isTrue | isFalse | notDistinct | within | never
  | whenNull | thenNull | endAs | rowToJson | buildObject
  | ordered | ascending | descending | limited | skipping
  | insertInto | values | defaultValues | defaultCell
  | update | assigning | deleteFrom | returning
deriving DecidableEq, Repr

def Word.text : Word → String
  | .select => "SELECT "
  | .whole => "*"
  | .source => " FROM "
  | .joined => "LEFT JOIN "
  | .spaceBetween => " "
  | .matching => " ON "
  | .filtered => " WHERE "
  | .both => " AND "
  | .either => " OR "
  | .comma => ", "
  | .dot => "."
  | .opening => "("
  | .closing => ")"
  | .equal => " = "
  | .unequal => " <> "
  | .greater => " > "
  | .atLeast => " >= "
  | .less => " < "
  | .atMost => " <= "
  | .like => " LIKE "
  | .ilike => " ILIKE "
  | .isNull => " IS NULL"
  | .equalsTrue => " = TRUE"
  | .equalsFalse => " = FALSE"
  | .isTrue => " IS TRUE"
  | .isFalse => " IS FALSE"
  | .notDistinct => " IS NOT DISTINCT FROM "
  | .within => " IN "
  | .never => "FALSE"
  | .whenNull => "CASE WHEN "
  | .thenNull => " IS NULL THEN NULL ELSE "
  | .endAs => " END AS "
  | .rowToJson => "row_to_json"
  | .buildObject => "json_build_object"
  | .ordered => " ORDER BY "
  | .ascending => " ASC"
  | .descending => " DESC"
  | .limited => " LIMIT "
  | .skipping => " OFFSET "
  | .insertInto => "INSERT INTO "
  | .values => " VALUES "
  | .defaultValues => " DEFAULT VALUES"
  | .defaultCell => "DEFAULT"
  | .update => "UPDATE "
  | .assigning => " SET "
  | .deleteFrom => "DELETE FROM "
  | .returning => " RETURNING *"

/-- A smallest part of a statement. -/
inductive Token
  | word (fixed : Word)
  /-- A name in double quotes. -/
  | name (ident : Ident)
  /-- A name in single quotes. -/
  | label (ident : Ident)
  | numeral (number : Nat)
  /-- A value, in the place of its placeholder. -/
  | value (datum : Datum)
deriving Repr

/-- The placeholder with the given number. -/
def placeholder (number : Nat) : String := "$" ++ String.ofList (Text.digits number)

/-- The text of a token whose placeholder, if it has one, gets the given number. -/
def Token.text (number : Nat) : Token → String
  | .word fixed => fixed.text
  | .name ident => ident.quoted
  | .label ident => "'" ++ ident.text ++ "'"
  | .numeral n => String.ofList (Text.digits n)
  | .value _ => placeholder number

/-- The value that a token binds. -/
def Token.value? : Token → Option Datum
  | .value datum => some datum
  | _ => none

/-- How many placeholders a token has. -/
def Token.arity : Token → Nat
  | .value _ => 1
  | _ => 0

/-- A part of a statement. -/
abbrev Fragment := List Token

namespace Fragment

def values (fragment : Fragment) : List Datum := fragment.filterMap Token.value?

/-- Write a token after a text; the number is that of the next placeholder. -/
def writeToken (written : String × Nat) (token : Token) : String × Nat :=
  (written.1 ++ token.text written.2, written.2 + token.arity)

/-- The text of a fragment whose first placeholder gets the given number. -/
def text (first : Nat) (fragment : Fragment) : String :=
  (fragment.foldl writeToken ("", first)).1

/-- The texts of fragments whose placeholders are numbered through. -/
def texts (first : Nat) : List Fragment → List String
  | [] => []
  | fragment :: rest => text first fragment :: texts (first + (values fragment).length) rest

/-- Fragments with a comma between each two. -/
def list (fragments : List Fragment) : Fragment := [.word .comma].intercalate fragments

/-- A fragment in parentheses. -/
def enclosed (fragment : Fragment) : Fragment :=
  .word .opening :: fragment ++ [.word .closing]

/-- The values of joined fragments are the values of the parts. -/
theorem values_append (left right : Fragment) :
    values (left ++ right) = values left ++ values right := by
  simp [values, List.filterMap_append]

/-- A token adds as many values as it has placeholders. -/
theorem length_values_cons (token : Token) (rest : Fragment) :
    (values (token :: rest)).length = token.arity + (values rest).length := by
  cases token <;> simp [values, Token.value?, Token.arity, List.filterMap_cons, Nat.add_comm]

/-- Writing goes on after what has been written. -/
theorem foldl_writeToken (fragment : Fragment) (before : String) (next : Nat) :
    fragment.foldl writeToken (before, next) =
      (before ++ text next fragment, next + (values fragment).length) := by
  induction fragment generalizing before next with
  | nil => simp [text, values]
  | cons token rest ih =>
      have step : (token :: rest).foldl writeToken (before, next) =
          rest.foldl writeToken (before ++ token.text next, next + token.arity) := rfl
      have alone : text next (token :: rest) =
          token.text next ++ text (next + token.arity) rest := by
        have start : text next (token :: rest) =
            (rest.foldl writeToken ("" ++ token.text next, next + token.arity)).1 := rfl
        rw [start, ih]
        simp
      rw [step, ih, alone, String.append_assoc, length_values_cons, Nat.add_assoc]

/-- The text of joined fragments: the placeholders of the second one go on where those of the first
one end. -/
theorem text_append (first : Nat) (left right : Fragment) :
    text first (left ++ right) =
      text first left ++ text (first + (values left).length) right := by
  have whole := foldl_writeToken (left ++ right) "" first
  rw [List.foldl_append, foldl_writeToken, foldl_writeToken] at whole
  simpa using (congrArg Prod.fst whole).symm

end Fragment

end TableGate.Sql

import TableGate.Json.Numeral
import TableGate.Text.Numeral

/-!
# Tokens of a JSON text

The smallest parts of a JSON text, before its scalars are given a meaning: numerals as they are
spelled, and texts with their escapes as 16-bit code units.  The main facts bound what is read:
`Token.next?_shorter` says that each token takes a character, and `Token.next?_text_shorter` that
the characters of a text are fewer than those of the input it is read from.
-/

namespace TableGate.Json

/-- One item of a text: a character that stands for itself, or a 16-bit code unit. -/
inductive TextItem
  | char (c : Char)
  | unit (code : Nat)
deriving DecidableEq, Repr

abbrev RawText := List TextItem

/-- The text that 16-bit code units and characters spell, unless half a surrogate pair is left over.
The characters read so far are kept last first. -/
def decodeText? (read : List Char) : RawText → Option (List Char)
  | [] => some read.reverse
  | .char c :: rest => decodeText? (c :: read) rest
  | .unit high :: .unit low :: rest =>
      if 0xD800 ≤ high ∧ high ≤ 0xDBFF then
        if 0xDC00 ≤ low ∧ low ≤ 0xDFFF then
          let code := 0x10000 + (high - 0xD800) * 0x400 + (low - 0xDC00)
          decodeText? (Char.ofNat code :: read) rest
        else none
      else if 0xDC00 ≤ high ∧ high ≤ 0xDFFF then none
      else decodeText? (Char.ofNat high :: read) (.unit low :: rest)
  | .unit code :: rest =>
      if 0xD800 ≤ code ∧ code ≤ 0xDFFF then none else decodeText? (Char.ofNat code :: read) rest

/-- The characters of a text, unless half a surrogate pair is left over. -/
def RawText.chars? (text : RawText) : Option (List Char) := decodeText? [] text

/-- The text of its spelling, unless half a surrogate pair is left over. -/
def RawText.string? (text : RawText) : Option String := text.chars?.map String.ofList

inductive Scalar
  | null
  | bool (value : Bool)
  | numeral (value : Numeral)
  | text (value : RawText)
deriving DecidableEq, Repr

/-! ### Tokens -/

inductive Token
  | openArray
  | closeArray
  | openObject
  | closeObject
  | comma
  | colon
  | scalar (value : Scalar)
deriving DecidableEq, Repr

def isSpace (c : Char) : Bool := c == ' ' || c == '\t' || c == '\n' || c == '\r'

/-- The character that a one-letter escape stands for. -/
def simpleEscape? : Char → Option Char
  | '"' => some '"'
  | '\\' => some '\\'
  | '/' => some '/'
  | 'b' => some '\x08'
  | 'f' => some '\x0c'
  | 'n' => some '\n'
  | 'r' => some '\r'
  | 't' => some '\t'
  | _ => none

/-- The code unit of four hexadecimal digits. -/
def codeUnit? (a b c d : Char) : Option Nat := do
  return Text.hexNumber
    [← Text.hexValue? a, ← Text.hexValue? b, ← Text.hexValue? c, ← Text.hexValue? d]

/-- The rest of a text after its opening quote, and what follows the closing one.  The items read so
far are kept last first. -/
def readText (items : RawText) : List Char → Option (RawText × List Char)
  | [] => none
  | '"' :: rest => some (items.reverse, rest)
  | '\\' :: 'u' :: a :: b :: c :: d :: rest =>
      match codeUnit? a b c d with
      | some code => readText (.unit code :: items) rest
      | none => none
  | '\\' :: letter :: rest =>
      match simpleEscape? letter with
      | some c => readText (.char c :: items) rest
      | none => none
  | c :: rest => if c.toNat < 0x20 then none else readText (.char c :: items) rest

/-- A run of digits and what follows it; there has to be one. -/
def readDigits (input : List Char) : Option (List Char × List Char) :=
  let digits := input.takeWhile Char.isDigit
  if digits.isEmpty then none else some (digits, input.dropWhile Char.isDigit)

/-- The digits after a point, if a point follows. -/
def readFraction : List Char → Option (Option (List Char) × List Char)
  | '.' :: rest => (readDigits rest).map fun (digits, after) => (some digits, after)
  | input => some (none, input)

/-- A sign, if one follows: whether it is a minus, and the rest. -/
def readSign : List Char → Bool × List Char
  | '-' :: rest => (true, rest)
  | '+' :: rest => (false, rest)
  | input => (false, input)

/-- The exponent part, if one follows. -/
def readExponent : List Char → Option (Option Exponent × List Char)
  | c :: rest =>
      if c = 'e' ∨ c = 'E' then
        (readDigits (readSign rest).2).map fun (digits, after) =>
          (some ⟨(readSign rest).1, digits⟩, after)
      else some (none, c :: rest)
  | [] => some (none, [])

/-- A numeral without its sign.  Only a lone zero may start with a zero. -/
def readUnsigned (negative : Bool) (input : List Char) : Option (Numeral × List Char) :=
  match readDigits input with
  | none => none
  | some (whole, afterWhole) =>
      if whole.head? = some '0' ∧ whole.length ≠ 1 then none
      else
        match readFraction afterWhole with
        | none => none
        | some (fraction, afterFraction) =>
            (readExponent afterFraction).map fun (exponent, rest) =>
              (⟨negative, whole, fraction, exponent⟩, rest)

/-- The token at the start of an input that has no leading white space, and what follows it. -/
def Token.read? : List Char → Option (Token × List Char)
  | '[' :: rest => some (.openArray, rest)
  | ']' :: rest => some (.closeArray, rest)
  | '\x7b' :: rest => some (.openObject, rest)
  | '\x7d' :: rest => some (.closeObject, rest)
  | ',' :: rest => some (.comma, rest)
  | ':' :: rest => some (.colon, rest)
  | '"' :: rest => (readText [] rest).map fun (text, after) => (.scalar (.text text), after)
  | 't' :: 'r' :: 'u' :: 'e' :: rest => some (.scalar (.bool true), rest)
  | 'f' :: 'a' :: 'l' :: 's' :: 'e' :: rest => some (.scalar (.bool false), rest)
  | 'n' :: 'u' :: 'l' :: 'l' :: rest => some (.scalar .null, rest)
  | '-' :: rest => (readUnsigned true rest).map fun (n, after) => (.scalar (.numeral n), after)
  | input => (readUnsigned false input).map fun (n, after) => (.scalar (.numeral n), after)

/-- The next token and what follows it. -/
def Token.next? (input : List Char) : Option (Token × List Char) :=
  Token.read? (input.dropWhile isSpace)

/-! ### Each token takes a character -/

/-- A text ends at its closing quote, so what follows it is shorter than the input. -/
theorem readText_shorter {items found : RawText} {input rest : List Char}
    (read : readText items input = some (found, rest)) : rest.length < input.length := by
  fun_induction readText items input with
  | case1 | case4 | case6 | case7 => cases read
  | case2 items after =>
      -- the closing quote
      cases read
      exact Nat.lt_succ_self _
  | case3 items a b c d after code spelled ih =>
      have shorter := ih read
      simp only [List.length_cons]
      omega
  | case5 items letter after _ c escaped ih =>
      have shorter := ih read
      simp only [List.length_cons]
      omega
  | case8 items c after _ _ _ printed ih =>
      have shorter := ih read
      simp only [List.length_cons]
      omega

theorem readDigits_shorter {input digits rest : List Char}
    (read : readDigits input = some (digits, rest)) : rest.length < input.length := by
  simp only [readDigits] at read
  split at read
  · simp at read
  · next written =>
      simp only [Option.some.injEq, Prod.mk.injEq] at read
      obtain ⟨-, rfl⟩ := read
      cases input with
      | nil => simp at written
      | cons c more =>
          by_cases digit : c.isDigit = true
          · have shorter : (more.dropWhile Char.isDigit).length ≤ more.length :=
              (List.dropWhile_sublist Char.isDigit).length_le
            simp only [List.dropWhile_cons, digit, ↓reduceIte, List.length_cons]
            omega
          · simp [digit] at written

theorem readFraction_length_le {input rest : List Char} {fraction : Option (List Char)}
    (read : readFraction input = some (fraction, rest)) : rest.length ≤ input.length := by
  unfold readFraction at read
  split at read
  · next after =>
      obtain ⟨⟨digits, left⟩, inner, shape⟩ := Option.map_eq_some_iff.mp read
      simp only [Prod.mk.injEq] at shape
      have shorter := readDigits_shorter inner
      simp only [List.length_cons, ← shape.2]
      omega
  · simp only [Option.some.injEq, Prod.mk.injEq] at read
    simp [read.2]

theorem readSign_length_le (input : List Char) : (readSign input).2.length ≤ input.length := by
  unfold readSign
  split <;> simp

theorem readExponent_length_le {input rest : List Char} {exponent : Option Exponent}
    (read : readExponent input = some (exponent, rest)) : rest.length ≤ input.length := by
  unfold readExponent at read
  split at read
  · next c after =>
      split at read
      · obtain ⟨⟨digits, left⟩, inner, shape⟩ := Option.map_eq_some_iff.mp read
        simp only [Prod.mk.injEq] at shape
        have shorter := readDigits_shorter inner
        have unsigned := readSign_length_le after
        simp only [List.length_cons, ← shape.2]
        omega
      · simp only [Option.some.injEq, Prod.mk.injEq] at read
        simp [← read.2]
  · simp only [Option.some.injEq, Prod.mk.injEq] at read
    simp [← read.2]

theorem readUnsigned_shorter {negative : Bool} {input rest : List Char} {numeral : Numeral}
    (read : readUnsigned negative input = some (numeral, rest)) : rest.length < input.length := by
  unfold readUnsigned at read
  split at read
  · simp at read
  · next whole afterWhole wholeRead =>
      split at read
      · simp at read
      · split at read
        · simp at read
        · next fraction afterFraction fractionRead =>
            obtain ⟨⟨exponent, left⟩, exponentRead, shape⟩ := Option.map_eq_some_iff.mp read
            simp only [Prod.mk.injEq] at shape
            have first := readDigits_shorter wholeRead
            have second := readFraction_length_le fractionRead
            have third := readExponent_length_le exponentRead
            simp only [← shape.2]
            omega

theorem Token.read?_shorter {input rest : List Char} {token : Token}
    (read : Token.read? input = some (token, rest)) : rest.length < input.length := by
  unfold Token.read? at read
  split at read
  case h_7 =>
    obtain ⟨⟨text, after⟩, inner, shape⟩ := Option.map_eq_some_iff.mp read
    simp only [Prod.mk.injEq] at shape
    have shorter := readText_shorter inner
    simp only [List.length_cons, ← shape.2]
    omega
  case h_11 =>
    obtain ⟨⟨numeral, after⟩, inner, shape⟩ := Option.map_eq_some_iff.mp read
    simp only [Prod.mk.injEq] at shape
    have shorter := readUnsigned_shorter inner
    simp only [List.length_cons, ← shape.2]
    omega
  case h_12 =>
    obtain ⟨⟨numeral, after⟩, inner, shape⟩ := Option.map_eq_some_iff.mp read
    simp only [Prod.mk.injEq] at shape
    simpa only [← shape.2] using readUnsigned_shorter inner
  all_goals
    simp only [Option.some.injEq, Prod.mk.injEq] at read
    simp only [List.length_cons, ← read.2]
    omega

/-- What follows a token is shorter than the input. -/
theorem Token.next?_shorter {input rest : List Char} {token : Token}
    (read : Token.next? input = some (token, rest)) : rest.length < input.length :=
  Nat.lt_of_lt_of_le (Token.read?_shorter read) (List.dropWhile_sublist isSpace).length_le

/-- The items of a text are fewer than the characters of the input it is read from. -/
theorem readText_length_lt {items found : RawText} {input rest : List Char}
    (read : readText items input = some (found, rest)) :
    found.length < items.length + input.length := by
  fun_induction readText items input with
  | case1 | case4 | case6 | case7 => cases read
  | case2 items after =>
      cases read
      simp only [List.length_reverse, List.length_cons]
      omega
  | case3 items a b c d after code spelled ih =>
      -- six characters for one code unit
      have fewer := ih read
      simp only [List.length_cons] at fewer ⊢
      omega
  | case5 items letter after _ c escaped ih =>
      have fewer := ih read
      simp only [List.length_cons] at fewer ⊢
      omega
  | case8 items c after _ _ _ printed ih =>
      have fewer := ih read
      simp only [List.length_cons] at fewer ⊢
      omega

/-- A text has at most as many characters as it has items. -/
theorem decodeText?_length_le {read chars : List Char} {text : RawText}
    (decoded : decodeText? read text = some chars) : chars.length ≤ read.length + text.length := by
  fun_induction decodeText? read text with
  | case1 read =>
      cases decoded
      simp only [List.length_reverse, List.length_nil]
      omega
  | case2 read c rest ih =>
      have fewer := ih decoded
      simp only [List.length_cons] at fewer ⊢
      omega
  | case3 read high low rest first second code ih =>
      -- a surrogate pair is one character
      have fewer := ih decoded
      simp only [List.length_cons] at fewer ⊢
      omega
  | case4 | case5 | case7 => cases decoded
  | case6 read high low rest _ _ ih =>
      have fewer := ih decoded
      simp only [List.length_cons] at fewer ⊢
      omega
  | case8 read code rest _ _ ih =>
      have fewer := ih decoded
      simp only [List.length_cons] at fewer ⊢
      omega

/-- The characters of a text are fewer than those of the input that its token is read from. -/
theorem Token.next?_text_shorter {input rest chars : List Char} {text : RawText}
    (read : Token.next? input = some (.scalar (.text text), rest))
    (decoded : text.chars? = some chars) : chars.length < input.length := by
  have decodedLength : chars.length ≤ text.length := by
    simpa using decodeText?_length_le decoded
  have shorter : (input.dropWhile isSpace).length ≤ input.length :=
    (List.dropWhile_sublist isSpace).length_le
  suffices text.length < (input.dropWhile isSpace).length by omega
  unfold Token.next? Token.read? at read
  split at read
  case h_7 after start =>
    obtain ⟨⟨found, left⟩, inner, shape⟩ := Option.map_eq_some_iff.mp read
    simp only [Prod.mk.injEq, Token.scalar.injEq, Scalar.text.injEq] at shape
    have fewer := readText_length_lt inner
    simp only [start, List.length_cons, ← shape.1]
    simp only [List.length_nil] at fewer
    omega
  all_goals simp at read

end TableGate.Json

/-!
# Media types

Whether the media type of a body is JSON: `application/json`, or an application type with the suffix
`json`.  Letter case and parameters do not matter, but the parameters have to be well formed; they
are read one character at a time.
-/

namespace TableGate.Http

/-- A character of a token: a letter, a digit or one of fifteen marks. -/
def isTokenChar (c : Char) : Bool :=
  c.isAlphanum ||
    ['!', '#', '$', '%', '&', '\x27', '*', '+', '-', '.', '^', '_', '\x60', '|', '~'].contains c

/-- A character that may stand in a quoted value. -/
def isQuotedChar (c : Char) : Bool := decide (31 < c.toNat) && c.toNat != 127

namespace MediaType

/-- Where the reading of parameters stands. -/
inductive ParameterState
  /-- Before a parameter, of which blanks are no part. -/
  | before
  | inName
  /-- After the equals sign. -/
  | beforeValue
  | inValue
  /-- After the opening quote; the next character belongs to the value even if it is a quote. -/
  | openQuote
  | inQuotes
  /-- After the closing quote. -/
  | afterQuotes
deriving DecidableEq, Repr

/-- The state after one more character, unless the character may not come next. -/
def ParameterState.step (state : ParameterState) (c : Char) : Option ParameterState :=
  match state with
  | .before => if c = ' ' then some .before else if isTokenChar c then some .inName else none
  | .inName => if c = '=' then some .beforeValue else if isTokenChar c then some .inName else none
  | .beforeValue =>
      if c = '"' then some .openQuote else if isTokenChar c then some .inValue else none
  | .inValue => if c = ';' then some .before else if isTokenChar c then some .inValue else none
  | .openQuote => if isQuotedChar c then some .inQuotes else none
  | .inQuotes =>
      if c = '"' then some .afterQuotes else if isQuotedChar c then some .inQuotes else none
  | .afterQuotes =>
      if c = ';' then some .before else if c = ' ' then some .afterQuotes else none

/-- Whether the parameters may end here. -/
def ParameterState.isFinal : ParameterState → Bool
  | .before | .beforeValue | .inValue | .afterQuotes => true
  | .inName | .openQuote | .inQuotes => false

/-- Whether a text after a semicolon is a list of parameters. -/
def areParameters (text : List Char) : Bool :=
  match text.foldlM ParameterState.step .before with
  | some state => state.isFinal
  | none => false

/-- The position of the last plus sign after the first character. -/
def suffixStart? (subtype : List Char) : Option Nat :=
  ((subtype.zipIdx.filter fun (c, position) => c == '+' && position != 0).getLast?).map (·.2)

/-- Whether a subtype, in lower case, is JSON: all of it, what stands before its suffix, or its
suffix. -/
def isJsonSubtype (subtype : List Char) : Bool :=
  match suffixStart? subtype with
  | none => subtype == "json".toList
  | some plus =>
      subtype.take plus == "json".toList || subtype.drop (plus + 1) == "json".toList

/-- Whether the text is the media type of JSON. -/
def isJson (text : String) : Bool :=
  let chars := text.toList
  let main := chars.takeWhile isTokenChar
  match chars.drop main.length with
  | '/' :: afterSlash =>
      let subtype := afterSlash.takeWhile isTokenChar
      let wellFormed :=
        match afterSlash.drop subtype.length with
        | [] => true
        | ';' :: parameters => !subtype.isEmpty && areParameters parameters
        | _ => false
      wellFormed && main.map Char.toLower == "application".toList &&
        isJsonSubtype (subtype.map Char.toLower)
  | _ => false

end MediaType

end TableGate.Http

import TableGate.Text.Numeral

/-!
# UUIDs

A UUID is thirty-two hexadecimal digits.  It is written hyphenated in lower case, and read in either
case: bare, hyphenated, hyphenated in braces, or hyphenated after `urn:uuid:`.  Letters of either
case count as the same in that name as well as in the digits.
-/

namespace TableGate

/-- A UUID by its hexadecimal digits. -/
structure Uuid where
  digits : List (Fin 16)
  size : digits.length = 32
deriving DecidableEq, Repr

namespace Uuid

/-- The UUID with the given digits, if there are thirty-two. -/
def ofDigits? (digits : List (Fin 16)) : Option Uuid :=
  if size : digits.length = 32 then some ⟨digits, size⟩ else none

/-- Read digits without any hyphen. -/
def readBare? (text : List Char) : Option Uuid := (text.mapM Text.hexValue?).bind ofDigits?

def hyphens : List Nat := [8, 13, 18, 23]

/-- Read digits with a hyphen at each of the four positions. -/
def readHyphenated? (text : List Char) : Option Uuid :=
  if hyphens.all (fun position => text[position]? == some '-') then
    readBare? ((text.zipIdx.filter fun (_, position) => !hyphens.contains position).map (·.1))
  else none

/-- The text before a UUID in a uniform resource name, in lower case. -/
def urn : List Char := "urn:uuid:".toList

/-- Whether a text starts a uniform resource name of a UUID, in letters of either case. -/
def startsUrn (text : List Char) : Bool := urn.isPrefixOf (text.map Char.toLower)

/-- The UUID that a text spells in one of the four forms. -/
def read? (text : String) : Option Uuid :=
  let chars := text.toList
  if chars.length = 32 then readBare? chars
  else if chars.length = 36 then readHyphenated? chars
  else if chars.length = 38 ∧ chars.head? = some '\x7b' ∧ chars.getLast? = some '\x7d' then
    readHyphenated? (chars.drop 1).dropLast
  else if chars.length = 45 ∧ startsUrn chars = true then readHyphenated? (chars.drop urn.length)
  else none

/-- The lower-case hyphenated text. -/
def text (uuid : Uuid) : String :=
  let chars := uuid.digits.map Text.hexDigit
  let part (start size : Nat) := (chars.drop start).take size
  String.ofList (part 0 8 ++ '-' :: part 8 4 ++ '-' :: part 12 4 ++ '-' :: part 16 4 ++
    '-' :: part 20 12)

/-- The digits two by two. -/
def pairs : List (Fin 16) → List UInt8
  | high :: low :: rest => UInt8.ofNat (high.val * 16 + low.val) :: pairs rest
  | _ => []

def bytes (uuid : Uuid) : List UInt8 := pairs uuid.digits

end Uuid

end TableGate

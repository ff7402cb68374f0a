import TableGate.Json.Interpretation

/-!
# JSON values

A value has its texts decoded, its numbers read, and the members of each object in increasing order
of their names, each name once; of repeated names the last one counts.  A text in JSON has a value
unless it spells half a surrogate pair or a numeral that is too large for a double, nests containers
more than 127 deep, or embeds a value that it does not spell.
-/

namespace TableGate

inductive Json
  | null
  | bool (value : Bool)
  | number (value : Json.Number)
  | string (value : String)
  | array (items : List Json)
  | object (members : List (String × Json))
deriving Repr, Inhabited

namespace Json

/-- Whether characters come before others, by their code points. -/
def charsBefore : List Char → List Char → Bool
  | _, [] => false
  | [], _ :: _ => true
  | first :: lefts, second :: rights =>
      decide (first.toNat < second.toNat) || (first == second && charsBefore lefts rights)

/-- Whether a name comes before another one. -/
def isBefore (left right : String) : Bool := charsBefore left.toList right.toList

/-- Put a member in its place by name; where the name is taken, the present member stays. -/
def insertMember {α : Type} (member : String × α) : List (String × α) → List (String × α)
  | [] => [member]
  | present :: rest =>
      if isBefore member.1 present.1 then member :: present :: rest
      else if member.1 = present.1 then present :: rest
      else present :: insertMember member rest

/-- The members in increasing order of their names; of repeated names the last one stays. -/
def sortMembers {α : Type} (members : List (String × α)) : List (String × α) :=
  members.foldr insertMember []

/-- The object with the given members. -/
def ofMembers (members : List (String × Json)) : Json := .object (sortMembers members)

def ofInt (value : Int) : Json := .number (.integer value)

def field? (name : String) : Json → Option Json
  | .object members => members.lookup name
  | _ => none

def isNull : Json → Bool
  | .null => true
  | _ => false

def Scalar.value? : Scalar → Option Json
  | .null => some .null
  | .bool flag => some (.bool flag)
  | .numeral spelled => spelled.number?.map .number
  | .text spelled => spelled.string?.map .string

/-- The name of a first member that makes an object stand for the value its text spells. -/
def embeddingName : String := "$serde_json::private::RawValue"

/-- How deep the containers of a value may be nested. -/
def maxDepth : Nat := 127

/-- What the parts of a text stand for in a value. -/
def interpretation : Interpretation String Json where
  name? := RawText.string?
  scalar? := Scalar.value?
  array := .array
  object := ofMembers
  maxDepth := some maxDepth
  embeds := fun name => name == embeddingName

/-- The value of a text that is one JSON value, with nothing but white space after it. -/
def read? (text : String) : Option Json := (interpretation.whole text).toOption

/-- The value that a text starts with; what follows it does not matter. -/
def readFirst (text : String) : Except Fault Json := interpretation.first text

end Json

end TableGate

import TableGate.Json.Value
import TableGate.Number.Shortest

/-!
# The compact text of a JSON value

No white space, members in the order the object holds them, characters beyond ASCII as they are,
and escapes for the quote, the backslash and the control characters only.
-/

namespace TableGate.Json

/-- A character inside a quoted text. -/
def escape (c : Char) : List Char :=
  match c with
  | '"' => ['\\', '"']
  | '\\' => ['\\', '\\']
  | '\x08' => ['\\', 'b']
  | '\x0c' => ['\\', 'f']
  | '\n' => ['\\', 'n']
  | '\r' => ['\\', 'r']
  | '\t' => ['\\', 't']
  | c => if c.toNat < 0x20 then ['\\', 'u', '0', '0'] ++ Text.hexByte (UInt8.ofNat c.toNat) else [c]

/-- A text in double quotes, written after `before`. -/
def writeText (before : String) (text : String) : String :=
  (text.toList.foldl (fun written c => (escape c).foldl String.push written)
    (before.push '"')).push '"'

def Number.text : Number → List Char
  | .integer value =>
      if value < 0 then '-' :: Text.digits value.natAbs else Text.digits value.natAbs
  | .double value => value.text

mutual

/-- The text of a value, written after `before`. -/
def write (before : String) : Json → String
  | .null => before ++ "null"
  | .bool flag => before ++ (if flag then "true" else "false")
  | .number value => before ++ String.ofList value.text
  | .string value => writeText before value
  | .array items =>
      match items with
      | [] => before ++ "[]"
      | item :: rest => (writeItems (write (before.push '[') item) rest).push ']'
  | .object members =>
      match members with
      | [] => (before.push '\x7b').push '\x7d'
      | (name, value) :: rest =>
          (writeMembers (write ((writeText (before.push '\x7b') name).push ':') value)
            rest).push '\x7d'

/-- The texts of further items, each after a comma. -/
def writeItems (before : String) : List Json → String
  | [] => before
  | item :: rest => writeItems (write (before.push ',') item) rest

/-- The texts of further members, each after a comma. -/
def writeMembers (before : String) : List (String × Json) → String
  | [] => before
  | (name, value) :: rest =>
      writeMembers (write ((writeText (before.push ',') name).push ':') value) rest

end

def text (value : Json) : String := write "" value

end TableGate.Json

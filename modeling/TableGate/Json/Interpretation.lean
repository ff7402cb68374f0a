import TableGate.Json.Token

/-!
# Reading a JSON text

A text is read token by token, with a stack of the containers that are still open, so nesting is
bounded by the text alone.  What its parts stand for is left to an interpretation.  The first fault
ends the reading, so of two faults in a text the one that comes first is found.

An interpretation may single out names that embed a value: an object whose first member has such a
name has no other member, and stands for the value that the text in this member spells.  In the
plainest one, that of a `Document`, every part stands for itself.
-/

namespace TableGate.Json

inductive Fault
  /-- It is not JSON, or beyond a limit of the interpretation. -/
  | malformed
  /-- It is JSON up to a member that has to hold the text of a value, and does not. -/
  | unfit
deriving DecidableEq, Repr

/-- What the parts of a text stand for. -/
structure Interpretation (Name Tree : Type) where
  name? : RawText → Option Name
  scalar? : Scalar → Option Tree
  array : List Tree → Tree
  object : List (Name × Tree) → Tree
  /-- How deep containers may be nested, if there is a limit. -/
  maxDepth : Option Nat
  /-- Whether an object whose first member has this name stands for an embedded value. -/
  embeds : Name → Bool

/-- A container that is still open: an array with the items so far, or an object with the members so
far and the name whose value is due.  Both are kept last first. -/
inductive Frame (Name Tree : Type)
  | array (items : List Tree)
  | object (members : List (Name × Tree)) (name : Name)

/-- What may come next, with the containers around it. -/
inductive State (Name Tree : Type)
  /-- A value is due. -/
  | value (around : List (Frame Name Tree))
  /-- An array has been opened: a value or its end is due. -/
  | firstItem (around : List (Frame Name Tree))
  /-- An object has been opened: a name or its end is due. -/
  | firstName (around : List (Frame Name Tree))
  /-- A comma of an object has been read: a name is due. -/
  | name (members : List (Name × Tree)) (around : List (Frame Name Tree))
  /-- A name has been read: a colon is due. -/
  | colon (members : List (Name × Tree)) (name : Name) (around : List (Frame Name Tree))
  /-- An item of an array is complete: a comma or the end is due. -/
  | item (items : List Tree) (around : List (Frame Name Tree))
  /-- A member of an object is complete: a comma or the end is due. -/
  | member (members : List (Name × Tree)) (around : List (Frame Name Tree))
  /-- A name that embeds a value has been read: a colon is due. -/
  | embeddedColon (around : List (Frame Name Tree))
  /-- The text of an embedded value is due. -/
  | embeddedText (around : List (Frame Name Tree))
  /-- An embedded value is complete: the end of its object is due. -/
  | embeddedEnd (tree : Tree) (around : List (Frame Name Tree))
  /-- The whole tree is complete. -/
  | done (tree : Tree)

variable {Name Tree : Type}

/-- The state after a complete value. -/
def State.complete (tree : Tree) : List (Frame Name Tree) → State Name Tree
  | [] => .done tree
  | .array items :: around => .item (tree :: items) around
  | .object members key :: around => .member ((key, tree) :: members) around

/-- The characters of an embedded text, and the containers around its object. -/
def State.embedded? : State Name Tree → Token → Option (List Char × List (Frame Name Tree))
  | .embeddedText around, .scalar (.text spelled) => spelled.chars?.map fun text => (text, around)
  | _, _ => none

/-- The characters of an embedded text are fewer than those of the input it is read from. -/
theorem State.embedded?_shorter {state : State Name Tree} {token : Token}
    {around : List (Frame Name Tree)} {input rest text : List Char}
    (read : Token.next? input = some (token, rest))
    (embedded : state.embedded? token = some (text, around)) : text.length < input.length := by
  unfold State.embedded? at embedded
  split at embedded
  · obtain ⟨chars, decoded, shape⟩ := Option.map_eq_some_iff.mp embedded
    simp only [Prod.mk.injEq] at shape
    exact shape.1 ▸ Token.next?_text_shorter read decoded
  · simp at embedded

namespace Interpretation

/-- Whether one more container may be opened. -/
def mayOpen (how : Interpretation Name Tree) (around : List (Frame Name Tree)) : Bool :=
  match how.maxDepth with
  | some depth => decide (around.length < depth)
  | none => true

/-- The state after a token where a value is due. -/
def openValue (how : Interpretation Name Tree) (around : List (Frame Name Tree)) :
    Token → Except Fault (State Name Tree)
  | .scalar leaf =>
      match how.scalar? leaf with
      | some tree => .ok (.complete tree around)
      | none => .error .malformed
  | .openArray => if how.mayOpen around then .ok (.firstItem around) else .error .malformed
  | .openObject => if how.mayOpen around then .ok (.firstName around) else .error .malformed
  | _ => .error .malformed

/-- The fault of a token in the place of an embedded text: a value of another kind does not fit. -/
def refusal (how : Interpretation Name Tree) : Token → Fault
  | .scalar leaf => if (how.scalar? leaf).isSome then .unfit else .malformed
  | .openArray | .openObject => .unfit
  | _ => .malformed

/-- The state after the first name of an object. -/
def firstName (how : Interpretation Name Tree) (around : List (Frame Name Tree)) (name : Name) :
    State Name Tree :=
  if how.embeds name then .embeddedColon around else .colon [] name around

/-- The state after one more token, or the fault if it may not come next. -/
def step (how : Interpretation Name Tree) :
    State Name Tree → Token → Except Fault (State Name Tree)
  | .value around, token => how.openValue around token
  | .firstItem around, .closeArray => .ok (.complete (how.array []) around)
  | .firstItem around, token => how.openValue (.array [] :: around) token
  | .firstName around, .closeObject => .ok (.complete (how.object []) around)
  | .firstName around, .scalar (.text spelled) =>
      match how.name? spelled with
      | some name => .ok (how.firstName around name)
      | none => .error .malformed
  | .name members around, .scalar (.text spelled) =>
      match how.name? spelled with
      | some name => .ok (.colon members name around)
      | none => .error .malformed
  | .colon members name around, .colon => .ok (.value (.object members name :: around))
  | .item items around, .comma => .ok (.value (.array items :: around))
  | .item items around, .closeArray => .ok (.complete (how.array items.reverse) around)
  | .member members around, .comma => .ok (.name members around)
  | .member members around, .closeObject => .ok (.complete (how.object members.reverse) around)
  | .embeddedColon around, .colon => .ok (.embeddedText around)
  | .embeddedText _, token => .error (how.refusal token)
  | .embeddedEnd tree around, .closeObject => .ok (.complete tree around)
  | _, _ => .error .malformed

/-- The tree of the first complete value of the input, and what follows it.  An embedded text has to
be one value, with nothing but white space after it. -/
def readFrom (how : Interpretation Name Tree) (state : State Name Tree) (input : List Char) :
    Except Fault (Tree × List Char) :=
  match read : Token.next? input with
  | none => .error .malformed
  | some (token, rest) =>
      have : rest.length < input.length := Token.next?_shorter read
      match embedded : state.embedded? token with
      | some (text, around) =>
          have : text.length < input.length := State.embedded?_shorter read embedded
          match how.readFrom (.value []) text with
          | .error _ => .error .unfit
          | .ok (tree, after) =>
              if after.all isSpace then how.readFrom (.embeddedEnd tree around) rest
              else .error .unfit
      | none =>
          match how.step state token with
          | .error fault => .error fault
          | .ok (.done tree) => .ok (tree, rest)
          | .ok next => how.readFrom next rest
termination_by input.length

/-- The tree of the value that a text starts with; what follows it does not matter. -/
def first (how : Interpretation Name Tree) (text : String) : Except Fault Tree :=
  (how.readFrom (.value []) text.toList).map (·.1)

/-- The tree of a text that is one value, with nothing but white space after it. -/
def whole (how : Interpretation Name Tree) (text : String) : Except Fault Tree :=
  match how.readFrom (.value []) text.toList with
  | .error fault => .error fault
  | .ok (tree, rest) => if rest.all isSpace then .ok tree else .error .malformed

end Interpretation

/-! ### Documents -/

/-- The tree of a JSON text with nothing decided about its parts: numerals and texts as they are
spelled, members in the order written, repeated names included, containers nested as deep as the
text has them. -/
inductive Document
  | scalar (value : Scalar)
  | array (items : List Document)
  | object (members : List (RawText × Document))
deriving Repr, Inhabited

namespace Document

/-- Every part stands for itself. -/
def interpretation : Interpretation RawText Document where
  name? := some
  scalar? := fun leaf => some (.scalar leaf)
  array := .array
  object := .object
  maxDepth := none
  embeds := fun _ => false

/-- The document of a text that is one value, with nothing but white space after it. -/
def whole? (text : String) : Option Document := (interpretation.whole text).toOption

end Document

end TableGate.Json

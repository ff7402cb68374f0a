import TableGate.Compile.Acceptance
import TableGate.Sql.Statement

/-!
# Drafts

A draft is a text with placeholders next to the values they stand for.  Fragments that are placed in
a draft number their placeholders after the values it already has.  The placeholders of a text are
the numbers after its dollar signs; a draft is complete when they are the positions of its values,
each once.
-/

namespace TableGate

/-- A text with placeholders, and the values they stand for. -/
structure Draft where
  text : String := ""
  values : List Datum := []
deriving Repr

namespace Draft

open Sql (Fragment)

def ofStatement (statement : Sql.Statement) : Draft := ⟨statement.text, statement.values⟩

def bind (draft : Draft) (values : List Datum) : Draft :=
  { draft with values := draft.values ++ values }

def next (draft : Draft) : Nat := draft.values.length + 1

/-- Bind a value: the draft with it, and its placeholder. -/
def push (draft : Draft) (value : Datum) : Draft × String :=
  (draft.bind [value], Sql.placeholder draft.next)

/-- Place fragments: the draft with their values, and their texts. -/
def place (draft : Draft) (fragments : List Fragment) : Draft × List String :=
  (draft.bind (fragments.flatMap Fragment.values), Fragment.texts draft.next fragments)

/-- The draft after a compilation: where it was refused, the values bound before stay. -/
def afterOutcome {α : Type} (draft : Draft) (fragments : α → List Fragment)
    (outcome : Compile.Outcome α) : Draft × Except Error (α × List String) :=
  match outcome with
  | .error refusal => (draft.bind refusal.bound, .error refusal.error)
  | .ok accepted =>
      let (placed, texts) := draft.place (fragments accepted)
      (placed, .ok (accepted, texts))

/-- The numbers after the dollar signs of a text, as far as they fit 64 bits. -/
def placeholdersIn : List Char → List Nat
  | [] => []
  | c :: rest =>
      if c = '$' then
        (Text.naturalBelow? Text.wordBound (rest.takeWhile Char.isDigit)).toList ++
          placeholdersIn rest
      else placeholdersIn rest

def placeholders (draft : Draft) : List Nat := placeholdersIn draft.text.toList

/-- Whether every value has exactly one placeholder and every placeholder a value. -/
def isComplete (draft : Draft) : Bool :=
  draft.placeholders.mergeSort == List.range' 1 draft.values.length

end Draft

end TableGate

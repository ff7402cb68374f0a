import TableGate.Compile.Acceptance
import TableGate.Filter

/-!
# Compiling filters

The parameters of a query as conditions.  Reads take every filter and the groups of alternatives;
writes take the filters that ask for equality.  A parameter that names no operator is left out; a
name that is no identifier refuses the query.
-/

namespace TableGate.Compile

open Sql (Condition Predicate)

/-- A group of alternatives, cut at the commas outside quotes and parentheses; no condition where no
alternative is left. -/
def group (table : Option Ident) (text : String) : Outcome (Option Condition) :=
  let pieces := Text.splitTopLevel (Text.inner '(' ')' (Text.trim text.toList))
  let alternative (piece : List Char) : Outcome (Option Predicate) :=
    (Outcome.ofCheck (Filter.ofAlternative piece)).map fun filter =>
      filter.map (Filter.predicate table)
  (acceptAll (fun predicate => predicate.tokens.values) alternative pieces).map fun alternatives =>
    if alternatives.isEmpty then none else some (.anyOf alternatives)

/-- The condition of one parameter of a read. -/
def readFilter (table : Option Ident) (parameter : String × String) : Outcome (Option Condition) :=
  if parameter.1 = "or" then group table parameter.2
  else if Query.isReserved parameter.1 then .ok none
  else
    (Outcome.ofCheck (Filter.ofParameter parameter.1 parameter.2)).map fun filter =>
      filter.map fun filter => .single (filter.predicate table)

def filters (table : Option Ident) (parameters : List (String × String)) :
    Outcome (List Condition) :=
  acceptAll Condition.values (readFilter table) parameters

/-- The condition of one parameter of a write. -/
def writeFilter (table : Option Ident) (parameter : String × String) : Outcome (Option Condition) :=
  if Query.isReserved parameter.1 then .ok none
  else
    (Outcome.ofCheck (Filter.ofParameter parameter.1 parameter.2)).map fun filter =>
      (filter.filter fun filter => filter.operator == .eq).map fun filter =>
        .single (filter.predicate table)

def equalityFilters (table : Option Ident) (parameters : List (String × String)) :
    Outcome (List Condition) :=
  acceptAll Condition.values (writeFilter table) parameters

end TableGate.Compile

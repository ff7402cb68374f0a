import TableGate.Text.Numeral

/-!
# Query parameters

The parameters of a request's query string, in the order they arrive.  Six names are reserved for
the shape of the answer; every other name is that of a column to filter by.  Of repeated names the
first one counts.
-/

namespace TableGate

/-- Query parameters: names and values, in the order they arrive. -/
structure Query where
  pairs : List (String × String)
deriving DecidableEq, Repr

namespace Query

/-- The names that are not those of columns. -/
def reserved : List String := ["select", "order", "limit", "offset", "or", "single"]

/-- Whether a name is not that of a column. -/
def isReserved (name : String) : Bool := reserved.contains name

def get? (query : Query) (name : String) : Option String := query.pairs.lookup name

/-- The first value of a name, unless it is blank. -/
def visible? (query : Query) (name : String) : Option String :=
  (query.get? name).filter fun value => !Text.isBlankText value.toList

def select? (query : Query) : Option String := query.visible? "select"

def order? (query : Query) : Option String := query.visible? "order"

/-- The 64-bit number that the first value of a name spells, blanks around it ignored. -/
def number? (query : Query) (name : String) : Option Nat :=
  (query.get? name).bind fun value => Text.word? (Text.trim value.toList)

def limit? (query : Query) : Option Nat := query.number? "limit"

def offset? (query : Query) : Option Nat := query.number? "offset"

/-- Whether one row is wanted instead of a list. -/
def single (query : Query) : Bool :=
  match query.get? "single" with
  | some value => ["", "true", "1"].contains value
  | none => false

end Query

end TableGate

import TableGate.Json.Value

/-!
# Change events and their feed

Every row that a write returns is announced by one event: the kind of the write, the table and the
row.  A feed keeps the latest events, as many as its capacity, for the receivers that were
subscribed when they were published.  A receiver that falls further behind is told how many events
it missed and goes on with the oldest one kept.  An event that is published while nobody is
subscribed is not kept.
-/

namespace TableGate

/-! ### Events -/

/-- The kind of a write. -/
inductive ChangeKind
  | insert | update | delete
deriving DecidableEq, Repr

def ChangeKind.name : ChangeKind → String
  | .insert => "INSERT"
  | .update => "UPDATE"
  | .delete => "DELETE"

/-- A row that has been written. -/
structure ChangeEvent where
  kind : ChangeKind
  table : String
  record : Json
deriving Repr

/-- The events of the rows that a write returned, in their order. -/
def ChangeEvent.ofRows (kind : ChangeKind) (table : String) (rows : List Json) :
    List ChangeEvent :=
  rows.map fun row => ⟨kind, table, row⟩

/-! ### The feed -/

/-- A feed: how many events are kept, all that have been published to subscribers, and the position
of each receiver's next event, `none` for a receiver that has been dropped. -/
structure Feed where
  capacity : Nat
  published : List ChangeEvent := []
  receivers : List (Option Nat) := []
deriving Repr

/-- What a receiver gets. -/
inductive Delivery
  | event (event : ChangeEvent)
  /-- There is no newer event. -/
  | empty
  /-- So many events were not kept long enough. -/
  | lagged (missed : Nat)
  /-- The receiver has been dropped. -/
  | dropped
deriving Repr

namespace Feed

/-- The smallest power of two that is at least the given number. -/
def roundUp (n : Nat) : Nat := if n ≤ 1 then 1 else Nat.pow 2 ((n - 1).log2 + 1)

/-- A feed that keeps at least the given number of events, which has to be positive. -/
def create? (capacity : Nat) : Option Feed :=
  if capacity = 0 then none else some { capacity := roundUp capacity }

/-- The feed with one more receiver, and its number. -/
def subscribe (feed : Feed) : Feed × Nat :=
  ({ feed with receivers := feed.receivers ++ [some feed.published.length] },
    feed.receivers.length)

def drop (feed : Feed) (receiver : Nat) : Feed :=
  { feed with receivers := feed.receivers.set receiver none }

def hasReceivers (feed : Feed) : Bool := feed.receivers.any Option.isSome

/-- The feed after the events; they are kept only for receivers. -/
def publish (feed : Feed) (events : List ChangeEvent) : Feed :=
  if feed.hasReceivers then { feed with published := feed.published ++ events } else feed

/-- The position of the oldest event kept. -/
def oldest (feed : Feed) : Nat := feed.published.length - feed.capacity

def moveTo (feed : Feed) (receiver position : Nat) : Feed :=
  { feed with receivers := feed.receivers.set receiver (some position) }

/-- What the receiver gets next. -/
def receive (feed : Feed) (receiver : Nat) : Feed × Delivery :=
  match (feed.receivers[receiver]?).join with
  | none => (feed, .dropped)
  | some position =>
      if position < feed.oldest then
        (feed.moveTo receiver feed.oldest, .lagged (feed.oldest - position))
      else
        match feed.published[position]? with
        | none => (feed, .empty)
        | some event => (feed.moveTo receiver (position + 1), .event event)

end Feed

end TableGate

import TableGate.Error
import TableGate.Datum.Wire
import TableGate.Sql.Statement

/-!
# The store

The store as a gateway sees it: a script of replies, of which each executed statement takes the
next one, and the commands that have been executed.  An exchange with the store has a result, the
commands that were executed on the way to it, and the store afterwards.
-/

namespace TableGate

/-- The answer of the store to one statement: the rows as JSON texts, and the failure that ends
them, if there is one. -/
structure Reply where
  rows : List String := []
  failure : Option StoreError := none
deriving Repr

/-- The store: whether the way to it is closed, and the replies that are still to come. -/
structure Store where
  isClosed : Bool := false
  replies : List Reply := []
deriving Repr

/-- A command that the store executes. -/
inductive Command
  /-- A statement on a table, of which each row is returned as one JSON object. -/
  | rows (statement : Sql.Statement)
  /-- A statement that only shows that the store answers. -/
  | probe
  | beginTransaction
  | commit
  | rollback
deriving Repr

namespace Command

def text : Command → String
  | .rows statement =>
      "WITH r AS (" ++ statement.text ++ ") SELECT row_to_json(r) AS row FROM r"
  | .probe => "SELECT 1"
  | .beginTransaction => "BEGIN"
  | .commit => "COMMIT"
  | .rollback => "ROLLBACK"

/-- The parameters of a command, as they are sent. -/
def parameters : Command → List Wire
  | .rows statement => statement.values.map Datum.wire
  | _ => []

end Command

/-- Whether a reply came to its end, whatever its rows are. -/
def Reply.completion (reply : Reply) : Except Error Unit :=
  match reply.failure with
  | some failure => .error (.ofStore failure)
  | none => .ok ()

/-- The rows of a reply, or why there are none: a row whose text has no value, or else the failure
that comes after the rows. -/
def Reply.answer (reply : Reply) : Except Error (List Json) :=
  match reply.rows.mapM Json.read? with
  | none => .error (.database (.undecodableRow "the row is not JSON"))
  | some rows => reply.completion.map fun () => rows

/-- What came of using the store: a result, the commands executed on the way, the store
afterwards. -/
structure Exchange (α : Type) where
  result : Except Error α
  executed : List Command
  store : Store

namespace Exchange

/-- The exchange that does not reach the store. -/
def fail {α : Type} (error : Error) (store : Store) : Exchange α := ⟨.error error, [], store⟩

/-- Go on with a result; a failure ends the exchange. -/
def andThen {α β : Type} (first : Exchange α) (next : α → Store → Exchange β) : Exchange β :=
  match first.result with
  | .error error => ⟨.error error, first.executed, first.store⟩
  | .ok value =>
      let second := next value first.store
      ⟨second.result, first.executed ++ second.executed, second.store⟩

def map {α β : Type} (change : α → β) (exchange : Exchange α) : Exchange β :=
  ⟨exchange.result.map change, exchange.executed, exchange.store⟩

end Exchange

namespace Store

/-- Execute a command and read the next reply; after the last one, replies are empty. -/
def send {α : Type} (store : Store) (command : Command) (read : Reply → Except Error α) :
    Exchange α :=
  match store.replies with
  | [] => ⟨read {}, [command], store⟩
  | reply :: rest => ⟨read reply, [command], { store with replies := rest }⟩

/-- Execute a statement on a table for its rows. -/
def execute (store : Store) (statement : Sql.Statement) : Exchange (List Json) :=
  store.send (.rows statement) Reply.answer

/-- Execute a statement that only shows that the store answers; its rows are not read. -/
def probe (store : Store) : Exchange Unit := store.send .probe Reply.completion

/-- Use the store unless the way to it is closed. -/
def acquire {α : Type} (store : Store) (use : Store → Exchange α) : Exchange α :=
  if store.isClosed then .fail (.database .poolClosed) store else use store

end Store

end TableGate

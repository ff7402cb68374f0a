import TableGate.Change.Feed
import TableGate.Http.Message
import TableGate.Service.Basic

/-!
# The gateway

A gateway answers requests: three fixed routes tell its state, and one route per table reads and
writes rows.  Serving a request gives the response, the commands that the store executed, the change
events that were published and the store afterwards.
-/

namespace TableGate

open Http (Request Response Envelope)

/-- What came of serving a request. -/
structure Served where
  response : Response
  executed : List Command := []
  events : List ChangeEvent := []
  store : Store
deriving Repr

namespace Gateway

inductive Route
  | health
  | version
  | ready
  /-- The rows of a table, whose name is still percent-encoded. -/
  | rows (name : List Char)
deriving DecidableEq, Repr

/-- The beginning of the paths of tables. -/
def rowsPath : List Char := "/rest/".toList

def Route.ofPath? (path : List Char) : Option Route :=
  if path = "/health".toList then some .health
  else if path = "/version".toList then some .version
  else if path = "/ready".toList then some .ready
  else if rowsPath.isPrefixOf path then
    let name := path.drop rowsPath.length
    if name.isEmpty || name.contains '/' then none else some (.rows name)
  else none

/-- The answer of a request that does not reach the store. -/
def plain (store : Store) (response : Response) : Served := { response, store }

def respondValue (status : Nat) (members : List (String × Json)) : Response :=
  ⟨status, (Json.ofMembers members).text⟩

def health : Response := respondValue 200 [("status", .string "ok")]

def version : Response :=
  respondValue 200 [("name", .string "tenant-rest-sdk"), ("version", .string "0.1.0")]

def ready (catalog : Catalog) (store : Store) : Served :=
  let probe := store.acquire Store.probe
  let respond (status : Nat) (state database : String) : Response :=
    respondValue status [("status", .string state), ("database", .string database),
      ("tables", .ofInt catalog.size)]
  let response :=
    match probe.result with
    | .ok _ => respond 200 "ok" "ok"
    | .error _ => respond 503 "degraded" "unavailable"
  { response, executed := probe.executed, store := probe.store }

/-- The record of a value; only objects are records. -/
def recordOf (value : Json) : Except Error Record :=
  match value with
  | .object members => .ok (.ofFields members)
  | _ => .error (.badRequest "body must be a JSON object")

/-- The records of a body, and whether it is a single one. -/
def recordsOf (value : Json) : Except Error (List Record × Bool) :=
  match value with
  | .object members => .ok ([.ofFields members], true)
  | .array items => (items.mapM recordOf).map fun records => (records, false)
  | _ => .error (.badRequest "body must be a JSON object or array")

/-- The answer to a read. -/
def answerRead (exchange : Exchange (List Json)) (single : Bool) : Served :=
  let response :=
    match exchange.result with
    | .ok rows => (Envelope.ofRows rows single).respond 200
    | .error error => .ofError error
  { response, executed := exchange.executed, store := exchange.store }

/-- The answer to a write; the returned rows are published only if the whole write succeeds. -/
def answerWrite (exchange : Exchange WriteOutcome) (status : Nat) (single : Bool)
    (kind : ChangeKind) (table : String) : Served :=
  match exchange.result with
  | .ok outcome =>
      { response := (Envelope.ofRows outcome.rows single).respond status,
        executed := exchange.executed,
        events := ChangeEvent.ofRows kind table outcome.returned,
        store := exchange.store }
  | .error error =>
      { response := .ofError error, executed := exchange.executed, store := exchange.store }

def serveSelect (catalog : Catalog) (table : String) (request : Request) (store : Store) :
    Served :=
  let scope : Scope := ⟨catalog, request.tenant⟩
  answerRead (Service.select scope table request.query store) request.query.single

def serveInsert (catalog : Catalog) (table : String) (request : Request) (body : Json)
    (store : Store) : Served :=
  match recordsOf body with
  | .error error => plain store (.ofError error)
  | .ok (records, single) =>
      let scope : Scope := ⟨catalog, request.tenant⟩
      answerWrite (Service.insert scope table records request.query store) 201
        (single || request.query.single) .insert table

def serveUpdate (catalog : Catalog) (table : String) (request : Request) (body : Json)
    (store : Store) : Served :=
  match recordOf body with
  | .error error => plain store (.ofError error)
  | .ok patch =>
      let scope : Scope := ⟨catalog, request.tenant⟩
      answerWrite (Service.update scope table patch request.query store) 200
        request.query.single .update table

def serveDelete (catalog : Catalog) (table : String) (request : Request) (store : Store) :
    Served :=
  let scope : Scope := ⟨catalog, request.tenant⟩
  answerWrite (Service.delete scope table request.query store) 200 request.query.single
    .delete table

/-- Serve a request that needs a JSON body. -/
def withBody (request : Request) (store : Store) (serve : Json → Served) : Served :=
  match request.jsonBody with
  | .error status => plain store ⟨status, ""⟩
  | .ok body => serve body

/-- What can be done with the rows of a table. -/
inductive Verb
  | select | insert | update | delete
deriving DecidableEq, Repr

def Verb.ofMethod? : String → Option Verb
  | "GET" => some .select
  | "HEAD" => some .select
  | "POST" => some .insert
  | "PATCH" => some .update
  | "DELETE" => some .delete
  | _ => none

/-- Serve a verb on the table of the given name. -/
def serveVerb (catalog : Catalog) (verb : Verb) (table : String) (request : Request)
    (store : Store) : Served :=
  match verb with
  | .select => serveSelect catalog table request store
  | .insert => withBody request store fun body => serveInsert catalog table request body store
  | .update => withBody request store fun body => serveUpdate catalog table request body store
  | .delete => serveDelete catalog table request store

def tableName? (name : List Char) : Option String :=
  Text.Utf8.decode? (Http.percentDecode (Text.Utf8.encode (String.ofList name)))

/-- Serve a request for the rows of a table. -/
def serveRows (catalog : Catalog) (name : List Char) (request : Request) (store : Store) :
    Served :=
  match Verb.ofMethod? request.method with
  | none => plain store ⟨405, ""⟩
  | some verb =>
      match tableName? name with
      | none => plain store ⟨400, ""⟩
      | some table => serveVerb catalog verb table request store

/-- Serve a request for one of the fixed routes, which can only be read. -/
def serveFixed (request : Request) (store : Store) (served : Served) : Served :=
  if request.method = "GET" ∨ request.method = "HEAD" then served
  else plain store ⟨405, ""⟩

/-- Serve a request unless it announces a body that is too long, which is refused before all
else. -/
def withinLimit (request : Request) (store : Store) (served : Served) : Served :=
  if request.announcesTooMuch then plain store ⟨413, ""⟩ else served

/-- Serve a request as if its body were always sent.  Only the fixed routes take no account of the
length of the body. -/
def serveWhole (catalog : Catalog) (request : Request) (store : Store) : Served :=
  match Route.ofPath? request.path with
  | none => withinLimit request store (plain store ⟨404, ""⟩)
  | some .health => serveFixed request store (plain store health)
  | some .version => serveFixed request store (plain store version)
  | some .ready => serveFixed request store (ready catalog store)
  | some (.rows name) => withinLimit request store (serveRows catalog name request store)

/-- Serve a request; the response to a `HEAD` request has no body. -/
def serve (catalog : Catalog) (request : Request) (store : Store) : Served :=
  let served := serveWhole catalog request store
  if request.method = "HEAD" then { served with response := served.response.withoutBody }
  else served

/-- Serve requests one after another, each with the store that the one before has left. -/
def serveAll (catalog : Catalog) : List Request → Store → List Served
  | [], _ => []
  | request :: rest, store =>
      let served := serve catalog request store
      served :: serveAll catalog rest served.store

end Gateway

end TableGate

import TableGate.Gateway
import TableGate.Proofs.Service.Exchange

/-!
# What a request asks for

A request asks for one of four things, whatever the store is: an answer that needs no store, the
state of the store, a read or a write (`ask`).  Serving it is doing what it asks for
(`serveWhole_eq_perform`), so what a request can execute, publish and answer is found by these four
cases.
-/

namespace TableGate

open Http (Request Response Envelope)

/-- The kind of write that a method asks for. -/
def ChangeKind.ofMethod? : String → Option ChangeKind
  | "POST" => some .insert
  | "PATCH" => some .update
  | "DELETE" => some .delete
  | _ => none

namespace Gateway

/-- A write that a request asks for. -/
structure WriteOrder where
  kind : ChangeKind
  table : String
  prepared : Except Error Write
  /-- The status of a successful answer. -/
  status : Nat
  single : Bool

/-- What a request asks for. -/
inductive Action
  | answer (response : Response)
  | ready
  | read (table : String)
  | write (order : WriteOrder)

/-- The name of the table in the path of a request. -/
def tableOf? (request : Request) : Option String :=
  match Route.ofPath? request.path with
  | some (.rows name) => tableName? name
  | _ => none

/-- What a request with a JSON body asks for. -/
def askWithBody (request : Request) (ask : Json → Action) : Action :=
  match request.jsonBody with
  | .error status => .answer ⟨status, ""⟩
  | .ok body => ask body

/-- What a verb on the table of the given name asks for. -/
def askVerb (scope : Scope) (table : String) (request : Request) : Verb → Action
  | .select => .read table
  | .insert => askWithBody request fun body =>
      match recordsOf body with
      | .error error => .answer (.ofError error)
      | .ok (records, single) =>
          .write ⟨.insert, table, Service.prepareInsert scope table records request.query, 201,
            single || request.query.single⟩
  | .update => askWithBody request fun body =>
      match recordOf body with
      | .error error => .answer (.ofError error)
      | .ok patch =>
          .write ⟨.update, table, Service.prepareUpdate scope table patch request.query, 200,
            request.query.single⟩
  | .delete =>
      .write ⟨.delete, table, Service.prepareDelete scope table request.query, 200,
        request.query.single⟩

/-- What a request for the rows of a table asks for. -/
def askRows (scope : Scope) (name : List Char) (request : Request) : Action :=
  match Verb.ofMethod? request.method with
  | none => .answer ⟨405, ""⟩
  | some verb =>
      match tableName? name with
      | none => .answer ⟨400, ""⟩
      | some table => askVerb scope table request verb

/-- What a request for one of the fixed routes asks for. -/
def askFixed (request : Request) (action : Action) : Action :=
  if request.method = "GET" ∨ request.method = "HEAD" then action else .answer ⟨405, ""⟩

/-- What a request asks for, unless it announces too much. -/
def askWithinLimit (request : Request) (action : Action) : Action :=
  if request.announcesTooMuch then .answer ⟨413, ""⟩ else action

/-- What a request asks for. -/
def ask (scope : Scope) (request : Request) : Action :=
  match Route.ofPath? request.path with
  | none => askWithinLimit request (.answer ⟨404, ""⟩)
  | some .health => askFixed request (.answer health)
  | some .version => askFixed request (.answer version)
  | some .ready => askFixed request .ready
  | some (.rows name) => askWithinLimit request (askRows scope name request)

/-- Do what a request asks for. -/
def Action.perform (scope : Scope) (request : Request) (store : Store) : Action → Served
  | .answer response => plain store response
  | .ready => Gateway.ready scope.catalog store
  | .read table =>
      answerRead (Service.select scope table request.query store) request.query.single
  | .write order =>
      answerWrite (Service.runWrite scope order.prepared store) order.status order.single
        order.kind order.table

variable {catalog : Catalog} {scope : Scope} {request : Request} {store : Store}

/-- A request that needs a body is answered without one, and else does what the body asks for. -/
theorem withBody_eq_perform {serve : Json → Served} {asked : Json → Action}
    (same : ∀ body, serve body = (asked body).perform scope request store) :
    withBody request store serve = (askWithBody request asked).perform scope request store := by
  unfold withBody askWithBody
  cases request.jsonBody with
  | error status => rfl
  | ok body => exact same body

/-- A verb on a table does what it asks for. -/
theorem serveVerb_eq_perform (verb : Verb) (table : String) :
    serveVerb catalog verb table request store =
      (askVerb ⟨catalog, request.tenant⟩ table request verb).perform
        ⟨catalog, request.tenant⟩ request store := by
  cases verb with
  | select => rfl
  | insert =>
      apply withBody_eq_perform
      intro body
      unfold serveInsert
      cases recordsOf body <;> rfl
  | update =>
      apply withBody_eq_perform
      intro body
      unfold serveUpdate
      cases recordOf body <;> rfl
  | delete => rfl

/-- A method on the path of a table does what it asks for. -/
theorem serveRows_eq_perform (name : List Char) :
    serveRows catalog name request store =
      (askRows ⟨catalog, request.tenant⟩ name request).perform
        ⟨catalog, request.tenant⟩ request store := by
  unfold serveRows askRows
  cases Verb.ofMethod? request.method with
  | none => rfl
  | some verb =>
      cases tableName? name with
      | none => rfl
      | some table => exact serveVerb_eq_perform verb table

/-- A fixed path does what it asks for, by the methods that it allows. -/
theorem serveFixed_eq_perform (scope : Scope) (action : Action) :
    serveFixed request store (action.perform scope request store) =
      (askFixed request action).perform scope request store := by
  unfold serveFixed askFixed
  split <;> rfl

/-- A request whose body is too large is answered before anything is done. -/
theorem withinLimit_eq_perform (scope : Scope) (action : Action) :
    withinLimit request store (action.perform scope request store) =
      (askWithinLimit request action).perform scope request store := by
  unfold withinLimit askWithinLimit
  split <;> rfl

/-- Serving a request is doing what it asks for. -/
theorem serveWhole_eq_perform (catalog : Catalog) (request : Request) (store : Store) :
    serveWhole catalog request store =
      (ask ⟨catalog, request.tenant⟩ request).perform ⟨catalog, request.tenant⟩ request store := by
  have fixed := @serveFixed_eq_perform request store ⟨catalog, request.tenant⟩
  have limited := @withinLimit_eq_perform request store ⟨catalog, request.tenant⟩
  unfold serveWhole ask
  cases Route.ofPath? request.path with
  | none => exact limited (.answer ⟨404, ""⟩)
  | some route =>
      cases route with
      | health => exact fixed (.answer health)
      | version => exact fixed (.answer version)
      | ready => exact fixed .ready
      | rows name =>
          simp only [serveRows_eq_perform]
          exact limited _

section

variable {table : String} {order : WriteOrder} {response : Response}

/-- A request that is answered at once leaves the store alone. -/
theorem serveWhole_of_answer (asked : ask ⟨catalog, request.tenant⟩ request = .answer response) :
    serveWhole catalog request store = plain store response := by
  rw [serveWhole_eq_perform, asked]
  rfl

/-- A request for the state of the store probes it. -/
theorem serveWhole_of_ready (asked : ask ⟨catalog, request.tenant⟩ request = .ready) :
    serveWhole catalog request store = ready catalog store := by
  rw [serveWhole_eq_perform, asked]
  rfl

/-- A read selects with the parameters of the request. -/
theorem serveWhole_of_read (asked : ask ⟨catalog, request.tenant⟩ request = .read table) :
    serveWhole catalog request store =
      answerRead (Service.select ⟨catalog, request.tenant⟩ table request.query store)
        request.query.single := by
  rw [serveWhole_eq_perform, asked]
  rfl

/-- A write is run with what is prepared for it. -/
theorem serveWhole_of_write (asked : ask ⟨catalog, request.tenant⟩ request = .write order) :
    serveWhole catalog request store =
      answerWrite (Service.runWrite ⟨catalog, request.tenant⟩ order.prepared store) order.status
        order.single order.kind order.table := by
  rw [serveWhole_eq_perform, asked]
  rfl

end

/-! ### What is left of it without a response body -/

/-- A response without a body leaves what is executed as it is. -/
theorem serve_executed :
    (serve catalog request store).executed = (serveWhole catalog request store).executed := by
  unfold serve
  split <;> rfl

/-- A response without a body leaves what is published as it is. -/
theorem serve_events :
    (serve catalog request store).events = (serveWhole catalog request store).events := by
  unfold serve
  split <;> rfl

theorem serve_response (method : request.method ≠ "HEAD") :
    (serve catalog request store).response = (serveWhole catalog request store).response := by
  unfold serve
  rw [if_neg method]

/-! ### What is executed -/

/-- The answer to a read executes nothing more. -/
theorem executed_answerRead {exchange : Exchange (List Json)} {single : Bool} :
    (answerRead exchange single).executed = exchange.executed := by
  unfold answerRead
  split <;> rfl

/-- The answer to a write executes nothing more. -/
theorem executed_answerWrite {exchange : Exchange WriteOutcome} {status : Nat} {single : Bool}
    {kind : ChangeKind} {table : String} :
    (answerWrite exchange status single kind table).executed = exchange.executed := by
  unfold answerWrite
  split <;> rfl

/-- A probe is all that the state of the store takes. -/
theorem eq_probe_of_ready {command : Command} (member : command ∈ (ready catalog store).executed) :
    command = .probe := by
  change command ∈ (store.acquire Store.probe).executed at member
  unfold Store.acquire Store.probe Store.send at member
  split at member
  · exact absurd member List.not_mem_nil
  · split at member <;> exact List.mem_singleton.mp member

/-! ### Reads and writes -/

/-- What is asked for is a read or a write of a table. -/
def Action.OfTable : Action → Prop
  | .answer _ => False
  | .ready => False
  | .read _ => True
  | .write _ => True

variable {goal : Action}

/-- An action on a table comes from a body that was read. -/
theorem askWithBody_eq {asked : Json → Action} (same : askWithBody request asked = goal)
    (table : goal.OfTable) : ∃ body, request.jsonBody = .ok body ∧ asked body = goal := by
  unfold askWithBody at same
  split at same
  · subst same
    exact table.elim
  · next body sent => exact ⟨body, sent, same⟩

/-- A fixed path that does something does the one thing that it is for. -/
theorem askFixed_eq {action : Action} (same : askFixed request action = goal)
    (table : goal.OfTable) : action = goal := by
  unfold askFixed at same
  split at same
  · exact same
  · subst same
    exact table.elim

/-- A request that does something is within the limit. -/
theorem askWithinLimit_eq {action : Action} (same : askWithinLimit request action = goal)
    (table : goal.OfTable) : action = goal := by
  unfold askWithinLimit at same
  split at same
  · subst same
    exact table.elim
  · exact same

/-- Only requests to the path of a table, with one of the verbs, ask for reads and writes. -/
theorem ask_eq_verb (asked : ask scope request = goal) (table : goal.OfTable) :
    ∃ verb name, Verb.ofMethod? request.method = some verb ∧ tableOf? request = some name ∧
      askVerb scope name request verb = goal := by
  unfold ask at asked
  split at asked
  · cases askWithinLimit_eq asked table
    exact table.elim
  · cases askFixed_eq asked table
    exact table.elim
  · cases askFixed_eq asked table
    exact table.elim
  · cases askFixed_eq asked table
    exact table.elim
  · next name route =>
      have rows := askWithinLimit_eq asked table
      unfold askRows at rows
      split at rows
      · subst rows
        exact table.elim
      · next verb named =>
          split at rows
          · subst rows
            exact table.elim
          · next decoded found =>
              refine ⟨verb, decoded, named, ?_, rows⟩
              rw [tableOf?, route]
              exact found

/-- The kind of write that a verb asks for. -/
def Verb.kind? : Verb → Option ChangeKind
  | .select => none
  | .insert => some .insert
  | .update => some .update
  | .delete => some .delete

/-- The kind of change that a method makes is that of its verb. -/
theorem kind?_of_ofMethod? {verb : Verb} (named : Verb.ofMethod? request.method = some verb) :
    ChangeKind.ofMethod? request.method = verb.kind? := by
  generalize request.method = method at named ⊢
  unfold Verb.ofMethod? at named
  split at named <;> cases named <;> rfl

/-- A verb that asks for a write prepares it for its own table and kind. -/
theorem askVerb_eq_write {order : WriteOrder} {verb : Verb} {table : String}
    (asked : askVerb scope table request verb = .write order) :
    verb.kind? = some order.kind ∧ table = order.table ∧
      Service.Prepares scope order.table request.query order.kind order.prepared := by
  cases verb with
  | select => exact absurd asked nofun
  | insert =>
      obtain ⟨body, -, written⟩ := askWithBody_eq asked trivial
      split at written
      · exact absurd written nofun
      · cases written
        exact ⟨rfl, rfl, .insert _⟩
  | update =>
      obtain ⟨body, -, written⟩ := askWithBody_eq asked trivial
      split at written
      · exact absurd written nofun
      · cases written
        exact ⟨rfl, rfl, .update _⟩
  | delete =>
      cases asked
      exact ⟨rfl, rfl, .delete⟩

/-- The only verb that asks for a read is the one that selects. -/
theorem askVerb_eq_read {verb : Verb} {table name : String}
    (asked : askVerb scope table request verb = .read name) : verb = .select := by
  cases verb with
  | select => rfl
  | insert =>
      obtain ⟨body, -, written⟩ := askWithBody_eq asked trivial
      split at written <;> exact absurd written nofun
  | update =>
      obtain ⟨body, -, written⟩ := askWithBody_eq asked trivial
      split at written <;> exact absurd written nofun
  | delete => exact absurd asked nofun

/-- A request asks for a write of the kind that its method names, on the table of its path, and
prepared from its query. -/
theorem ask_eq_write {order : WriteOrder} (asked : ask scope request = .write order) :
    ChangeKind.ofMethod? request.method = some order.kind ∧
      tableOf? request = some order.table ∧
      Service.Prepares scope order.table request.query order.kind order.prepared := by
  obtain ⟨verb, table, named, path, written⟩ := ask_eq_verb asked trivial
  obtain ⟨kind, rfl, prepares⟩ := askVerb_eq_write written
  exact ⟨(kind?_of_ofMethod? named).trans kind, path, prepares⟩

/-- A request that asks for rows names no kind of write. -/
theorem ask_eq_read {table : String} (asked : ask scope request = .read table) :
    ChangeKind.ofMethod? request.method = none := by
  obtain ⟨verb, name, named, -, read⟩ := ask_eq_verb asked trivial
  rw [kind?_of_ofMethod? named, askVerb_eq_read read]
  rfl

/-- Whatever a request executes is the probe, or a statement that its scope has compiled. -/
theorem runs_of_serve {command : Command}
    (member : command ∈ (serve catalog request store).executed) :
    command = .probe ∨ Service.Runs ⟨catalog, request.tenant⟩ command := by
  rw [serve_executed] at member
  cases asked : ask ⟨catalog, request.tenant⟩ request with
  | answer response =>
      rw [serveWhole_of_answer asked] at member
      exact absurd member List.not_mem_nil
  | ready =>
      rw [serveWhole_of_ready asked] at member
      exact .inl (eq_probe_of_ready member)
  | read table =>
      rw [serveWhole_of_read asked, executed_answerRead] at member
      exact .inr (Service.runs_of_select member)
  | write order =>
      rw [serveWhole_of_write asked, executed_answerWrite] at member
      exact .inr (Service.runs_of_runWrite (ask_eq_write asked).2.2 member)

end Gateway

end TableGate

import TableGate.Proofs.Gateway.Trace

/-!
# Publication of events

The statements of a run take the replies of the store one after another (`getElem?_serveAll`).  The
events that a request publishes are those of the rows that its own write has returned, as it has
returned them, or none at all; a write that is answered as done has published them.  The main
theorem, `serveAll_publishes`, says so for every request of every run.
-/

namespace TableGate

open Http (Request Response)

/-! ### Replies that are taken -/

namespace Store

/-- The store after so many more statements. -/
def consume (store : Store) (count : Nat) : Store :=
  { store with replies := store.replies.drop count }

/-- The reply that a statement takes before which so many have been executed. -/
def replyAt (store : Store) (count : Nat) : Reply := store.replies[count]?.getD {}

theorem nextReply_consume (store : Store) (count : Nat) :
    (store.consume count).nextReply = store.replyAt count := by
  simp only [nextReply, consume, replyAt, List.head?_drop]

theorem consume_consume (store : Store) (first second : Nat) :
    (store.consume first).consume second = store.consume (first + second) := by
  simp only [consume, List.drop_drop]

theorem afterReply_eq_consume (store : Store) : store.afterReply = store.consume 1 := by
  simp only [afterReply, consume, List.drop_one]

end Store

/-- An exchange has taken one reply for each command that it has executed. -/
def Exchange.TakesReplies {α : Type} (exchange : Exchange α) (store : Store) : Prop :=
  exchange.store = store.consume exchange.executed.length

section

variable (scope : Scope) (store : Store)

theorem Rehydrate.takesReplies_rows (table : Table) (projection : Projection)
    (written : List Json) :
    (Rehydrate.rows scope table projection written store).TakesReplies store := by
  cases found : Rehydrate.keys? projection written with
  | none =>
      rw [Rehydrate.rows_of_kept found]
      rfl
  | some keys =>
      cases compiled : Compile.selectByKeys scope table projection (keys.map Datum.text) with
      | error error =>
          rw [Rehydrate.rows_of_refused found compiled]
          rfl
      | ok select =>
          rw [Rehydrate.rows_of_compiled found compiled]
          exact store.afterReply_eq_consume

theorem Write.takesReplies_run (write : Write) : (write.run scope store).TakesReplies store := by
  cases access : store.isClosed with
  | true =>
      rw [Write.run_of_closed access]
      rfl
  | false =>
      rw [Write.run_of_open access]
      cases store.nextReply.answer with
      | error error => exact store.afterReply_eq_consume
      | ok returned =>
          cases shown : write.projection with
          | none =>
              simp only [Write.afterwards, shown]
              exact store.afterReply_eq_consume
          | some projection =>
              have again := Rehydrate.takesReplies_rows scope store.afterReply write.table
                projection returned
              simp only [Write.afterwards, shown]
              unfold Exchange.TakesReplies at again ⊢
              rw [again, Store.afterReply_eq_consume, Store.consume_consume, Nat.add_comm]
              rfl

namespace Service

theorem takesReplies_runWrite (prepared : Except Error Write) :
    (runWrite scope prepared store).TakesReplies store := by
  cases prepared with
  | error error => rfl
  | ok write => exact write.takesReplies_run scope store

theorem takesReplies_select (name : String) (query : Query) :
    (select scope name query store).TakesReplies store := by
  unfold select
  cases prepareSelect scope name query with
  | error error => rfl
  | ok statement =>
      cases access : store.isClosed with
      | true =>
          simp only [Store.acquire_of_closed access]
          rfl
      | false =>
          simp only [Store.acquire_of_open access, Store.execute_eq]
          exact store.afterReply_eq_consume

end Service

end

variable {scope : Scope} {store : Store}

namespace Gateway

variable {catalog : Catalog} {request : Request}

/-- Serving a request takes one reply for each statement that it executes. -/
theorem store_serve (catalog : Catalog) (request : Request) (store : Store) :
    (serve catalog request store).store =
      store.consume (serve catalog request store).executed.length := by
  have whole : (serve catalog request store).store = (serveWhole catalog request store).store := by
    unfold serve
    split <;> rfl
  rw [whole, serve_executed]
  cases asked : ask ⟨catalog, request.tenant⟩ request with
  | answer response =>
      rw [serveWhole_of_answer asked]
      rfl
  | ready =>
      rw [serveWhole_of_ready asked]
      change (store.acquire Store.probe).TakesReplies store
      cases access : store.isClosed with
      | true =>
          rw [Store.acquire_of_closed access]
          rfl
      | false =>
          rw [Store.acquire_of_open access]
          obtain ⟨closed, replies⟩ := store
          cases replies <;> rfl
  | read table =>
      rw [serveWhole_of_read asked, executed_answerRead]
      have taken := Service.takesReplies_select ⟨catalog, request.tenant⟩ store table request.query
      unfold answerRead
      split <;> exact taken
  | write order =>
      rw [serveWhole_of_write asked, executed_answerWrite]
      have taken := Service.takesReplies_runWrite ⟨catalog, request.tenant⟩ store order.prepared
      unfold answerWrite
      split <;> exact taken

/-- The statements that the first requests of a run have executed. -/
def executedBefore (catalog : Catalog) (requests : List Request) (store : Store) (i : Nat) :
    List Command :=
  ((serveAll catalog requests store).take i).flatMap Served.executed

/-- Each request of a run is served with the replies that those before it have left. -/
theorem getElem?_serveAll (catalog : Catalog) (requests : List Request) (store : Store) (i : Nat) :
    (serveAll catalog requests store)[i]? = requests[i]?.map fun request =>
      serve catalog request (store.consume (executedBefore catalog requests store i).length) := by
  induction requests generalizing store i with
  | nil => rfl
  | cons request rest ih =>
      cases i with
      | zero => rfl
      | succ i =>
          simp only [serveAll, executedBefore, List.getElem?_cons_succ, List.take_succ_cons,
            List.flatMap_cons, List.length_append]
          rw [ih, store_serve, Store.consume_consume]
          rfl

end Gateway

/-! ### What a write publishes -/

/-- The kind of write that a statement is; a select is none. -/
def Sql.Statement.kind? : Sql.Statement → Option ChangeKind
  | .select _ => none
  | .insert _ => some .insert
  | .update _ => some .update
  | .delete _ => some .delete

namespace Service

variable {name : String} {query : Query} {kind : ChangeKind} {prepared : Except Error Write}

/-- A prepared write has a statement of its kind. -/
theorem Prepares.kind?_statement {write : Write}
    (prepares : Prepares scope name query kind prepared)
    (done : prepared = .ok write) : write.statement.kind? = some kind := by
  cases prepares with
  | insert records =>
      obtain ⟨table, projection, statement, -, -, -, rfl⟩ := prepareInsert_eq_ok.mp done
      rfl
  | update patch =>
      obtain ⟨table, projection, statement, -, -, -, rfl⟩ := prepareUpdate_eq_ok.mp done
      rfl
  | delete =>
      obtain ⟨table, -, rest⟩ := bind_eq_ok.mp done
      obtain ⟨statement, -, shape⟩ := bind_eq_ok.mp rest
      cases shape
      rfl

/-- A write that succeeds has executed a statement of its kind, and has the rows of its reply as
they are, whatever is read again for the answer. -/
theorem returned_of_runWrite {outcome : WriteOutcome}
    (prepares : Prepares scope name query kind prepared)
    (done : (runWrite scope prepared store).result = .ok outcome) :
    (∃ statement, (runWrite scope prepared store).executed.head? = some (.rows statement) ∧
        statement.kind? = some kind) ∧
      store.nextReply.answer = .ok outcome.returned := by
  cases prepared with
  | error error => exact absurd done nofun
  | ok write =>
      have kinds := prepares.kind?_statement rfl
      change (write.run scope store).result = .ok outcome at done
      change (∃ statement, (write.run scope store).executed.head? = _ ∧ _) ∧ _
      cases access : store.isClosed with
      | true =>
          rw [Write.run_of_closed access] at done
          exact absurd done nofun
      | false =>
          rw [Write.run_of_open access] at done ⊢
          cases answered : store.nextReply.answer with
          | error error =>
              rw [answered] at done
              exact absurd done nofun
          | ok returned =>
              simp only [answered] at done
              obtain ⟨rows, -, rfl⟩ := map_eq_ok.mp done
              exact ⟨⟨write.statement, rfl, kinds⟩, rfl⟩

end Service

/-! ### Answers that say that a write was done -/

/-- The statuses of a write that was done. -/
def doneStatuses : List Nat := [200, 201]

theorem Error.status_not_done (error : Error) : error.status ∉ doneStatuses := by
  have violated (code : String) : (Error.violation code).1 ∉ doneStatuses := by
    unfold Error.violation
    repeat' split
    all_goals decide
  cases error with
  | constraintViolation code text => exact violated code
  | database cause =>
      cases cause with
      | rowNotFound => decide
      | poolTimedOut => decide
      | _ =>
          change 500 ∉ doneStatuses
          decide
  | config cause => change 500 ∉ doneStatuses; decide
  | unknownTable name => change 404 ∉ doneStatuses; decide
  | tenantRequired table => change 403 ∉ doneStatuses; decide
  | notFound what => change 404 ∉ doneStatuses; decide
  | _ => change 400 ∉ doneStatuses; decide

theorem Http.Request.status_of_jsonBody {request : Request} {status : Nat}
    (refused : request.jsonBody = .error status) : status ∉ doneStatuses := by
  unfold Request.jsonBody at refused
  dsimp only at refused
  split at refused
  · cases refused
    decide
  · split at refused
    · cases refused
      decide
    · cases read : Json.readFirst request.body with
      | ok value =>
          rw [read] at refused
          exact absurd refused nofun
      | error fault =>
          rw [read] at refused
          cases refused
          cases fault <;> decide

namespace Gateway

variable {catalog : Catalog} {request : Request} {kind : ChangeKind} {response : Response}

theorem status_of_askWithBody {asked : Json → Action}
    (answers : ∀ body, asked body = .answer response → response.status ∉ doneStatuses)
    (same : askWithBody request asked = .answer response) : response.status ∉ doneStatuses := by
  unfold askWithBody at same
  split at same
  · next status refused =>
      cases same
      exact Http.Request.status_of_jsonBody refused
  · exact answers _ same

theorem status_of_askVerb {table : String} {verb : Verb}
    (asked : askVerb scope table request verb = .answer response) :
    response.status ∉ doneStatuses := by
  cases verb with
  | select => exact absurd asked nofun
  | insert =>
      refine status_of_askWithBody (fun body refused => ?_) asked
      split at refused
      · next error bad =>
          cases refused
          exact error.status_not_done
      · exact absurd refused nofun
  | update =>
      refine status_of_askWithBody (fun body refused => ?_) asked
      split at refused
      · next error bad =>
          cases refused
          exact error.status_not_done
      · exact absurd refused nofun
  | delete => exact absurd asked nofun

/-- A request for a write that is answered without a write is not answered as done. -/
theorem status_of_ask (method : ChangeKind.ofMethod? request.method = some kind)
    (asked : ask scope request = .answer response) : response.status ∉ doneStatuses := by
  have other : ¬ (request.method = "GET" ∨ request.method = "HEAD") := by
    rintro (same | same)
    · exact absurd (same ▸ method) nofun
    · exact absurd (same ▸ method) nofun
  have fixed {action : Action} (same : askFixed request action = .answer response) :
      response.status ∉ doneStatuses := by
    rw [askFixed, if_neg other] at same
    cases same
    decide
  have limited {action : Action} (same : askWithinLimit request action = .answer response)
      (inner : action = .answer response → response.status ∉ doneStatuses) :
      response.status ∉ doneStatuses := by
    unfold askWithinLimit at same
    split at same
    · cases same
      decide
    · exact inner same
  unfold ask at asked
  split at asked
  · refine limited asked fun same => ?_
    cases same
    decide
  · exact fixed asked
  · exact fixed asked
  · exact fixed asked
  · refine limited asked fun rows => ?_
    unfold askRows at rows
    split at rows
    · cases rows
      decide
    · split at rows
      · cases rows
        decide
      · exact status_of_askVerb rows

/-! ### Requests and runs -/

/-- The write statement of a request, of the kind that its method names and on the table of its
path, is the first that is executed, and its reply gives rows. -/
structure Wrote (request : Request) (reply : Reply) (served : Served) (kind : ChangeKind)
    (table : String) (rows : List Json) : Prop where
  method : ChangeKind.ofMethod? request.method = some kind
  path : tableOf? request = some table
  executed : ∃ statement, served.executed.head? = some (.rows statement) ∧
    statement.kind? = some kind
  returned : reply.answer = .ok rows

/-- What a request publishes whose first statement takes the given reply. -/
structure Publishes (request : Request) (reply : Reply) (served : Served) : Prop where
  /-- Nothing is published, or one event for each row of the write's reply, as it is and in this
  order. -/
  exact : served.events = [] ∨ ∃ kind table rows, Wrote request reply served kind table rows ∧
    served.events = ChangeEvent.ofRows kind table rows
  /-- A write that is answered as done has published its rows. -/
  done : (ChangeKind.ofMethod? request.method).isSome → served.response.status ∈ doneStatuses →
    ∃ kind table rows, Wrote request reply served kind table rows ∧
      served.events = ChangeEvent.ofRows kind table rows
  /-- A request that asks for no write publishes nothing. -/
  read : ChangeKind.ofMethod? request.method = none → served.events = []
  /-- Nothing is published where no write statement is executed. -/
  unwritten : (∀ statement, .rows statement ∈ served.executed → statement.kind? = none) →
    served.events = []
  /-- Nothing is published where the write statement fails. -/
  failed : ∀ error, reply.answer = .error error → served.events = []

/-- What is published, and whether it has to be, settles the rest. -/
theorem Publishes.of_exact {reply : Reply} {served : Served}
    (exact : served.events = [] ∨ ∃ kind table rows, Wrote request reply served kind table rows ∧
      served.events = ChangeEvent.ofRows kind table rows)
    (done : (ChangeKind.ofMethod? request.method).isSome → served.response.status ∈ doneStatuses →
      ∃ kind table rows, Wrote request reply served kind table rows ∧
        served.events = ChangeEvent.ofRows kind table rows) :
    Publishes request reply served := by
  refine ⟨exact, done, fun unnamed => ?_, fun unwritten => ?_, fun error failed => ?_⟩
  · rcases exact with silent | ⟨kind, table, rows, wrote, -⟩
    · exact silent
    · exact absurd (unnamed.symm.trans wrote.method) nofun
  · rcases exact with silent | ⟨kind, table, rows, wrote, -⟩
    · exact silent
    · obtain ⟨statement, first, named⟩ := wrote.executed
      exact absurd ((unwritten statement (List.mem_of_mem_head? first)).symm.trans named) nofun
  · rcases exact with silent | ⟨kind, table, rows, wrote, -⟩
    · exact silent
    · exact absurd (failed.symm.trans wrote.returned) nofun

theorem serve_publishes (catalog : Catalog) (request : Request) (store : Store) :
    Publishes request store.nextReply (serve catalog request store) := by
  cases asked : ask ⟨catalog, request.tenant⟩ request with
  | answer response =>
      have served : serveWhole catalog request store = plain store response :=
        serveWhole_of_answer asked
      refine .of_exact (.inl (by rw [serve_events, served]; rfl)) fun method status => ?_
      obtain ⟨kind, method⟩ := Option.isSome_iff_exists.mp method
      have named : request.method ≠ "HEAD" := fun same => absurd (same ▸ method) nofun
      rw [serve_response named, served] at status
      exact absurd status (status_of_ask method asked)
  | ready =>
      refine .of_exact (.inl (by rw [serve_events, serveWhole_of_ready asked]; rfl))
        fun method => ?_
      obtain ⟨kind, method⟩ := Option.isSome_iff_exists.mp method
      rcases method_of_ready asked with same | same <;> exact absurd (same ▸ method) nofun
  | read table =>
      have silent : (serve catalog request store).events = [] := by
        rw [serve_events, serveWhole_of_read asked]
        unfold answerRead
        split <;> rfl
      refine .of_exact (.inl silent) fun method => ?_
      rw [ask_eq_read asked] at method
      exact absurd method nofun
  | write order =>
      obtain ⟨method, path, prepares⟩ := ask_eq_write asked
      have named : request.method ≠ "HEAD" := fun same => absurd (same ▸ method) nofun
      have served : serveWhole catalog request store = _ := serveWhole_of_write asked
      have executed : (serve catalog request store).executed = _ := executed_of_write asked
      cases result : (Service.runWrite ⟨catalog, request.tenant⟩ order.prepared store).result with
      | error error =>
          refine .of_exact (.inl ?_) fun _ status => ?_
          · rw [serve_events, served, answerWrite, result]
          · rw [serve_response named, served, answerWrite, result] at status
            exact absurd status error.status_not_done
      | ok outcome =>
          obtain ⟨first, returned⟩ := Service.returned_of_runWrite prepares result
          have published : ∃ kind table rows,
              Wrote request store.nextReply (serve catalog request store) kind table rows ∧
                (serve catalog request store).events = ChangeEvent.ofRows kind table rows := by
            refine ⟨_, _, _, ⟨method, path, executed ▸ first, returned⟩, ?_⟩
            rw [serve_events, served, answerWrite, result]
          exact .of_exact (.inr published) fun _ _ => published

/-- **No event but those of rows that were written.**  In every run, whatever the store replies, a
request publishes nothing, or one event for each row that its own write has returned, as
`Publishes` says. -/
theorem serveAll_publishes (catalog : Catalog) (requests : List Request) (store : Store) {i : Nat}
    {request : Request} {served : Served} (asked : requests[i]? = some request)
    (answered : (serveAll catalog requests store)[i]? = some served) :
    Publishes request (store.replyAt (executedBefore catalog requests store i).length) served := by
  rw [getElem?_serveAll, asked] at answered
  obtain rfl := Option.some.inj answered
  rw [← Store.nextReply_consume]
  exact serve_publishes catalog request _

/-- A read, and an insert that asks for a relation. -/
def guildRequests : List Request :=
  [⟨"GET", "/rest/guild", [], ""⟩,
    ⟨"POST", "/rest/guild?select=*,chief:guild(name)", [("Content-Type", "application/json")],
      "\x7b\"name\":\"Ada\"\x7d"⟩]

/-- A catalog of one table, which refers to itself. -/
def guildCatalog : Catalog := .ofTable ⟨⟨"guild", by decide⟩, false⟩

/-- A store that has no row yet, inserts one and reads it again. -/
def guildStore : Store :=
  { replies := [{}, { rows := ["\x7b\"id\":1\x7d"] },
      { rows := ["\x7b\"chief\":null,\"id\":1\x7d"] }] }

/-- The inserted row is published as it was returned, and answered with its relation. -/
theorem serveAll_publishes_guild :
    ∃ request served, guildRequests[1]? = some request ∧
      (serveAll guildCatalog guildRequests guildStore)[1]? = some served ∧
      served.response.status = 201 ∧
      served.response.body = "\x7b\"data\":\x7b\"chief\":null,\"id\":1\x7d,\"error\":null\x7d" ∧
      served.events.map (fun event => (event.kind, event.table, event.record.text)) =
        [(.insert, "guild", "\x7b\"id\":1\x7d")] ∧
      Publishes request (guildStore.replyAt 1) served := by
  have answered := getElem?_serveAll guildCatalog guildRequests guildStore 1
  have before : (executedBefore guildCatalog guildRequests guildStore 1).length = 1 := by
    decide +kernel
  have publishes := serveAll_publishes guildCatalog guildRequests guildStore rfl answered
  rw [before] at publishes
  rw [before] at answered
  exact ⟨_, _, rfl, answered, by decide +kernel, by decide +kernel, by decide +kernel, publishes⟩

end Gateway

end TableGate

import TableGate.Proofs.Gateway.Action
import TableGate.Proofs.Http.Envelope

/-!
# Validation

A request is invalid for what it asks, whatever the store holds.  Its fault is found before any
statement is executed, with one exception: the relations of a written row are resolved only when the
row is read again.  So a request is refused after it has written exactly where its write returned
rows with keys and a relation's target cannot be used (`serve_rejects_written_iff`).
-/

namespace TableGate

open Http (Request Response Envelope)

/-- The codes of invalid requests. -/
def validationCodes : List String :=
  ["invalid_identifier", "unknown_table", "tenant_required", "empty_update_set", "missing_filter",
    "invalid_select", "bad_request"]

/-- A response that refuses a request as invalid. -/
def Http.Response.Rejects (response : Response) : Prop :=
  ∃ code ∈ validationCodes, response.Carries code

theorem Http.Response.rejects_ofError {error : Error} :
    (Response.ofError error).Rejects ↔ error.code ∈ validationCodes := by
  have plain : (validationCodes.all fun code =>
      code.toList.all fun c => decide (Json.escape c = [c])) = true := by decide
  have bare (code : String) (member : code ∈ validationCodes) : Json.IsBare code :=
    Json.isBare_of_all (List.all_eq_true.mp plain code member)
  constructor
  · rintro ⟨code, member, carries⟩
    rw [← Http.code_eq_of_carries (bare code member) carries]
    exact member
  · intro member
    exact ⟨error.code, member, Http.carries_ofError error⟩

/-- What the store answers never makes a request invalid. -/
theorem Reply.code_of_answer {reply : Reply} {error : Error}
    (failed : reply.answer = .error error) : error.code ∉ validationCodes := by
  have violated (code : String) : (Error.violation code).2 ∉ validationCodes := by
    unfold Error.violation
    repeat' split
    all_goals decide
  have stored (cause : StoreError) : (Error.database cause).code ∉ validationCodes := by
    cases cause with
    | rowNotFound => decide
    | poolTimedOut => decide
    | _ =>
        change "database_error" ∉ validationCodes
        decide
  unfold Reply.answer at failed
  split at failed
  · cases failed
    exact stored _
  · unfold Reply.completion at failed
    split at failed
    · cases failed
      unfold Error.ofStore
      split
      · split
        · exact violated _
        · exact stored _
      · exact stored _
    · exact absurd failed nofun

/-! ### Writes -/

/-- A write has returned rows that are to be read again, and only then a relation turns out to be
refused. -/
inductive Write.RefusedLate (write : Write) (scope : Scope) (store : Store) : Prop
  | intro {projection : Projection} {relation : Relation} {returned : List Json}
      {keys : List String} (shown : write.projection = some projection)
      (opened : store.isClosed = false) (answered : store.nextReply.answer = .ok returned)
      (keyed : Rehydrate.keys? projection returned = some keys)
      (member : relation ∈ projection.relations) (refused : Compile.IsRefused scope relation)

variable {scope : Scope} {store : Store}

/-- An exchange that ends with the error of an invalid request. -/
def Exchange.Rejects {α : Type} (exchange : Exchange α) : Prop :=
  ∃ error, exchange.result = .error error ∧ error.code ∈ validationCodes

/-- Reading written rows again is rejected exactly where they have keys and a relation is
refused. -/
theorem rejects_rows_iff {table : Table} {projection : Projection} {written : List Json}
    {tenant : Option TenantPredicate} (enforced : scope.enforce table = .ok tenant) :
    (Rehydrate.rows scope table projection written store).Rejects ↔
      ∃ keys, Rehydrate.keys? projection written = some keys ∧
        ∃ relation ∈ projection.relations, Compile.IsRefused scope relation := by
  constructor
  · rintro ⟨error, failed, code⟩
    cases found : Rehydrate.keys? projection written with
    | none =>
        rw [Rehydrate.rows_of_kept found] at failed
        exact absurd failed nofun
    | some keys =>
        cases compiled : Compile.selectByKeys scope table projection (keys.map Datum.text) with
        | error cause => exact ⟨keys, rfl, (Compile.selectByKeys_eq_error enforced compiled).1⟩
        | ok select =>
            rw [Rehydrate.rows_of_compiled found compiled] at failed
            exact absurd code (Reply.code_of_answer (map_eq_error.mp failed))
  · rintro ⟨keys, found, relation, member, refused⟩
    cases compiled : Compile.selectByKeys scope table projection (keys.map Datum.text) with
    | ok select => exact absurd compiled (Compile.selectByKeys_ne_ok member refused select)
    | error cause =>
        have code := (Compile.selectByKeys_eq_error enforced compiled).2
        refine ⟨cause, by rw [Rehydrate.rows_of_refused found compiled]; rfl, ?_⟩
        have among : ∀ code ∈ ["unknown_table", "tenant_required"], code ∈ validationCodes := by
          decide
        exact among _ code

/-- A write is rejected after it has been executed exactly where it is refused late. -/
theorem Write.rejects_iff {write : Write} {tenant : Option TenantPredicate}
    (enforced : scope.enforce write.table = .ok tenant) :
    (write.run scope store).Rejects ∧ (write.run scope store).executed ≠ [] ↔
      write.RefusedLate scope store := by
  cases access : store.isClosed with
  | true =>
      rw [Write.run_of_closed access]
      constructor
      · rintro ⟨-, executed⟩
        exact absurd rfl executed
      · rintro ⟨-, opened, -, -, -, -⟩
        exact absurd (access.symm.trans opened) nofun
  | false =>
      rw [Write.run_of_open access]
      cases answered : store.nextReply.answer with
      | error error =>
          constructor
          · rintro ⟨⟨cause, failed, code⟩, -⟩
            cases failed
            exact absurd code (Reply.code_of_answer answered)
          · rintro ⟨-, -, rows, -, -, -⟩
            exact absurd (answered.symm.trans rows) nofun
      | ok returned =>
          cases shown : write.projection with
          | none =>
              constructor
              · rintro ⟨⟨cause, failed, -⟩, -⟩
                simp only [Write.afterwards, shown] at failed
                exact absurd failed nofun
              · rintro ⟨projected, -, -, -, -, -⟩
                exact absurd (shown.symm.trans projected) nofun
          | some projection =>
              have reread : write.afterwards scope returned store.afterReply =
                  Rehydrate.rows scope write.table projection returned store.afterReply := by
                rw [Write.afterwards, shown]
              simp only [reread]
              constructor
              · rintro ⟨⟨cause, failed, code⟩, -⟩
                obtain ⟨keys, keyed, relation, member, refused⟩ :=
                  (rejects_rows_iff enforced).mp ⟨cause, map_eq_error.mp failed, code⟩
                exact ⟨shown, access, answered, keyed, member, refused⟩
              · rintro ⟨projected, -, rows, keyed, member, refused⟩
                obtain rfl := Option.some.inj (shown.symm.trans projected)
                obtain rfl := Except.ok.inj (answered.symm.trans rows)
                obtain ⟨cause, failed, code⟩ :=
                  (rejects_rows_iff enforced).mpr ⟨_, keyed, _, member, refused⟩
                exact ⟨⟨cause, map_eq_error.mpr failed, code⟩, List.cons_ne_nil _ _⟩

theorem Service.rejects_runWrite_iff {name : String} {query : Query} {kind : ChangeKind}
    {prepared : Except Error Write} (prepares : Service.Prepares scope name query kind prepared) :
    (Service.runWrite scope prepared store).Rejects ∧
        (Service.runWrite scope prepared store).executed ≠ [] ↔
      ∃ write, prepared = .ok write ∧ write.RefusedLate scope store := by
  cases prepared with
  | error error =>
      constructor
      · rintro ⟨-, executed⟩
        exact absurd rfl executed
      · rintro ⟨write, done, -⟩
        exact absurd done nofun
  | ok write =>
      obtain ⟨tenant, enforced⟩ := (prepares.isPrepared rfl).enforced
      constructor
      · intro refused
        exact ⟨write, rfl, (Write.rejects_iff enforced).mp refused⟩
      · rintro ⟨other, done, refused⟩
        obtain rfl := Except.ok.inj done
        exact (Write.rejects_iff enforced).mpr refused

/-! ### Reads -/

/-- A read that is rejected has not been executed. -/
theorem executed_of_rejects_select {name : String} {query : Query}
    (rejects : (Service.select scope name query store).Rejects) :
    (Service.select scope name query store).executed = [] := by
  obtain ⟨error, failed, code⟩ := rejects
  unfold Service.select at failed ⊢
  cases prepared : Service.prepareSelect scope name query with
  | error cause => rfl
  | ok statement =>
      simp only [prepared] at failed ⊢
      cases access : store.isClosed with
      | true => rw [Store.acquire_of_closed access]; rfl
      | false =>
          rw [Store.acquire_of_open access, Store.execute_eq] at failed
          exact absurd code (Reply.code_of_answer failed)

namespace Gateway

/-- An exchange that is answered with its rows or with its error is rejected for its error only. -/
theorem rejects_answer_iff {α : Type} {exchange : Exchange α} {response : Response}
    (failed : ∀ error, exchange.result = .error error → response = .ofError error)
    (answered : ∀ found, exchange.result = .ok found →
      ∃ rows single status, response = (Envelope.ofRows rows single).respond status) :
    response.Rejects ↔ exchange.Rejects := by
  unfold Exchange.Rejects
  cases result : exchange.result with
  | error error =>
      rw [failed error result, Response.rejects_ofError]
      constructor
      · intro member
        exact ⟨error, rfl, member⟩
      · rintro ⟨_, same, member⟩
        cases same
        exact member
  | ok found =>
      obtain ⟨rows, single, status, rfl⟩ := answered found result
      constructor
      · rintro ⟨code, -, carries⟩
        cases single <;> exact absurd carries Http.not_carries_of_data
      · rintro ⟨error, same, -⟩
        exact absurd same nofun

/-- A read is rejected exactly where its exchange is. -/
theorem rejects_answerRead_iff {exchange : Exchange (List Json)} {single : Bool} :
    (answerRead exchange single).response.Rejects ↔ exchange.Rejects := by
  apply rejects_answer_iff
  · intro error failed
    rw [answerRead, failed]
  · intro rows found
    rw [answerRead, found]
    exact ⟨rows, single, 200, rfl⟩

/-- A write is rejected exactly where its exchange is. -/
theorem rejects_answerWrite_iff {exchange : Exchange WriteOutcome} {status : Nat} {single : Bool}
    {kind : ChangeKind} {table : String} :
    (answerWrite exchange status single kind table).response.Rejects ↔ exchange.Rejects := by
  apply rejects_answer_iff
  · intro error failed
    rw [answerWrite, failed]
  · intro outcome found
    rw [answerWrite, found]
    exact ⟨outcome.rows, single, status, rfl⟩

/-- The state of the store is no error. -/
theorem not_rejects_ready {catalog : Catalog} {store : Store} :
    ¬ (ready catalog store).response.Rejects := by
  have told (status : Nat) (state database : String) :
      ¬ (respondValue status [("status", .string state), ("database", .string database),
        ("tables", .ofInt catalog.size)]).Rejects := by
    rintro ⟨code, -, message, same⟩
    have sorted : Json.ofMembers [("status", .string state), ("database", .string database),
        ("tables", .ofInt catalog.size)] = .object [("database", .string database),
          ("status", .string state), ("tables", .ofInt catalog.size)] := by
      have first : Json.isBefore "database" "tables" = true := by decide
      have second : Json.isBefore "status" "database" = false := by decide
      have third : Json.isBefore "status" "tables" = true := by decide
      simp [Json.ofMembers, Json.sortMembers, Json.insertMember, first, second, third]
    have named : Json.quote "database" = "\"database\"" := Json.quote_of_all (by decide)
    change (Json.ofMembers _).text = _ at same
    rw [sorted, Json.text_object, Envelope.text_value] at same
    simp only [List.map_cons, Json.memberText, named, String.intercalate_cons_cons] at same
    -- the first name is `database` on one side and `data` on the other
    have letters := congrArg (fun written => written.toList.take 7) same
    simp at letters
  unfold ready
  dsimp only
  split <;> exact told _ _ _

variable {catalog : Catalog} {request : Request} {store : Store}

/-- The response to a `HEAD` request has no body, so it tells no code. -/
theorem not_rejects_of_head (method : request.method = "HEAD") :
    ¬ (serve catalog request store).response.Rejects := by
  rintro ⟨code, -, message, same⟩
  unfold serve at same
  rw [if_pos method] at same
  change "" = _ at same
  rw [Envelope.text_value] at same
  exact absurd (congrArg String.toList same) (by simp)

/-- A request is rejected as invalid after a statement has been executed exactly where it asks for a
write that is refused late. -/
theorem serve_rejects_written_iff (catalog : Catalog) (request : Request) (store : Store) :
    (serve catalog request store).response.Rejects ∧
        (serve catalog request store).executed ≠ [] ↔
      ∃ order write, ask ⟨catalog, request.tenant⟩ request = .write order ∧
        order.prepared = .ok write ∧ write.RefusedLate ⟨catalog, request.tenant⟩ store := by
  by_cases headless : request.method = "HEAD"
  · constructor
    · rintro ⟨rejects, -⟩
      exact absurd rejects (not_rejects_of_head headless)
    · rintro ⟨order, write, asked, -, -⟩
      have kind := (ask_eq_write asked).1
      rw [headless] at kind
      exact absurd kind nofun
  · rw [serve_response headless, serve_executed]
    cases asked : ask ⟨catalog, request.tenant⟩ request with
    | answer response =>
        rw [serveWhole_of_answer asked]
        constructor
        · rintro ⟨-, executed⟩
          exact absurd rfl executed
        · rintro ⟨order, write, written, -, -⟩
          exact absurd written nofun
    | ready =>
        rw [serveWhole_of_ready asked]
        constructor
        · rintro ⟨rejects, -⟩
          exact absurd rejects not_rejects_ready
        · rintro ⟨order, write, written, -, -⟩
          exact absurd written nofun
    | read table =>
        rw [serveWhole_of_read asked, rejects_answerRead_iff, executed_answerRead]
        constructor
        · rintro ⟨rejects, executed⟩
          exact absurd (executed_of_rejects_select rejects) executed
        · rintro ⟨order, write, written, -, -⟩
          exact absurd written nofun
    | write order =>
        rw [serveWhole_of_write asked, rejects_answerWrite_iff, executed_answerWrite]
        rw [Service.rejects_runWrite_iff (ask_eq_write asked).2.2]
        constructor
        · rintro ⟨write, done, refused⟩
          exact ⟨order, write, rfl, done, refused⟩
        · rintro ⟨other, write, same, done, refused⟩
          cases same
          exact ⟨write, done, refused⟩

/-- A catalog of one table, which all tenants share. -/
def userCatalog : Catalog := .ofTable ⟨⟨"users", by decide⟩, false⟩

/-- An insert that asks for a relation to a table that is not served. -/
def strayRequest : Request :=
  ⟨"POST", "/rest/users?select=*,boss:bosses(name)", [("Content-Type", "application/json")],
    "\x7b\"name\":\"Ada\"\x7d"⟩

/-- A store that inserts one row. -/
def insertingStore : Store := { replies := [{ rows := ["\x7b\"id\":1\x7d"] }] }

theorem serve_rejects_written_users :
    (serve userCatalog strayRequest insertingStore).response.Rejects ∧
      (serve userCatalog strayRequest insertingStore).executed ≠ [] ∧
      ∃ order write, ask ⟨userCatalog, strayRequest.tenant⟩ strayRequest = .write order ∧
        order.prepared = .ok write ∧
        write.RefusedLate ⟨userCatalog, strayRequest.tenant⟩ insertingStore := by
  have body : (serve userCatalog strayRequest insertingStore).response.body =
      (Response.ofError (.unknownTable "bosses")).body := by
    decide +kernel
  have rejects : (serve userCatalog strayRequest insertingStore).response.Rejects :=
    ⟨"unknown_table", by decide, (Error.unknownTable "bosses").message, body⟩
  have texts : (serve userCatalog strayRequest insertingStore).executed.map Command.text =
      ["WITH r AS (INSERT INTO \"users\" (\"name\") VALUES ($1) RETURNING *) " ++
        "SELECT row_to_json(r) AS row FROM r"] := by
    decide +kernel
  have executed : (serve userCatalog strayRequest insertingStore).executed ≠ [] := by
    intro none
    rw [none] at texts
    exact absurd texts nofun
  exact ⟨rejects, executed,
    (serve_rejects_written_iff userCatalog strayRequest insertingStore).mp ⟨rejects, executed⟩⟩

end Gateway

end TableGate

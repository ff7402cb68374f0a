import TableGate.Proofs.Gateway.Action
import TableGate.Proofs.Statement.Layout

/-!
# The statements of a request

A read or a delete executes its own statement at most.  An insert or an update that could be
compiled executes it first, and then at most one more: the select of the returned rows by their
keys, exactly where the rows are read again (`Rereads`).  The main theorem, `serve_trace`, says so
for every request and every script of replies.
-/

namespace TableGate

open Http (Request)
open Sql (Condition Predicate Fragment)

/-! ### By-key selects -/

/-- The keys come last among the values of a by-key select. -/
theorem Compile.keys_suffix_values {scope : Scope} {table : Table} {projection : Projection}
    {keys : List Datum} {select : Sql.Select}
    (compiled : selectByKeys scope table projection keys = .ok select) :
    keys <:+ (Sql.Statement.select select).values := by
  obtain ⟨tenant, selection, -, -, rfl⟩ := selectByKeys_eq_ok compiled
  have conditions : keys <:+ (Sql.conditions (some selection.source) tenant
      [.single (.within ⟨some table.name, .id⟩ keys)]).flatMap Condition.values := by
    cases tenant with
    | none =>
        change keys <:+ Condition.values _ ++ []
        rw [Condition.values_within]
        exact ⟨[], (List.append_nil keys).symm⟩
    | some predicate =>
        change keys <:+ Condition.values _ ++ (Condition.values _ ++ [])
        rw [Condition.values_within, List.append_nil]
        exact List.suffix_append _ keys
  change keys <:+ (Sql.Select.tokens _).values
  rw [Sql.Select.values_tokens]
  change keys <:+ _ ++ _ ++ []
  rw [List.append_nil]
  exact conditions.trans (List.suffix_append _ _)

/-! ### Writes -/

/-- A select reads again what a write has returned: the write is answered by a projection with
relations, it succeeded with at least one row, and each of its rows has a key. -/
inductive Rereads (scope : Scope) (write : Write) (reply : Reply) :
    List String → Sql.Select → Prop
  | intro {projection : Projection} {returned : List Json} {keys : List String}
      {select : Sql.Select} (shown : write.projection = some projection)
      (related : projection.relations ≠ []) (answered : reply.answer = .ok returned)
      (present : returned ≠ []) (keyed : returned.map Json.rowKey? = keys.map some)
      (compiled : Compile.selectByKeys scope write.table projection (keys.map Datum.text) =
        .ok select) : Rereads scope write reply keys select

/-- The statements that a write executes: its own first, and after it one more at most, which is
the select of the returned rows by the texts of their keys where they are read again. -/
structure WriteTrace (scope : Scope) (write : Write) (reply : Reply) (executed : List Command) :
    Prop where
  first : executed[0]? = some (.rows write.statement)
  second : ∀ command, executed[1]? = some command ↔
    ∃ keys select, Rereads scope write reply keys select ∧ command = .rows (.select select)
  length : executed.length ≤ 2
  keys : ∀ keys select, Rereads scope write reply keys select →
    keys.map Datum.text <:+ (Sql.Statement.select select).values

namespace Write

variable {scope : Scope} {write : Write} {store : Store}

/-- Rows are read again by the keys that rehydration takes. -/
theorem rereads_iff {reply : Reply} {keys : List String} {select : Sql.Select} :
    Rereads scope write reply keys select ↔
      ∃ projection returned, write.projection = some projection ∧ reply.answer = .ok returned ∧
        Rehydrate.keys? projection returned = some keys ∧
        Compile.selectByKeys scope write.table projection (keys.map Datum.text) = .ok select := by
  constructor
  · rintro ⟨shown, related, answered, present, keyed, compiled⟩
    refine ⟨_, _, shown, answered, ?_, compiled⟩
    rw [Rehydrate.keys?, if_neg]
    · exact mapM_eq_some_iff.mpr keyed
    · exact not_or.mpr ⟨by simpa [Projection.hasRelations] using related, present⟩
  · rintro ⟨projection, returned, shown, answered, found, compiled⟩
    obtain ⟨related, present, read⟩ := Rehydrate.keys?_eq_some found
    have relations : projection.relations ≠ [] := by
      simpa [Projection.hasRelations] using related
    exact ⟨shown, relations, answered, present, mapM_eq_some_iff.mp read, compiled⟩

/-- There is at most one select that reads the rows of a write again. -/
theorem rereads_unique {reply : Reply} {keys others : List String} {select other : Sql.Select}
    (first : Rereads scope write reply keys select)
    (second : Rereads scope write reply others other) : other = select := by
  obtain ⟨projection, returned, shown, answered, found, compiled⟩ := rereads_iff.mp first
  obtain ⟨projected, rows, same, again, read, made⟩ := rereads_iff.mp second
  obtain rfl := Option.some.inj (shown.symm.trans same)
  obtain rfl := Except.ok.inj (answered.symm.trans again)
  obtain rfl := Option.some.inj (found.symm.trans read)
  exact Except.ok.inj (made.symm.trans compiled)

/-- After a write that has returned rows, the by-key select is executed where it reads them again,
and nothing otherwise. -/
theorem executed_afterwards {returned : List Json}
    (answered : store.nextReply.answer = .ok returned) :
    (∃ keys select, Rereads scope write store.nextReply keys select ∧
        (write.afterwards scope returned store.afterReply).executed = [.rows (.select select)]) ∨
      (∀ keys select, ¬ Rereads scope write store.nextReply keys select) ∧
        (write.afterwards scope returned store.afterReply).executed = [] := by
  unfold afterwards
  cases shown : write.projection with
  | none =>
      refine .inr ⟨fun keys select again => ?_, rfl⟩
      obtain ⟨projection, -, same, -⟩ := rereads_iff.mp again
      exact absurd (shown.symm.trans same) nofun
  | some projection =>
      have same {keys : List String} {select : Sql.Select}
          (again : Rereads scope write store.nextReply keys select) :
          Rehydrate.keys? projection returned = some keys ∧
            Compile.selectByKeys scope write.table projection (keys.map Datum.text) =
              .ok select := by
        obtain ⟨other, rows, projected, read, found, compiled⟩ := rereads_iff.mp again
        obtain rfl := Option.some.inj (shown.symm.trans projected)
        obtain rfl := Except.ok.inj (answered.symm.trans read)
        exact ⟨found, compiled⟩
      cases found : Rehydrate.keys? projection returned with
      | none =>
          refine .inr ⟨fun keys select again => ?_, by simp only [Rehydrate.rows_of_kept found]⟩
          exact absurd (found.symm.trans (same again).1) nofun
      | some keys =>
          cases compiled : Compile.selectByKeys scope write.table projection
              (keys.map Datum.text) with
          | error error =>
              refine .inr ⟨fun others select again => ?_, by
                simp only [Rehydrate.rows_of_refused found compiled, Exchange.fail]⟩
              obtain ⟨read, made⟩ := same again
              obtain rfl := Option.some.inj (found.symm.trans read)
              exact absurd (compiled.symm.trans made) nofun
          | ok select =>
              refine .inl ⟨keys, select, ?_, by
                simp only [Rehydrate.rows_of_compiled found compiled]⟩
              exact rereads_iff.mpr ⟨projection, returned, shown, answered, found, compiled⟩

/-- What a write executes on an open store. -/
theorem run_trace (opened : store.isClosed = false) :
    WriteTrace scope write store.nextReply (write.run scope store).executed := by
  have keys {keys : List String} {select : Sql.Select}
      (again : Rereads scope write store.nextReply keys select) :
      keys.map Datum.text <:+ (Sql.Statement.select select).values := by
    obtain ⟨projection, returned, -, -, -, compiled⟩ := rereads_iff.mp again
    exact Compile.keys_suffix_values compiled
  have alone (never : ∀ keys select, ¬ Rereads scope write store.nextReply keys select) :
      WriteTrace scope write store.nextReply [.rows write.statement] := by
    refine ⟨rfl, fun command => ⟨nofun, ?_⟩, Nat.le_succ 1, fun _ _ => keys⟩
    rintro ⟨others, select, again, -⟩
    exact absurd again (never others select)
  rw [run_of_open opened]
  cases answered : store.nextReply.answer with
  | error error =>
      apply alone
      intro others select again
      obtain ⟨projection, returned, -, read, -⟩ := rereads_iff.mp again
      exact absurd (answered.symm.trans read) nofun
  | ok returned =>
      rcases @executed_afterwards scope write store returned answered with
        ⟨found, select, again, executed⟩ | ⟨never, executed⟩
      · simp only [executed]
        refine ⟨rfl, fun command => ⟨?_, ?_⟩, Nat.le_refl 2, fun _ _ => keys⟩
        · intro second
          exact ⟨found, select, again, (Option.some.inj second).symm⟩
        · rintro ⟨others, other, another, rfl⟩
          rw [rereads_unique again another]
          rfl
      · simp only [executed]
        exact alone never

end Write

/-! ### Requests -/

namespace Gateway

/-- The statement that a body compiles to by the method of its request. -/
inductive BodyCompiles (scope : Scope) (table : Table) (request : Request) (body : Json) :
    Sql.Statement → Prop
  | insert {records : List Record} {single : Bool} {statement : Sql.Insert}
      (method : request.method = "POST") (read : recordsOf body = .ok (records, single))
      (compiled : Compile.insert scope table records = .ok statement) :
      BodyCompiles scope table request body (.insert statement)
  | update {patch : Record} {statement : Sql.Update} (method : request.method = "PATCH")
      (read : recordOf body = .ok patch)
      (compiled : Compile.update scope table patch request.query = .ok statement) :
      BodyCompiles scope table request body (.update statement)

/-- The insert or update that a request asks for, compiled on behalf of the scope from its path, its
query and its body. -/
structure Writes (scope : Scope) (request : Request) (write : Write) : Prop where
  fits : request.announcesTooMuch = false
  table : ∃ name, tableOf? request = some name ∧ scope.table name = .ok write.table
  projection : ∃ projection, Projection.parse request.query.select? = .ok projection ∧
    write.projection = some projection
  statement : ∃ body, request.jsonBody = .ok body ∧
    BodyCompiles scope write.table request body write.statement

variable {scope : Scope} {request : Request} {write : Write} {catalog : Catalog} {store : Store}

theorem ofPath?_of_tableOf? {name : String} (path : tableOf? request = some name) :
    ∃ encoded, Route.ofPath? request.path = some (.rows encoded) ∧
      tableName? encoded = some name := by
  unfold tableOf? at path
  split at path
  · next encoded route => exact ⟨encoded, route, path⟩
  · exact absurd path nofun

/-- A request that is not too long asks for what its verb does with the table of its path. -/
theorem ask_of_verb {name : String} {verb : Verb} (fits : request.announcesTooMuch = false)
    (path : tableOf? request = some name) (method : Verb.ofMethod? request.method = some verb) :
    ask scope request = askVerb scope name request verb := by
  obtain ⟨encoded, route, decoded⟩ := ofPath?_of_tableOf? path
  simp only [ask, route, askWithinLimit, fits, askRows, method, decoded, Bool.false_eq_true,
    ↓reduceIte]

/-- A compiled write is what its request asks for. -/
theorem ask_of_writes (writes : Writes scope request write) :
    ∃ order, ask scope request = .write order ∧ order.prepared = .ok write := by
  obtain ⟨statement, table, shown⟩ := write
  obtain ⟨fits, ⟨name, path, found⟩, ⟨projection, parsed, projected⟩, body, sent, compiles⟩ :=
    writes
  obtain rfl : shown = some projection := projected
  cases compiles with
  | @insert records single statement method read compiled =>
      have verb : Verb.ofMethod? request.method = some .insert := by
        rw [method]
        rfl
      refine ⟨⟨.insert, name, Service.prepareInsert scope name records request.query, 201,
        single || request.query.single⟩, ?_, ?_⟩
      · rw [ask_of_verb fits path verb, askVerb, askWithBody, sent]
        simp only [read]
      · exact Service.prepareInsert_eq_ok.mpr
          ⟨table, projection, statement, found, parsed, compiled, rfl⟩
  | @update patch statement method read compiled =>
      have verb : Verb.ofMethod? request.method = some .update := by
        rw [method]
        rfl
      refine ⟨⟨.update, name, Service.prepareUpdate scope name patch request.query, 200,
        request.query.single⟩, ?_, ?_⟩
      · rw [ask_of_verb fits path verb, askVerb, askWithBody, sent]
        simp only [read]
      · exact Service.prepareUpdate_eq_ok.mpr
          ⟨table, projection, statement, found, parsed, compiled, rfl⟩

theorem fits_of_ask {goal : Action} (asked : ask scope request = goal) (table : goal.OfTable) :
    request.announcesTooMuch = false := by
  obtain ⟨verb, name, -, path, -⟩ := ask_eq_verb asked table
  obtain ⟨encoded, route, -⟩ := ofPath?_of_tableOf? path
  cases tooMuch : request.announcesTooMuch with
  | false => rfl
  | true =>
      simp only [ask, route, askWithinLimit, tooMuch, ↓reduceIte] at asked
      subst asked
      exact table.elim

theorem method_of_verb {method : String} {verb : Verb}
    (named : Verb.ofMethod? method = some verb) :
    method ∈ (match verb with
      | .select => ["GET", "HEAD"]
      | .insert => ["POST"]
      | .update => ["PATCH"]
      | .delete => ["DELETE"]) := by
  unfold Verb.ofMethod? at named
  split at named <;> cases named <;> simp

/-- An insert or an update that a request asks for, once prepared, has been compiled from it. -/
theorem writes_of_ask {order : WriteOrder} (asked : ask scope request = .write order)
    (kept : order.kind ≠ .delete) (prepared : order.prepared = .ok write) :
    Writes scope request write := by
  obtain ⟨verb, name, named, path, written⟩ := ask_eq_verb asked trivial
  have fits := fits_of_ask asked trivial
  cases verb with
  | select => exact absurd written nofun
  | insert =>
      have method : request.method = "POST" := List.mem_singleton.mp (method_of_verb named)
      obtain ⟨body, sent, asks⟩ := askWithBody_eq written trivial
      split at asks
      · exact absurd asks nofun
      · next records single read =>
          cases asks
          obtain ⟨table, projection, statement, found, parsed, compiled, rfl⟩ :=
            Service.prepareInsert_eq_ok.mp prepared
          exact ⟨fits, ⟨name, path, found⟩, ⟨projection, parsed, rfl⟩, body, sent,
            .insert method read compiled⟩
  | update =>
      have method : request.method = "PATCH" := List.mem_singleton.mp (method_of_verb named)
      obtain ⟨body, sent, asks⟩ := askWithBody_eq written trivial
      split at asks
      · exact absurd asks nofun
      · next patch read =>
          cases asks
          obtain ⟨table, projection, statement, found, parsed, compiled, rfl⟩ :=
            Service.prepareUpdate_eq_ok.mp prepared
          exact ⟨fits, ⟨name, path, found⟩, ⟨projection, parsed, rfl⟩, body, sent,
            .update method read compiled⟩
  | delete =>
      cases written
      exact absurd rfl kept

theorem askWithBody_ne_ready {asked : Json → Action} (never : ∀ body, asked body ≠ .ready) :
    askWithBody request asked ≠ .ready := by
  unfold askWithBody
  split
  · exact nofun
  · exact never _

theorem askVerb_ne_ready {table : String} (verb : Verb) :
    askVerb scope table request verb ≠ .ready := by
  cases verb with
  | select => exact nofun
  | insert =>
      apply askWithBody_ne_ready
      intro body
      split <;> exact nofun
  | update =>
      apply askWithBody_ne_ready
      intro body
      split <;> exact nofun
  | delete => exact nofun

/-- Only a read of the fixed routes asks for the state of the store. -/
theorem method_of_ready (asked : ask scope request = .ready) :
    request.method = "GET" ∨ request.method = "HEAD" := by
  have fixed {action : Action} (same : askFixed request action = .ready) :
      request.method = "GET" ∨ request.method = "HEAD" := by
    unfold askFixed at same
    split at same
    · next method => exact method
    · exact absurd same nofun
  unfold ask at asked
  split at asked
  · unfold askWithinLimit at asked
    split at asked <;> exact absurd asked nofun
  · exact fixed asked
  · exact fixed asked
  · exact fixed asked
  · unfold askWithinLimit at asked
    split at asked
    · exact absurd asked nofun
    · unfold askRows at asked
      split at asked
      · exact absurd asked nofun
      · split at asked
        · exact absurd asked nofun
        · exact absurd asked (askVerb_ne_ready _)

/-- What a write that is asked for executes. -/
theorem executed_of_write {order : WriteOrder}
    (asked : ask ⟨catalog, request.tenant⟩ request = .write order) :
    (serve catalog request store).executed =
      (Service.runWrite ⟨catalog, request.tenant⟩ order.prepared store).executed := by
  rw [serve_executed, serveWhole_of_write asked, executed_answerWrite]

/-- A read executes its select at most. -/
theorem length_executed_select {name : String} {query : Query} :
    (Service.select scope name query store).executed.length ≤ 1 := by
  unfold Service.select
  cases Service.prepareSelect scope name query with
  | error error => exact Nat.zero_le 1
  | ok statement =>
      cases access : store.isClosed with
      | true =>
          simp only [Store.acquire_of_closed access]
          exact Nat.zero_le 1
      | false =>
          simp only [Store.acquire_of_open access, Store.execute_eq]
          exact Nat.le_refl 1

/-- A delete is not answered by a projection. -/
theorem projection_of_delete {order : WriteOrder} (asked : ask scope request = .write order)
    (method : request.method = "DELETE") (prepared : order.prepared = .ok write) :
    write.projection = none := by
  obtain ⟨kind, -, prepares⟩ := ask_eq_write asked
  have deleted : order.kind = .delete := by
    rw [method] at kind
    exact (Option.some.inj kind).symm
  have shows := (prepares.isPrepared prepared).shows
  rw [deleted] at shows
  cases shown : write.projection with
  | none => rfl
  | some projection =>
      rw [shown] at shows
      cases shows with
      | projected kept parsed => exact absurd rfl kept

/-- A read or a delete executes one statement at most. -/
theorem length_executed_le_one (opened : store.isClosed = false)
    (method : request.method ∈ ["GET", "HEAD", "DELETE"]) :
    (serve catalog request store).executed.length ≤ 1 := by
  cases asked : ask ⟨catalog, request.tenant⟩ request with
  | answer response =>
      rw [serve_executed, serveWhole_of_answer asked]
      exact Nat.zero_le 1
  | ready =>
      rw [serve_executed, serveWhole_of_ready asked]
      change (store.acquire Store.probe).executed.length ≤ 1
      rw [Store.acquire_of_open opened]
      unfold Store.probe Store.send
      split <;> exact Nat.le_refl 1
  | read table =>
      rw [serve_executed, serveWhole_of_read asked, executed_answerRead]
      exact length_executed_select
  | write order =>
      rw [executed_of_write asked]
      cases prepared : order.prepared with
      | error error => exact Nat.zero_le 1
      | ok write =>
          have deleted : request.method = "DELETE" := by
            simp only [List.mem_cons, List.not_mem_nil, or_false] at method
            have kind := (ask_eq_write asked).1
            rcases method with same | same | same
            · exact absurd (same ▸ kind) nofun
            · exact absurd (same ▸ kind) nofun
            · exact same
          have shown := projection_of_delete asked deleted prepared
          change (write.run _ store).executed.length ≤ 1
          rw [Write.run_of_open opened]
          cases store.nextReply.answer with
          | error error => exact Nat.le_refl 1
          | ok returned =>
              simp only [Write.afterwards, shown]
              exact Nat.le_refl 1

/-- **The statements of a request.**  On an open store, whatever its replies are, a request to read
or to delete executes one statement at most.  A request to insert or to update executes nothing if
it asks for no write that compiles, and otherwise that write and what follows from it. -/
theorem serve_trace (catalog : Catalog) (request : Request) {store : Store}
    (opened : store.isClosed = false) :
    (request.method ∈ ["GET", "HEAD", "DELETE"] →
        (serve catalog request store).executed.length ≤ 1) ∧
      (request.method ∈ ["POST", "PATCH"] →
        (∀ write, ¬ Writes ⟨catalog, request.tenant⟩ request write) ∧
            (serve catalog request store).executed = [] ∨
          ∃ write, Writes ⟨catalog, request.tenant⟩ request write ∧
            WriteTrace ⟨catalog, request.tenant⟩ write store.nextReply
              (serve catalog request store).executed) := by
  refine ⟨length_executed_le_one opened, fun method => ?_⟩
  by_cases asks : ∃ write, Writes ⟨catalog, request.tenant⟩ request write
  · obtain ⟨write, writes⟩ := asks
    obtain ⟨order, asked, prepared⟩ := ask_of_writes writes
    refine .inr ⟨write, writes, ?_⟩
    rw [executed_of_write asked, prepared]
    exact Write.run_trace opened
  · have never : ∀ write, ¬ Writes ⟨catalog, request.tenant⟩ request write :=
      not_exists.mp asks
    refine .inl ⟨never, ?_⟩
    obtain ⟨kind, named, kept⟩ : ∃ kind, ChangeKind.ofMethod? request.method = some kind ∧
        kind ≠ .delete := by
      simp only [List.mem_cons, List.not_mem_nil, or_false] at method
      rcases method with same | same
      · exact ⟨.insert, by rw [same]; rfl, nofun⟩
      · exact ⟨.update, by rw [same]; rfl, nofun⟩
    cases asked : ask ⟨catalog, request.tenant⟩ request with
    | answer response =>
        rw [serve_executed, serveWhole_of_answer asked]
        rfl
    | ready =>
        rcases method_of_ready asked with same | same
        · rw [same] at named
          exact absurd named nofun
        · rw [same] at named
          exact absurd named nofun
    | read table => exact absurd (named.symm.trans (ask_eq_read asked)) nofun
    | write order =>
        rw [executed_of_write asked]
        cases prepared : order.prepared with
        | error error => rfl
        | ok write =>
            obtain rfl := Option.some.inj (named.symm.trans (ask_eq_write asked).1)
            exact absurd (writes_of_ask asked kept prepared) (never write)

/-- A catalog of one table, which belongs to tenants and refers to itself. -/
def dutyCatalog : Catalog := .ofTable ⟨⟨"duties", by decide⟩, true⟩

/-- An insert of two rows that asks for a relation. -/
def dutyRequest : Request :=
  ⟨"POST", "/rest/duties?select=*,head:duties(name)",
    [("Content-Type", "application/json"), ("X-Tenant-Id", "north")],
    "[\x7b\"name\":\"a\"\x7d,\x7b\"name\":\"b\"\x7d]"⟩

/-- A store that inserts two rows, with a number and a text as keys. -/
def dutyStore : Store :=
  { replies := [{ rows := ["\x7b\"id\":7\x7d", "\x7b\"id\":\"x\"\x7d"] }] }

/-- The two rows are read again, after the values of the join and of the tenant. -/
theorem serve_trace_duties :
    ∃ write keys select, Writes ⟨dutyCatalog, dutyRequest.tenant⟩ dutyRequest write ∧
      Rereads ⟨dutyCatalog, dutyRequest.tenant⟩ write dutyStore.nextReply keys select ∧
      (serve dutyCatalog dutyRequest dutyStore).executed =
        [.rows write.statement, .rows (.select select)] ∧
      (Command.rows (.select select)).text =
        "WITH r AS (SELECT \"duties\".*, CASE WHEN \"head_rel\".\"id\" IS NULL THEN NULL ELSE " ++
          "json_build_object('name', \"head_rel\".\"name\") END AS \"head\" FROM \"duties\" " ++
          "LEFT JOIN \"duties\" \"head_rel\" ON \"head_rel\".\"id\" = \"duties\".\"head_id\" " ++
          "AND \"head_rel\".\"tenant_id\" = $1 WHERE \"duties\".\"tenant_id\" = $2 AND " ++
          "\"duties\".\"id\" IN ($3, $4)) SELECT row_to_json(r) AS row FROM r" ∧
      keys.map Datum.text <:+ (Sql.Statement.select select).values := by
  have count : (serve dutyCatalog dutyRequest dutyStore).executed.length = 2 := by decide +kernel
  have text : (serve dutyCatalog dutyRequest dutyStore).executed[1]?.map Command.text = some
      ("WITH r AS (SELECT \"duties\".*, CASE WHEN \"head_rel\".\"id\" IS NULL THEN NULL ELSE " ++
        "json_build_object('name', \"head_rel\".\"name\") END AS \"head\" FROM \"duties\" " ++
        "LEFT JOIN \"duties\" \"head_rel\" ON \"head_rel\".\"id\" = \"duties\".\"head_id\" " ++
        "AND \"head_rel\".\"tenant_id\" = $1 WHERE \"duties\".\"tenant_id\" = $2 AND " ++
        "\"duties\".\"id\" IN ($3, $4)) SELECT row_to_json(r) AS row FROM r") := by
    decide +kernel
  have opened : dutyStore.isClosed = false := rfl
  rcases (serve_trace dutyCatalog dutyRequest opened).2 (by decide) with
    ⟨-, nothing⟩ | ⟨write, asked, first, second, -, suffix⟩
  · rw [nothing] at count
    exact absurd count nofun
  · obtain ⟨command, present, written⟩ := Option.map_eq_some_iff.mp text
    obtain ⟨keys, select, again, rfl⟩ := (second command).mp present
    refine ⟨write, keys, select, asked, again, ?_, written, suffix keys select again⟩
    match shape : (serve dutyCatalog dutyRequest dutyStore).executed with
    | [one, two] =>
        rw [shape] at first present
        obtain rfl := Option.some.inj first
        obtain rfl := Option.some.inj present
        rfl
    | [] | [_] | _ :: _ :: _ :: _ =>
        rw [shape] at count
        exact absurd count (by simp)

end Gateway

end TableGate

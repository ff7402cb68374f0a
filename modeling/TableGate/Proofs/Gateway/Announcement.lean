import TableGate.Proofs.Gateway.Action

/-!
# Announcement of writes

The rows that a write returns are announced once the whole request has succeeded.  So the events of
a write that has been executed are those of its rows, in their order, unless the rows are to be read
again and that fails; then none of them is announced (`serve_events_iff`).
-/

namespace TableGate

open Http (Request)

/-- Written rows are not announced: they are to be read again for the relations of the projection,
and that fails. -/
def Unannounced (scope : Scope) (kind : ChangeKind) (query : Query) (rows : List Json)
    (store : Store) : Prop :=
  kind ≠ .delete ∧ ∃ projection, Projection.parse query.select? = .ok projection ∧
    Rehydrate.Fails scope projection rows store

namespace Service

variable {scope : Scope} {name : String} {query : Query} {kind : ChangeKind} {store : Store}

/-- A write whose statement has returned rows gives an outcome with these rows, or fails, exactly
where they stay unannounced. -/
theorem runWrite_result {prepared : Except Error Write} {statement : Sql.Statement}
    {rows : List Json} (prepares : Prepares scope name query kind prepared)
    (executed : (runWrite scope prepared store).executed.head? = some (.rows statement))
    (answered : store.nextReply.answer = .ok rows) :
    (∃ shown, (runWrite scope prepared store).result = .ok ⟨rows, shown⟩) ∧
        ¬ Unannounced scope kind query rows store.afterReply ∨
      (∃ error, (runWrite scope prepared store).result = .error error) ∧
        Unannounced scope kind query rows store.afterReply := by
  cases prepared with
  | error error => exact absurd executed nofun
  | ok write =>
      obtain ⟨-, ⟨tenant, enforced⟩, shows, -⟩ := prepares.isPrepared rfl
      change (write.run scope store).executed.head? = _ at executed
      change (∃ shown, (write.run scope store).result = _) ∧ _ ∨
        (∃ error, (write.run scope store).result = _) ∧ _
      cases access : store.isClosed with
      | true =>
          rw [Write.run_of_closed access] at executed
          exact absurd executed nofun
      | false =>
          rw [Write.run_of_open access, answered]
          simp only [Write.afterwards]
          cases projected : write.projection with
          | none =>
              rw [projected] at shows
              cases shows
              refine .inl ⟨⟨rows, rfl⟩, ?_⟩
              rintro ⟨kept, -⟩
              exact kept rfl
          | some projection =>
              rw [projected] at shows
              cases shows with
              | projected kept parsed =>
                  rcases Rehydrate.rows_result enforced with
                    ⟨⟨read, done⟩, whole⟩ | ⟨⟨error, failed⟩, fails⟩
                  · refine .inl ⟨⟨read, map_eq_ok.mpr ⟨read, done, rfl⟩⟩, ?_⟩
                    rintro ⟨-, other, same, fails⟩
                    obtain rfl := Except.ok.inj (parsed.symm.trans same)
                    exact whole fails
                  · exact .inr ⟨⟨error, map_eq_error.mpr failed⟩, kept, projection, parsed, fails⟩

end Service

namespace Gateway

variable {catalog : Catalog} {request : Request} {store : Store} {kind : ChangeKind}
  {statement : Sql.Statement} {rows : List Json}

/-- The rows that a write has returned are announced, one event for each in their order, exactly
where they need not be read again or reading them succeeds; otherwise nothing is announced. -/
theorem serve_events_iff (method : ChangeKind.ofMethod? request.method = some kind)
    (executed : (serve catalog request store).executed.head? = some (.rows statement))
    (answered : store.nextReply.answer = .ok rows) :
    ∃ name, tableOf? request = some name ∧
      ((serve catalog request store).events = ChangeEvent.ofRows kind name rows ↔
        ¬ Unannounced ⟨catalog, request.tenant⟩ kind request.query rows store.afterReply) ∧
      (Unannounced ⟨catalog, request.tenant⟩ kind request.query rows store.afterReply →
        (serve catalog request store).events = []) := by
  rw [serve_executed] at executed
  rw [serve_events]
  cases asked : ask ⟨catalog, request.tenant⟩ request with
  | answer response =>
      rw [serveWhole_of_answer asked] at executed
      exact absurd executed nofun
  | ready =>
      rw [serveWhole_of_ready asked] at executed
      exact absurd (eq_probe_of_ready (List.mem_of_mem_head? executed)) nofun
  | read table => exact absurd (method.symm.trans (ask_eq_read asked)) nofun
  | write order =>
      obtain ⟨ordered, named, prepares⟩ := ask_eq_write asked
      obtain rfl := Option.some.inj (method.symm.trans ordered)
      refine ⟨order.table, named, ?_⟩
      rw [serveWhole_of_write asked] at executed ⊢
      rw [executed_answerWrite] at executed
      unfold answerWrite
      rcases Service.runWrite_result prepares executed answered with
        ⟨⟨shown, done⟩, announced⟩ | ⟨⟨error, failed⟩, unannounced⟩
      · rw [done]
        exact ⟨⟨fun _ => announced, fun _ => rfl⟩, fun lost => absurd lost announced⟩
      · rw [failed]
        refine ⟨⟨fun same => ?_, fun announced => absurd unannounced announced⟩, fun _ => rfl⟩
        obtain ⟨-, projection, -, keys, keyed, -⟩ := unannounced
        obtain ⟨-, present, -⟩ := Rehydrate.keys?_eq_some keyed
        exact absurd (List.map_eq_nil_iff.mp same.symm) present

/-- A catalog of one table, which refers to itself. -/
def staffCatalog : Catalog := .ofTable ⟨⟨"staff", by decide⟩, false⟩

/-- An insert that asks for a relation. -/
def hiringRequest : Request :=
  ⟨"POST", "/rest/staff?select=*,boss:staff(name)", [("Content-Type", "application/json")],
    "\x7b\"name\":\"Ada\"\x7d"⟩

/-- A store that inserts one row and fails then. -/
def failingStore : Store :=
  { replies := [{ rows := ["\x7b\"id\":1\x7d"] }, { failure := some .poolTimedOut }] }

theorem serve_events_iff_staff :
    ∃ statement, (serve staffCatalog hiringRequest failingStore).executed.head? =
        some (.rows statement) ∧
      failingStore.nextReply.answer = .ok [.object [("id", .ofInt 1)]] ∧
      (serve staffCatalog hiringRequest failingStore).events = [] ∧
      Unannounced ⟨staffCatalog, hiringRequest.tenant⟩ .insert hiringRequest.query
        [.object [("id", .ofInt 1)]] failingStore.afterReply := by
  have written : (serve staffCatalog hiringRequest failingStore).executed.head?.map Command.text =
      some ("WITH r AS (INSERT INTO \"staff\" (\"name\") VALUES ($1) RETURNING *) " ++
        "SELECT row_to_json(r) AS row FROM r") := by
    decide +kernel
  have silent : (serve staffCatalog hiringRequest failingStore).events = [] :=
    List.isEmpty_iff.mp (by decide +kernel)
  have answered : failingStore.nextReply.answer = .ok [.object [("id", .ofInt 1)]] := by
    with_unfolding_all rfl
  obtain ⟨command, first, text⟩ := Option.map_eq_some_iff.mp written
  have runs := runs_of_serve (List.mem_of_mem_head? first)
  rcases runs with rfl | ⟨statement, rfl, -⟩
  · exact absurd text (by decide)
  · have method : ChangeKind.ofMethod? hiringRequest.method = some .insert := rfl
    obtain ⟨name, -, announced, -⟩ := serve_events_iff method first answered
    refine ⟨statement, first, answered, silent, Classical.byContradiction fun read => ?_⟩
    have events := announced.mpr read
    rw [silent] at events
    exact absurd events nofun

end Gateway

end TableGate

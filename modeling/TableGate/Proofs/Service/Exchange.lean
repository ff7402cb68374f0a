import TableGate.Change.Feed
import TableGate.Proofs.Compile.Outcome
import TableGate.Service.Basic

/-!
# Exchanges of the service

What a read and a write do with the store, reply by reply.  A write executes its own statement
first (`Write.run_of_open`).  Only if its rows have keys and relations are asked for, it compiles
the by-key select (`Rehydrate.rows_of_refused`), and executes it (`Rehydrate.rows_of_compiled`).
The last section says what a prepared write has been compiled from (`Prepares.isPrepared`).
-/

namespace TableGate

variable {store : Store}

namespace Store

/-- The reply that the next statement takes. -/
def nextReply (store : Store) : Reply := store.replies.head?.getD {}

/-- The store after one more statement. -/
def afterReply (store : Store) : Store := { store with replies := store.replies.tail }

theorem execute_eq (store : Store) (statement : Sql.Statement) :
    store.execute statement =
      ⟨store.nextReply.answer, [.rows statement], store.afterReply⟩ := by
  obtain ⟨closed, replies⟩ := store
  cases replies <;> rfl

theorem acquire_of_closed {α : Type} (closed : store.isClosed = true) (use : Store → Exchange α) :
    store.acquire use = .fail (.database .poolClosed) store := if_pos closed

theorem acquire_of_open {α : Type} (opened : store.isClosed = false) (use : Store → Exchange α) :
    store.acquire use = use store := by
  rw [acquire, opened]
  rfl

end Store

namespace Rehydrate

/-- The keys by which written rows are read again: none where they are answered as returned. -/
def keys? (projection : Projection) (written : List Json) : Option (List String) :=
  if projection.hasRelations = false ∨ written = [] then none else written.mapM Json.rowKey?

variable {scope : Scope} {table : Table} {projection : Projection} {written : List Json}
  {keys : List String}

theorem keys?_eq_some (found : keys? projection written = some keys) :
    projection.hasRelations = true ∧ written ≠ [] ∧ written.mapM Json.rowKey? = some keys := by
  unfold keys? at found
  split at found
  · exact absurd found (Option.some_ne_none keys).symm
  · next wanted =>
      obtain ⟨related, present⟩ := not_or.mp wanted
      exact ⟨(Bool.not_eq_false _).mp related, present, found⟩

/-- Written rows that are not read again are answered as they are. -/
theorem rows_of_kept (kept : keys? projection written = none) :
    rows scope table projection written store = ⟨.ok written, [], store⟩ := by
  unfold keys? at kept
  unfold rows
  split
  · rfl
  · next wanted =>
      rw [if_neg wanted] at kept
      simp only [kept]

/-- Rows whose by-key select does not compile are not answered. -/
theorem rows_of_refused {error : Error} (found : keys? projection written = some keys)
    (refused : Compile.selectByKeys scope table projection (keys.map Datum.text) = .error error) :
    rows scope table projection written store = .fail error store := by
  obtain ⟨related, present, read⟩ := keys?_eq_some found
  unfold rows
  rw [if_neg (by simp [related, present])]
  simp only [read, refused]

/-- Rows with keys are read again, and put in the places of the written ones. -/
theorem rows_of_compiled {select : Sql.Select} (found : keys? projection written = some keys)
    (compiled : Compile.selectByKeys scope table projection (keys.map Datum.text) = .ok select) :
    rows scope table projection written store =
      ⟨store.nextReply.answer.map fun fetched => realign (keyed fetched) (keys.zip written),
        [.rows (.select select)], store.afterReply⟩ := by
  obtain ⟨related, present, read⟩ := keys?_eq_some found
  unfold rows
  rw [if_neg (by simp [related, present])]
  simp only [read, compiled, Store.execute_eq, Exchange.map]

/-- Written rows with keys are not read again: a relation is refused, or the store fails. -/
def Fails (scope : Scope) (projection : Projection) (written : List Json) (store : Store) : Prop :=
  ∃ keys, keys? projection written = some keys ∧
    ((∃ relation ∈ projection.relations, Compile.IsRefused scope relation) ∨
      ∃ error, store.nextReply.answer = .error error)

/-- Rows are given back unless reading them again fails. -/
theorem rows_result {tenant : Option TenantPredicate}
    (enforced : scope.enforce table = .ok tenant) :
    (∃ read, (rows scope table projection written store).result = .ok read) ∧
        ¬ Fails scope projection written store ∨
      (∃ error, (rows scope table projection written store).result = .error error) ∧
        Fails scope projection written store := by
  cases found : keys? projection written with
  | none =>
      refine .inl ⟨⟨written, by rw [rows_of_kept found]⟩, ?_⟩
      rintro ⟨keys, present, -⟩
      exact absurd (found.symm.trans present) (Option.some_ne_none keys).symm
  | some keys =>
      cases compiled : Compile.selectByKeys scope table projection (keys.map Datum.text) with
      | error error =>
          have refused := (Compile.selectByKeys_eq_error enforced compiled).1
          refine .inr ⟨⟨error, ?_⟩, keys, found, .inl refused⟩
          rw [rows_of_refused found compiled]
          rfl
      | ok select =>
          rw [rows_of_compiled found compiled]
          cases answered : store.nextReply.answer with
          | error error => exact .inr ⟨⟨error, rfl⟩, keys, found, .inr ⟨error, answered⟩⟩
          | ok fetched =>
              refine .inl ⟨⟨_, rfl⟩, ?_⟩
              rintro ⟨others, -, ⟨relation, member, refused⟩ | ⟨error, failed⟩⟩
              · exact Compile.selectByKeys_ne_ok member refused select compiled
              · exact absurd (answered.symm.trans failed) nofun

end Rehydrate

namespace Write

variable {write : Write} {scope : Scope}

/-- What is read again after a write that has returned rows. -/
def afterwards (write : Write) (scope : Scope) (returned : List Json) (store : Store) :
    Exchange (List Json) :=
  match write.projection with
  | none => ⟨.ok returned, [], store⟩
  | some projection => Rehydrate.rows scope write.table projection returned store

theorem run_of_closed (closed : store.isClosed = true) :
    write.run scope store = .fail (.database .poolClosed) store :=
  Store.acquire_of_closed closed _

/-- A write executes its statement, and what follows depends on the reply. -/
theorem run_of_open (opened : store.isClosed = false) :
    write.run scope store =
      match store.nextReply.answer with
      | .error error => ⟨.error error, [.rows write.statement], store.afterReply⟩
      | .ok returned =>
          let reread := write.afterwards scope returned store.afterReply
          ⟨reread.result.map fun rows => ⟨returned, rows⟩,
            .rows write.statement :: reread.executed, reread.store⟩ := by
  unfold run
  rw [Store.acquire_of_open opened, Store.execute_eq]
  cases answered : store.nextReply.answer with
  | error error => rfl
  | ok returned =>
      unfold afterwards
      cases write.projection <;> rfl

end Write

namespace Service

open Compile (Compiled)

variable {scope : Scope} {name : String} {query : Query} {kind : ChangeKind}

/-- A write is prepared from its table, the projection and its statement. -/
theorem prepare_eq_ok {α : Type} {write : Write} {first : Except Error Table}
    {second : Except Error Projection} {compile : Table → Except Error α}
    {make : α → Sql.Statement} :
    (do let table ← first
        let projection ← second
        return (⟨make (← compile table), table, some projection⟩ : Write)) = .ok write ↔
      ∃ table projection statement, first = .ok table ∧ second = .ok projection ∧
        compile table = .ok statement ∧ write = ⟨make statement, table, some projection⟩ := by
  constructor
  · intro prepared
    obtain ⟨table, found, rest⟩ := bind_eq_ok.mp prepared
    obtain ⟨projection, parsed, rest⟩ := bind_eq_ok.mp rest
    obtain ⟨statement, compiled, shape⟩ := bind_eq_ok.mp rest
    exact ⟨table, projection, statement, found, parsed, compiled, (Except.ok.inj shape).symm⟩
  · rintro ⟨table, projection, statement, found, parsed, compiled, rfl⟩
    exact bind_eq_ok.mpr ⟨table, found, bind_eq_ok.mpr ⟨projection, parsed,
      bind_eq_ok.mpr ⟨statement, compiled, rfl⟩⟩⟩

theorem prepareInsert_eq_ok {write : Write} {records : List Record} :
    prepareInsert scope name records query = .ok write ↔
      ∃ table projection statement, scope.table name = .ok table ∧
        Projection.parse query.select? = .ok projection ∧
        Compile.insert scope table records = .ok statement ∧
        write = ⟨.insert statement, table, some projection⟩ :=
  prepare_eq_ok

theorem prepareUpdate_eq_ok {write : Write} {patch : Record} :
    prepareUpdate scope name patch query = .ok write ↔
      ∃ table projection statement, scope.table name = .ok table ∧
        Projection.parse query.select? = .ok projection ∧
        Compile.update scope table patch query = .ok statement ∧
        write = ⟨.update statement, table, some projection⟩ :=
  prepare_eq_ok

/-- How a write of each kind is prepared. -/
inductive Prepares (scope : Scope) (name : String) (query : Query) :
    ChangeKind → Except Error Write → Prop
  | insert (records : List Record) :
      Prepares scope name query .insert (prepareInsert scope name records query)
  | update (patch : Record) :
      Prepares scope name query .update (prepareUpdate scope name patch query)
  | delete : Prepares scope name query .delete (prepareDelete scope name query)

/-- The projection by which a write of a kind is answered. -/
inductive Shows (query : Query) : ChangeKind → Option Projection → Prop
  | returned : Shows query .delete none
  | projected {kind : ChangeKind} {projection : Projection} (kept : kind ≠ .delete)
      (parsed : Projection.parse query.select? = .ok projection) :
      Shows query kind (some projection)

/-- A prepared write is on a table that may be used, is answered by the query's projection, and has
been compiled. -/
structure IsPrepared (scope : Scope) (name : String) (query : Query) (kind : ChangeKind)
    (write : Write) : Prop where
  found : scope.table name = .ok write.table
  enforced : ∃ tenant, scope.enforce write.table = .ok tenant
  shows : Shows query kind write.projection
  compiled : Compiled scope write.statement

theorem Prepares.isPrepared {write : Write} {prepared : Except Error Write}
    (prepares : Prepares scope name query kind prepared) (done : prepared = .ok write) :
    IsPrepared scope name query kind write := by
  cases prepares with
  | insert records =>
      obtain ⟨table, projection, statement, found, parsed, compiled, rfl⟩ :=
        prepareInsert_eq_ok.mp done
      obtain ⟨tenant, rows, enforced, -⟩ := Compile.insert_eq_ok compiled
      exact ⟨found, ⟨tenant, enforced⟩, .projected nofun parsed, .insert found compiled⟩
  | update patch =>
      obtain ⟨table, projection, statement, found, parsed, compiled, rfl⟩ :=
        prepareUpdate_eq_ok.mp done
      obtain ⟨tenant, fields, filters, enforced, -⟩ := Compile.update_eq_ok compiled
      exact ⟨found, ⟨tenant, enforced⟩, .projected nofun parsed, .update found compiled⟩
  | delete =>
      obtain ⟨table, found, rest⟩ := bind_eq_ok.mp done
      obtain ⟨statement, compiled, shape⟩ := bind_eq_ok.mp rest
      obtain ⟨tenant, filters, enforced, -⟩ := Compile.delete_eq_ok compiled
      cases shape
      exact ⟨found, ⟨tenant, enforced⟩, .returned, .delete found compiled⟩

/-- A statement on a table that has been compiled. -/
def Runs (scope : Scope) (command : Command) : Prop :=
  ∃ statement, command = .rows statement ∧ Compiled scope statement

variable {command : Command}

/-- Whatever is read again is a compiled select. -/
theorem runs_of_reread {table : Table} {projection : Projection} {written : List Json}
    (found : scope.table name = .ok table)
    (member : command ∈ (Rehydrate.rows scope table projection written store).executed) :
    Runs scope command := by
  cases keyed : Rehydrate.keys? projection written with
  | none =>
      rw [Rehydrate.rows_of_kept keyed] at member
      exact absurd member List.not_mem_nil
  | some keys =>
      cases compiled : Compile.selectByKeys scope table projection (keys.map Datum.text) with
      | error error =>
          rw [Rehydrate.rows_of_refused keyed compiled] at member
          exact absurd member List.not_mem_nil
      | ok select =>
          rw [Rehydrate.rows_of_compiled keyed compiled] at member
          exact ⟨_, List.mem_singleton.mp member, .selectByKeys found compiled⟩

/-- Whatever a write executes has been compiled. -/
theorem runs_of_runWrite {prepared : Except Error Write}
    (prepares : Prepares scope name query kind prepared)
    (member : command ∈ (runWrite scope prepared store).executed) : Runs scope command := by
  cases prepared with
  | error error => exact absurd member List.not_mem_nil
  | ok write =>
      obtain ⟨found, -, -, compiled⟩ := prepares.isPrepared rfl
      change command ∈ (write.run scope store).executed at member
      cases access : store.isClosed with
      | true =>
          rw [Write.run_of_closed access] at member
          exact absurd member List.not_mem_nil
      | false =>
          rw [Write.run_of_open access] at member
          cases answered : store.nextReply.answer with
          | error error =>
              simp only [answered] at member
              exact ⟨_, List.mem_singleton.mp member, compiled⟩
          | ok returned =>
              simp only [answered] at member
              rcases List.mem_cons.mp member with same | later
              · exact ⟨_, same, compiled⟩
              · unfold Write.afterwards at later
                split at later
                · exact absurd later List.not_mem_nil
                · exact runs_of_reread found later

/-- Whatever a read executes has been compiled. -/
theorem runs_of_select (member : command ∈ (select scope name query store).executed) :
    Runs scope command := by
  unfold select at member
  cases prepared : prepareSelect scope name query with
  | error error =>
      simp only [prepared] at member
      exact absurd member List.not_mem_nil
  | ok compiled =>
      obtain ⟨table, found, rest⟩ := bind_eq_ok.mp prepared
      obtain ⟨projection, -, read⟩ := bind_eq_ok.mp rest
      simp only [prepared] at member
      cases access : store.isClosed with
      | true =>
          rw [Store.acquire_of_closed access] at member
          exact absurd member List.not_mem_nil
      | false =>
          rw [Store.acquire_of_open access, Store.execute_eq] at member
          exact ⟨_, List.mem_singleton.mp member, .select found read⟩

end Service

end TableGate

import TableGate.Proofs.Config.Resolution
import TableGate.Proofs.Gateway.Tenancy
import TableGate.Proofs.Gateway.Trace
import TableGate.Proofs.Projection.Fault

/-!
# Refusal without a tenant

A request to a table that belongs to tenants is refused where it names no tenant, and nothing is
executed or published for it.  What it is told depends on its projection alone: a projection that
cannot be read is named before the tenant is missed, except by a delete, which reads none; no other
fault of the request is named instead (`serve_unnamed`).
-/

namespace TableGate

open Http (Request Response)

/-! ### Preparing for a refused table -/

namespace Service

variable {scope : Scope} {name : String} {table : Table} {query : Query} {refusal : Error}

/-- What a request that reads a projection is refused for: the fault of the projection, or else that
of the table. -/
def refusalOf (query : Query) (refusal : Error) : Error :=
  match Projection.parse query.select? with
  | .error fault => fault
  | .ok _ => refusal

/-- Nothing but the projection is looked at before a refused table. -/
theorem prepare_of_refused {α : Type} {next : Table → Projection → Except Error α}
    (found : scope.table name = .ok table)
    (refused : ∀ projection, next table projection = .error refusal) :
    (do let table ← scope.table name
        let projection ← Projection.parse query.select?
        next table projection) = .error (refusalOf query refusal) := by
  rw [found, refusalOf]
  cases Projection.parse query.select? with
  | error fault => rfl
  | ok projection => exact refused projection

variable (found : scope.table name = .ok table) (refused : scope.enforce table = .error refusal)
include found refused

theorem prepareSelect_of_refused :
    prepareSelect scope name query = .error (refusalOf query refusal) :=
  prepare_of_refused found fun _ => bind_eq_error.mpr (.inl refused)

theorem prepareInsert_of_refused {records : List Record} :
    prepareInsert scope name records query = .error (refusalOf query refusal) :=
  prepare_of_refused found fun _ => bind_eq_error.mpr (.inl (bind_eq_error.mpr (.inl refused)))

theorem prepareUpdate_of_refused {patch : Record} :
    prepareUpdate scope name patch query = .error (refusalOf query refusal) :=
  prepare_of_refused found fun _ => bind_eq_error.mpr (.inl (bind_eq_error.mpr (.inl refused)))

/-- A delete reads no projection, so it is refused for the table. -/
theorem prepareDelete_of_refused : prepareDelete scope name query = .error refusal :=
  bind_eq_error.mpr
    (.inr ⟨table, found, bind_eq_error.mpr (.inl (bind_eq_error.mpr (.inl refused)))⟩)

end Service

/-! ### Requests without a tenant -/

namespace Gateway

variable {catalog : Catalog} {request : Request} {store : Store} {name : String} {table : Table}

/-- A request is refused with an error, and all else is as if it had not been sent. -/
structure Refuses (served : Served) (store : Store) (error : Error) : Prop where
  response : served.response = .ofError error
  executed : served.executed = []
  events : served.events = []
  store : served.store = store

theorem refuses_answerRead {error : Error} {single : Bool} :
    Refuses (answerRead (.fail error store) single) store error := ⟨rfl, rfl, rfl, rfl⟩

theorem refuses_answerWrite {error : Error} {status : Nat} {single : Bool} {kind : ChangeKind}
    {table : String} :
    Refuses (answerWrite (.fail error store) status single kind table) store error :=
  ⟨rfl, rfl, rfl, rfl⟩

/-- Where a verb's table is refused, so is the request, for the fault that preparing comes upon
first. -/
theorem refuses_serveVerb {verb : Verb} {refusal : Error}
    (found : (⟨catalog, request.tenant⟩ : Scope).table name = .ok table)
    (refused : (⟨catalog, request.tenant⟩ : Scope).enforce table = .error refusal)
    (body : verb = .insert ∨ verb = .update →
      ∃ members, request.jsonBody = .ok (.object members)) :
    Refuses (serveVerb catalog verb name request store) store
      (if verb = .delete then refusal else Service.refusalOf request.query refusal) := by
  cases verb with
  | select =>
      change Refuses (answerRead (Service.select _ _ _ _) _) _ _
      rw [Service.select, Service.prepareSelect_of_refused found refused, if_neg nofun]
      exact refuses_answerRead
  | insert =>
      obtain ⟨members, sent⟩ := body (.inl rfl)
      change Refuses (withBody _ _ _) _ _
      rw [withBody, sent, if_neg nofun]
      change Refuses (answerWrite (Service.insert _ _ _ _ _) _ _ _ _) _ _
      rw [Service.insert, Service.prepareInsert_of_refused found refused]
      exact refuses_answerWrite
  | update =>
      obtain ⟨members, sent⟩ := body (.inr rfl)
      change Refuses (withBody _ _ _) _ _
      rw [withBody, sent, if_neg nofun]
      change Refuses (answerWrite (Service.update _ _ _ _ _) _ _ _ _) _ _
      rw [Service.update, Service.prepareUpdate_of_refused found refused]
      exact refuses_answerWrite
  | delete =>
      change Refuses (answerWrite (Service.delete _ _ _ _) _ _ _ _) _ _
      rw [Service.delete, Service.prepareDelete_of_refused found refused, if_pos rfl]
      exact refuses_answerWrite

/-- A request that fits is served by its verb. -/
theorem serve_eq_serveVerb {verb : Verb} (path : tableOf? request = some name)
    (fits : request.announcesTooMuch = false)
    (method : Verb.ofMethod? request.method = some verb) (shown : request.method ≠ "HEAD") :
    serve catalog request store = serveVerb catalog verb name request store := by
  obtain ⟨encoded, route, decoded⟩ := ofPath?_of_tableOf? path
  rw [serve, if_neg shown]
  simp only [serveWhole, route, withinLimit, fits, serveRows, method, decoded, Bool.false_eq_true,
    ↓reduceIte]

/-- **Without a tenant.**  A request to a table that belongs to tenants, which names none, executes
and publishes nothing.  A delete is told that a tenant is required, and so is every other request
whose projection can be read, whatever else is wrong with it; otherwise it is told what is wrong
with the projection. -/
theorem serve_unnamed (path : tableOf? request = some name)
    (found : catalog.lookup name = .ok table) (owned : table.tenantScoped = true)
    (unnamed : request.tenantId? = none) (fits : request.announcesTooMuch = false)
    (method : request.method ∈ ["GET", "POST", "PATCH", "DELETE"])
    (body : request.method ∈ ["POST", "PATCH"] →
      ∃ members, request.jsonBody = .ok (.object members)) :
    (serve catalog request store).executed = [] ∧ (serve catalog request store).events = [] ∧
      (serve catalog request store).store = store ∧
      (request.method = "DELETE" ∨
          (∃ projection, Projection.parse request.query.select? = .ok projection) →
        (serve catalog request store).response = .ofError (.tenantRequired name) ∧
          (serve catalog request store).response.status = 403) ∧
      ∀ fault, request.method ≠ "DELETE" →
        Projection.parse request.query.select? = .error fault →
          (serve catalog request store).response = .ofError fault ∧
            (serve catalog request store).response.status = 400 := by
  have refused : (⟨catalog, request.tenant⟩ : Scope).enforce table =
      .error (.tenantRequired name) := by
    rw [Scope.enforce, if_pos owned]
    simp only [active?_tenant, unnamed, (Catalog.lookup_eq_ok_iff.mp found).2]
  obtain ⟨verb, named, deletes, writes, shown⟩ : ∃ verb,
      Verb.ofMethod? request.method = some verb ∧ (verb = .delete ↔ request.method = "DELETE") ∧
        (verb = .insert ∨ verb = .update → request.method ∈ ["POST", "PATCH"]) ∧
        request.method ≠ "HEAD" := by
    simp only [List.mem_cons, List.not_mem_nil, or_false] at method
    rcases method with same | same | same | same <;> rw [same]
    · exact ⟨.select, rfl, by decide, by decide, by decide⟩
    · exact ⟨.insert, rfl, by decide, by decide, by decide⟩
    · exact ⟨.update, rfl, by decide, by decide, by decide⟩
    · exact ⟨.delete, rfl, by decide, by decide, by decide⟩
  have refuses : Refuses (serveVerb catalog verb name request store) store _ :=
    refuses_serveVerb found refused fun write => body (writes write)
  rw [← serve_eq_serveVerb path fits named shown] at refuses
  refine ⟨refuses.executed, refuses.events, refuses.store, fun readable => ?_,
    fun fault kept unreadable => ?_⟩
  · have told : (if verb = .delete then Error.tenantRequired name
        else Service.refusalOf request.query (.tenantRequired name)) = .tenantRequired name := by
      rcases readable with deleted | ⟨projection, parsed⟩
      · exact if_pos (deletes.mpr deleted)
      · rw [Service.refusalOf, parsed, ite_self]
    have response := refuses.response
    rw [told] at response
    exact ⟨response, response ▸ rfl⟩
  · have told : (if verb = .delete then Error.tenantRequired name
        else Service.refusalOf request.query (.tenantRequired name)) = fault := by
      rw [if_neg fun deleted => kept (deletes.mp deleted), Service.refusalOf, unreadable]
    have response := refuses.response
    rw [told] at response
    exact ⟨response, response ▸ (Projection.failsAs_parse _ fault unreadable).status⟩

/-- A read of the orders, of no tenant, whose projection leaves a parenthesis open. -/
def openRequest : Request := ⟨"GET", "/rest/orders?select=buyer:users(", [], ""⟩

/-- The parenthesis is named, and the tenant is not missed. -/
theorem serve_unnamed_orders :
    ∃ fault, tableOf? openRequest = some "orders" ∧ openRequest.tenantId? = none ∧
      orderCatalog.lookup "orders" = .ok ⟨⟨"orders", by decide⟩, true⟩ ∧
      Projection.parse openRequest.query.select? = .error fault ∧
      fault.code = "invalid_select" ∧
      (serve orderCatalog openRequest {}).executed = [] ∧
      (serve orderCatalog openRequest {}).response = .ofError fault ∧
      (serve orderCatalog openRequest {}).response.status = 400 := by
  have path : tableOf? openRequest = some "orders" := by decide +kernel
  have found : orderCatalog.lookup "orders" = .ok ⟨⟨"orders", by decide⟩, true⟩ := by rfl
  have unnamed : openRequest.tenantId? = none := by decide +kernel
  have unreadable : Projection.parse openRequest.query.select? =
      .error (.invalidProjection "unbalanced parentheses in 'buyer:users('") := by
    with_unfolding_all rfl
  obtain ⟨executed, -, -, -, told⟩ := @serve_unnamed orderCatalog openRequest {} _ _ path found rfl
    unnamed (by decide +kernel) (by decide) fun write => absurd write (by decide)
  obtain ⟨response, status⟩ := told _ (by decide) unreadable
  exact ⟨_, path, unnamed, found, unreadable, rfl, executed, response, status⟩

end Gateway

end TableGate

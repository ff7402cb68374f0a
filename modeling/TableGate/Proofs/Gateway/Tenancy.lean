import TableGate.Proofs.Gateway.Action
import TableGate.Proofs.Tenant.Isolation

/-!
# Tenancy of runs

Whatever requests a gateway serves one after another, and whatever the store replies, each request
executes statements that stay within the rows of its own tenant (`serveAll_isolated`).
-/

namespace TableGate

open Http (Request)
open Isolation (Isolated)

/-- The tenant of a request: what its first tenant header says without the blanks around it, unless
the header is unreadable or blank. -/
def Http.Request.tenantId? (request : Request) : Option String :=
  (((request.header? "x-tenant-id").filter Request.isReadable).map fun value =>
    String.ofList (Text.trim value.toList)).filter fun tenant => !tenant.isEmpty

theorem active?_tenant (request : Request) : request.tenant.active? = request.tenantId? := by
  unfold Request.tenant
  dsimp only
  split
  · next tenant named =>
      have usable : (!tenant.isEmpty) = true := (Option.filter_eq_some_iff.mp named).2
      have found : request.tenantId? = some tenant := named
      rw [found]
      simp [TenantContext.active?, TenantContext.forTenant, Option.filter, usable]
  · next unnamed =>
      have absent : request.tenantId? = none := unnamed
      rw [absent]
      rfl

namespace Gateway

variable {catalog : Catalog} {request : Request} {store : Store} {command : Command}

/-- A command touches no table, or only rows of the tenant. -/
def StaysWithin (catalog : Catalog) (tenant? : Option String) (command : Command) : Prop :=
  command = .probe ∨ ∃ statement, command = .rows statement ∧
    Isolated catalog tenant? statement.values statement.text

theorem serve_staysWithin (member : command ∈ (serve catalog request store).executed) :
    StaysWithin catalog request.tenantId? command := by
  rcases runs_of_serve member with probe | ⟨statement, same, compiled⟩
  · exact .inl probe
  · have isolated := Isolation.isolated_of_compiled compiled
    rw [active?_tenant] at isolated
    exact .inr ⟨statement, same, isolated⟩

/-- In every run, each request executes only statements that are isolated for its own tenant. -/
theorem serveAll_isolated (catalog : Catalog) (requests : List Request) (store : Store) :
    ∀ served ∈ requests.zip (serveAll catalog requests store),
      ∀ command ∈ served.2.executed, StaysWithin catalog served.1.tenantId? command := by
  induction requests generalizing store with
  | nil =>
      intro served member
      exact absurd member List.not_mem_nil
  | cons request rest ih =>
      intro served member command executed
      rcases List.mem_cons.mp member with rfl | later
      · exact serve_staysWithin executed
      · exact ih _ served later command executed

/-- A catalog of one table, which belongs to tenants. -/
def orderCatalog : Catalog := .ofTable ⟨⟨"orders", by decide⟩, true⟩

/-- A tenant reads the orders whose state is one of two. -/
def orderRequest : Request :=
  ⟨"GET", "/rest/orders?or=(state.eq.open,state.eq.paid)", [("X-Tenant-ID", " north ")], ""⟩

theorem serveAll_isolated_orders :
    ∃ served ∈ [orderRequest].zip (serveAll orderCatalog [orderRequest] {}),
      ∃ command ∈ served.2.executed,
        command.text = "WITH r AS (SELECT \"orders\".* FROM \"orders\" " ++
          "WHERE \"orders\".\"tenant_id\" = $1 AND (\"orders\".\"state\" = $2 OR " ++
          "\"orders\".\"state\" = $3) LIMIT 100) SELECT row_to_json(r) AS row FROM r" ∧
        StaysWithin orderCatalog served.1.tenantId? command := by
  have written : (serve orderCatalog orderRequest {}).executed.map Command.text =
      ["WITH r AS (SELECT \"orders\".* FROM \"orders\" " ++
        "WHERE \"orders\".\"tenant_id\" = $1 AND (\"orders\".\"state\" = $2 OR " ++
        "\"orders\".\"state\" = $3) LIMIT 100) SELECT row_to_json(r) AS row FROM r"] := by
    decide +kernel
  obtain ⟨command, executed, same⟩ :=
    List.mem_map.mp (written ▸ List.mem_singleton_self _)
  have member : (orderRequest, serve orderCatalog orderRequest {}) ∈
      [orderRequest].zip (serveAll orderCatalog [orderRequest] {}) := List.mem_singleton_self _
  exact ⟨_, member, command, executed, same,
    serveAll_isolated orderCatalog [orderRequest] {} _ member command executed⟩

end Gateway

end TableGate

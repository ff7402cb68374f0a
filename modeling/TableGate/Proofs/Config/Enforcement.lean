import TableGate.Proofs.Config.Listing
import TableGate.Proofs.Config.Resolution
import TableGate.Tenant

/-!
# From a configuration to enforcement

The catalog of a configuration serves the tables that the text lists, and a table can be used
without a tenant only where the text says so.  The main theorem is `enforces_of_parse`, which also
says for which fault there is no catalog.
-/

namespace TableGate

/-- Without an active tenant, a table is usable exactly where it is shared, and then without a
predicate. -/
theorem Scope.enforce_of_inactive (scope : Scope) (table : Table)
    (inactive : scope.tenant.active? = none) :
    scope.enforce table = if table.tenantScoped then .error (.tenantRequired table.name.text)
      else .ok none := by
  unfold Scope.enforce
  simp only [inactive]

namespace Config

/-- What the catalog of a configuration text serves and enforces. -/
structure Enforces (text : String) (config : Config) (catalog : Catalog) : Prop where
  /-- A name is found exactly where it is listed. -/
  known : ∀ name, (∃ table, catalog.lookup name = .ok table) ↔
    name ∈ config.tables.map TableEntry.name
  /-- What is found has the name and the flag of the entry. -/
  lookup : ∀ name table, catalog.lookup name = .ok table →
    table.name.text = name ∧ ⟨name, table.tenantScoped⟩ ∈ config.tables
  /-- Any other name is told to be unknown. -/
  unknown : ∀ name, name ∉ config.tables.map TableEntry.name ↔
    catalog.lookup name = .error (.unknownTable name)
  /-- A name that is listed is listed once. -/
  once : ∀ name ∈ config.tables.map TableEntry.name,
    (config.tables.map TableEntry.name).count name = 1
  /-- The names that are listed are those of the tables in the text. -/
  declared : ∀ name, name ∈ config.tables.map TableEntry.name ↔ ∃ item, Declares text name item
  /-- Without an active tenant, a table can be used exactly where its record says that it does not
  belong to tenants, and then without a predicate. -/
  shared : ∀ name table item (tenant : TenantContext), catalog.lookup name = .ok table →
    Declares text name item → tenant.active? = none →
      ((∃ predicate, (⟨catalog, tenant⟩ : Scope).enforce table = .ok predicate) ↔
          SaysShared item) ∧
        (SaysShared item → (⟨catalog, tenant⟩ : Scope).enforce table = .ok none) ∧
        (¬ SaysShared item →
          (⟨catalog, tenant⟩ : Scope).enforce table = .error (.tenantRequired name))
  /-- Every name is an identifier. -/
  identifiers : (∀ entry ∈ config.tables, isIdentifier entry.name = true) ∧
    isIdentifier config.tenantColumn = true ∧ catalog.tenantColumn.text = config.tenantColumn
  /-- A page has at least one row. -/
  limit : catalog.maxLimit = config.maxLimit ∧ 1 ≤ catalog.maxLimit
  size : catalog.size = config.tables.length

theorem enforces_of_catalog {text : String} {config : Config} {catalog : Catalog}
    (parsed : parse text = .ok config) (resolved : Catalog.ofConfig config = .ok catalog) :
    Enforces text config catalog := by
  obtain ⟨tables, column, limit⟩ := Catalog.ofConfig_eq_ok resolved
  have known (name : String) : (∃ table, catalog.lookup name = .ok table) ↔
      name ∈ config.tables.map TableEntry.name := by
    rw [tables]
    simp only [Catalog.lookup_eq_ok_iff, List.mem_map, exists_exists_and_eq_and, Table.entry]
  have found {name : String} {table : Table} (looked : catalog.lookup name = .ok table) :
      table.name.text = name ∧ ⟨name, table.tenantScoped⟩ ∈ config.tables := by
    obtain ⟨member, rfl⟩ := Catalog.lookup_eq_ok_iff.mp looked
    exact ⟨rfl, tables ▸ List.mem_map_of_mem member⟩
  have distinct : (config.tables.map TableEntry.name).Nodup := tables ▸ catalog.nodup_names
  refine {
    known := known
    lookup := fun name table => found
    unknown := fun name => ?_
    once := fun name => List.count_eq_one_of_mem distinct
    declared := fun name => ?_
    shared := fun name table item tenant looked declares inactive => ?_
    identifiers := ⟨fun entry member => ?_, column ▸ catalog.tenantColumn.valid, column.symm⟩
    limit := ⟨limit.symm, catalog.maxLimit_pos⟩
    size := by rw [tables, List.length_map]; rfl }
  · rw [← known, not_exists, Catalog.lookup_eq_error_iff]
  · constructor
    · intro listed
      obtain ⟨entry, member, rfl⟩ := List.mem_map.mp listed
      exact declares_of_entry parsed member
    · rintro ⟨item, declares⟩
      obtain ⟨entry, member, rfl, -⟩ := entry_of_declares parsed declares
      exact List.mem_map_of_mem member
  · obtain ⟨named, listed⟩ := found looked
    obtain ⟨entry, member, same, flags⟩ := entry_of_declares parsed declares
    have entries := List.inj_on_of_nodup_map distinct member listed same
    rw [entries] at flags
    simp only [Scope.enforce_of_inactive ⟨catalog, tenant⟩ table inactive, named]
    cases flag : table.tenantScoped <;> simp [flag, flags]
  · obtain ⟨table, -, rfl⟩ := List.mem_map.mp (tables ▸ member)
    exact table.name.valid

/-- **A configuration fails closed.**  The catalog of a text that is a configuration serves the
tables that the text lists, and lets no table be used without a tenant unless its record says so.
A configuration has no catalog exactly where it is not valid, for the same fault, which is its
first. -/
theorem enforces_of_parse {text : String} {config : Config} (parsed : parse text = .ok config) :
    (∀ catalog, Catalog.ofConfig config = .ok catalog → Enforces text config catalog) ∧
      ∀ fault, (Catalog.ofConfig config = .error fault ↔ config.validate = .error fault) ∧
        (config.validate = .error fault ↔ FirstFault config fault) := by
  refine ⟨fun catalog => enforces_of_catalog parsed, fun fault =>
    ⟨?_, validate_eq_error_iff config fault⟩⟩
  rw [← Catalog.ofConfig_eq_validate]
  exact map_eq_error.symm

/-- Three tables: two of them say whether they belong to tenants, one as an object and one as an
array, and the third says nothing. -/
def shopText : String :=
  "\x7b\"tables\":[\x7b\"tenant_scoped\":false,\"name\":\"users\"\x7d,[\"shops\",false]," ++
    "\x7b\"name\":\"orders\"\x7d],\"max_limit\":50\x7d"

/-- The configuration that it is. -/
def shopConfig : Config :=
  { tables := [⟨"users", false⟩, ⟨"shops", false⟩, ⟨"orders", true⟩], maxLimit := 50 }

theorem enforces_of_parse_shop :
    ∃ catalog, parse shopText = .ok shopConfig ∧ Catalog.ofConfig shopConfig = .ok catalog ∧
      Enforces shopText shopConfig catalog ∧
      (catalog.lookup "shops").toOption.map Table.tenantScoped = some false ∧
      (catalog.lookup "orders").toOption.map Table.tenantScoped = some true := by
  have parsed : parse shopText = .ok shopConfig := by with_unfolding_all rfl
  obtain ⟨enforces, -⟩ := enforces_of_parse parsed
  exact ⟨_, parsed, rfl, enforces _ rfl, rfl, rfl⟩

end Config

end TableGate

import TableGate.Config.Basic

/-!
# The catalog

The tables that are served, resolved from a valid configuration: every name is an identifier, no
name is listed twice and a page has at least one row.  `ofConfig_eq_validate` says that a catalog
exists exactly where the configuration is valid, and that the fault is the same otherwise.
-/

namespace TableGate

/-- A table that is served. -/
structure Table where
  name : Ident
  tenantScoped : Bool
deriving DecidableEq, Repr

/-- The tables that are served, the column that holds the tenant, and the size of the largest
page. -/
structure Catalog where
  tables : List Table
  tenantColumn : Ident
  maxLimit : Nat
  names_nodup : (tables.map Table.name).Nodup
  maxLimit_pos : 0 < maxLimit

namespace Catalog

/-- The tables of a configuration, where the given names have been listed before. -/
def resolveTables (listed : List String) : List TableEntry → Except ConfigError (List Table)
  | [] => .ok []
  | entry :: rest =>
      match Ident.ofString? entry.name with
      | none => .error (.invalidTableName entry.name)
      | some name =>
          if entry.name ∈ listed then .error (.duplicateTable entry.name)
          else (resolveTables (entry.name :: listed) rest).map (⟨name, entry.tenantScoped⟩ :: ·)

/-- The resolved tables have names that differ from each other and from those listed before. -/
theorem resolveTables_names {listed : List String} {entries : List TableEntry} {tables : List Table}
    (resolved : resolveTables listed entries = .ok tables) :
    (tables.map Table.name).Nodup ∧ ∀ table ∈ tables, table.name.text ∉ listed := by
  induction entries generalizing listed tables with
  | nil =>
      simp only [resolveTables, Except.ok.injEq] at resolved
      subst resolved
      simp
  | cons entry rest ih =>
      rw [resolveTables] at resolved
      split at resolved
      · simp at resolved
      · next name read =>
          have text := Ident.text_of_ofString? read
          split at resolved
          · simp at resolved
          · next fresh =>
              cases inner : resolveTables (entry.name :: listed) rest with
              | error fault => simp [inner, Except.map] at resolved
              | ok more =>
                  simp only [inner, Except.map, Except.ok.injEq] at resolved
                  subst resolved
                  obtain ⟨distinct, apart⟩ := ih inner
                  refine ⟨?_, ?_⟩
                  · simp only [List.map_cons, List.nodup_cons, distinct, and_true]
                    intro member
                    obtain ⟨table, present, same⟩ := List.mem_map.mp member
                    refine apart table present ?_
                    simp [same, text]
                  · intro table member
                    rcases List.mem_cons.mp member with rfl | member
                    · simpa only [text] using fresh
                    · exact fun old => apart table member (List.mem_cons_of_mem _ old)

/-- The catalog of a configuration, or its first fault. -/
def ofConfig (config : Config) : Except ConfigError Catalog :=
  match resolved : resolveTables [] config.tables with
  | .error fault => .error fault
  | .ok tables =>
      match Ident.ofString? config.tenantColumn with
      | none => .error (.tenantColumn config.tenantColumn)
      | some column =>
          if positive : 0 < config.maxLimit then
            .ok ⟨tables, column, config.maxLimit, (resolveTables_names resolved).1, positive⟩
          else .error .zeroLimit

/-- The catalog of one table. -/
def ofTable (table : Table) : Catalog :=
  ⟨[table], ⟨"tenant_id", by decide⟩, 100, List.pairwise_singleton _ _, Nat.succ_pos 99⟩

def find? (catalog : Catalog) (name : String) : Option Table :=
  catalog.tables.find? fun table => table.name.text == name

/-- The table with the given name; only tables of the catalog are served. -/
def lookup (catalog : Catalog) (name : String) : Except Error Table :=
  match catalog.find? name with
  | some table => .ok table
  | none => .error (.unknownTable name)

def size (catalog : Catalog) : Nat := catalog.tables.length

/-- Tables are resolved exactly where they are valid, and with the same fault otherwise. -/
theorem resolveTables_eq_validateTables (listed : List String) (entries : List TableEntry) :
    (resolveTables listed entries).map (fun _ => ()) = Config.validateTables listed entries := by
  induction entries generalizing listed with
  | nil => rfl
  | cons entry rest ih =>
      rw [resolveTables, Config.validateTables, ← ih]
      by_cases valid : isIdentifier entry.name = true
      · by_cases old : entry.name ∈ listed
        · simp [Ident.ofString?, valid, old, Except.map]
        · simp only [Ident.ofString?, valid, ↓reduceDIte, old, ↓reduceIte, Bool.true_eq_false]
          cases resolveTables (entry.name :: listed) rest <;> rfl
      · simp [Ident.ofString?, valid, Except.map]

/-- A configuration has a catalog exactly where it is valid; otherwise the fault is the same. -/
theorem ofConfig_eq_validate (config : Config) :
    (ofConfig config).map (fun _ => ()) = config.validate := by
  unfold ofConfig Config.validate
  rw [← resolveTables_eq_validateTables]
  split
  · next fault resolved => simp [resolved, Except.map]
  · next tables resolved =>
      simp only [resolved, Except.map]
      by_cases valid : isIdentifier config.tenantColumn = true
      · by_cases positive : 0 < config.maxLimit
        · have nonzero : config.maxLimit ≠ 0 := by omega
          simp [Ident.ofString?, valid, positive, nonzero]
        · have zero : config.maxLimit = 0 := by omega
          simp [Ident.ofString?, valid, zero]
      · simp [Ident.ofString?, valid]

end Catalog

end TableGate

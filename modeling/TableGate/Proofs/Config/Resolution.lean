import Mathlib.Data.List.Nodup
import TableGate.Catalog
import TableGate.Proofs.Compile.Outcome

/-!
# Resolving a configuration

A configuration is refused for its first fault (`Config.validate_eq_error_iff`).  The catalog of a
valid one has its tables, one by one (`Catalog.ofConfig_eq_ok`), and finds them by their names
(`Catalog.lookup_eq_ok_iff`).
-/

namespace TableGate

/-! ### The first fault of a configuration -/

namespace Config

/-- Entries that may follow tables of the given names: each has an identifier as its name, and no
name is listed before. -/
def SoundAfter (listed : List String) (entries : List TableEntry) : Prop :=
  (∀ entry ∈ entries, isIdentifier entry.name = true ∧ entry.name ∉ listed) ∧
    (entries.map TableEntry.name).Nodup

/-- What is wrong with an entry that follows tables of the given names. -/
inductive EntryFault (listed : List String) (entry : TableEntry) : ConfigError → Prop
  | invalid (named : isIdentifier entry.name = false) :
      EntryFault listed entry (.invalidTableName entry.name)
  | duplicate (named : isIdentifier entry.name = true) (again : entry.name ∈ listed) :
      EntryFault listed entry (.duplicateTable entry.name)

/-- The first fault of a configuration: the first entry with a fault has it, or else the tenant
column, or else the limit. -/
inductive FirstFault (config : Config) : ConfigError → Prop
  | table {before after : List TableEntry} {entry : TableEntry} {fault : ConfigError}
      (tables : config.tables = before ++ entry :: after) (sound : SoundAfter [] before)
      (wrong : EntryFault (before.map TableEntry.name) entry fault) : FirstFault config fault
  | tenantColumn (sound : SoundAfter [] config.tables)
      (named : isIdentifier config.tenantColumn = false) :
      FirstFault config (.tenantColumn config.tenantColumn)
  | zeroLimit (sound : SoundAfter [] config.tables)
      (named : isIdentifier config.tenantColumn = true) (zero : config.maxLimit = 0) :
      FirstFault config .zeroLimit

variable {listed : List String} {entry : TableEntry} {entries : List TableEntry}
  {fault : ConfigError}

theorem soundAfter_cons :
    SoundAfter listed (entry :: entries) ↔
      (isIdentifier entry.name = true ∧ entry.name ∉ listed) ∧
        SoundAfter (entry.name :: listed) entries := by
  rw [SoundAfter, List.forall_mem_cons, List.map_cons, List.nodup_cons, SoundAfter]
  constructor
  · rintro ⟨⟨first, later⟩, absent, distinct⟩
    refine ⟨first, fun other member => ⟨(later other member).1, fun again => ?_⟩, distinct⟩
    rcases List.mem_cons.mp again with same | old
    · exact absent (same ▸ List.mem_map_of_mem member)
    · exact (later other member).2 old
  · rintro ⟨first, later, distinct⟩
    refine ⟨⟨first, fun other member => ⟨(later other member).1, fun old =>
      (later other member).2 (List.mem_cons_of_mem _ old)⟩⟩, fun again => ?_, distinct⟩
    obtain ⟨other, member, same⟩ := List.mem_map.mp again
    exact (later other member).2 (same ▸ List.mem_cons_self)

/-- What is wrong with an entry depends on which names are listed, not on their order. -/
theorem EntryFault.of_same {others : List String} (wrong : EntryFault listed entry fault)
    (same : ∀ name, name ∈ listed → name ∈ others) : EntryFault others entry fault := by
  cases wrong with
  | invalid named => exact .invalid named
  | duplicate named again => exact .duplicate named (same _ again)

theorem validateTables_eq_ok_iff :
    validateTables listed entries = .ok () ↔ SoundAfter listed entries := by
  induction entries generalizing listed with
  | nil => simp [validateTables, SoundAfter]
  | cons entry rest ih =>
      rw [validateTables, soundAfter_cons, ← ih]
      split
      · next invalid => simp [invalid]
      · next valid =>
          split
          · next old => simp [old]
          · next fresh => simp [fresh, (Bool.not_eq_false _).mp valid]

theorem validateTables_eq_error_iff :
    validateTables listed entries = .error fault ↔
      ∃ before entry after, entries = before ++ entry :: after ∧ SoundAfter listed before ∧
        EntryFault (before.map TableEntry.name ++ listed) entry fault := by
  induction entries generalizing listed with
  | nil => simp [validateTables]
  | cons first rest ih =>
      have here (wrong : EntryFault listed first fault) :
          ∃ before entry after, first :: rest = before ++ entry :: after ∧
            SoundAfter listed before ∧
              EntryFault (before.map TableEntry.name ++ listed) entry fault :=
        ⟨[], first, rest, rfl, ⟨List.forall_mem_nil _, .nil⟩, wrong⟩
      constructor
      · intro refused
        rw [validateTables] at refused
        split at refused
        · next invalid =>
            cases refused
            exact here (.invalid invalid)
        · next valid =>
            have named := (Bool.not_eq_false _).mp valid
            split at refused
            · next old =>
                cases refused
                exact here (.duplicate named old)
            · next fresh =>
                obtain ⟨before, entry, after, rfl, sound, wrong⟩ := ih.mp refused
                refine ⟨first :: before, entry, after, rfl,
                  soundAfter_cons.mpr ⟨⟨named, fresh⟩, sound⟩, wrong.of_same fun name member => ?_⟩
                simpa [or_left_comm] using member
      · rintro ⟨before, entry, after, shape, sound, wrong⟩
        rw [validateTables]
        cases before with
        | nil =>
            obtain ⟨rfl, rfl⟩ := List.cons.inj shape
            cases wrong with
            | invalid named => rw [if_pos named]
            | duplicate named again => rw [if_neg (by simp [named]), if_pos (by simpa using again)]
        | cons head before =>
            obtain ⟨rfl, rfl⟩ := List.cons.inj shape
            obtain ⟨⟨named, fresh⟩, sound⟩ := soundAfter_cons.mp sound
            rw [if_neg (by simp [named]), if_neg fresh]
            refine ih.mpr ⟨before, entry, after, rfl, sound, wrong.of_same fun name member => ?_⟩
            simpa [or_left_comm] using member

/-- A configuration is refused exactly for its first fault. -/
theorem validate_eq_error_iff (config : Config) (fault : ConfigError) :
    config.validate = .error fault ↔ FirstFault config fault := by
  unfold validate
  constructor
  · intro refused
    split at refused
    · next wrong =>
        cases refused
        obtain ⟨before, entry, after, tables, sound, wrong⟩ := validateTables_eq_error_iff.mp wrong
        exact .table tables sound (wrong.of_same fun name member => by simpa using member)
    · next valid =>
        have sound := validateTables_eq_ok_iff.mp valid
        split at refused
        · next invalid =>
            cases refused
            exact .tenantColumn sound invalid
        · next named =>
            split at refused
            · next zero =>
                cases refused
                exact .zeroLimit sound ((Bool.not_eq_false _).mp named) zero
            · cases refused
  · intro first
    cases first with
    | table tables sound wrong =>
        rw [validateTables_eq_error_iff.mpr ⟨_, _, _, tables, sound,
          wrong.of_same fun name member => List.mem_append_left [] member⟩]
    | tenantColumn sound named =>
        rw [validateTables_eq_ok_iff.mpr sound]
        simp [named]
    | zeroLimit sound named zero =>
        rw [validateTables_eq_ok_iff.mpr sound]
        simp [named, zero]

end Config

/-! ### The catalog of a configuration -/

/-- The entry that a table is resolved from. -/
def Table.entry (table : Table) : TableEntry := ⟨table.name.text, table.tenantScoped⟩

namespace Catalog

variable {catalog : Catalog} {config : Config} {name : String} {table : Table}

/-- Tables are resolved one by one from their entries. -/
theorem entries_of_resolveTables {listed : List String} {entries : List TableEntry}
    {tables : List Table} (resolved : resolveTables listed entries = .ok tables) :
    entries = tables.map Table.entry := by
  induction entries generalizing listed tables with
  | nil =>
      cases resolved
      rfl
  | cons entry rest ih =>
      rw [resolveTables] at resolved
      split at resolved
      · cases resolved
      · next name read =>
          split at resolved
          · cases resolved
          · obtain ⟨more, inner, rfl⟩ := map_eq_ok.mp resolved
            rw [List.map_cons, ← ih inner]
            unfold Table.entry
            rw [Ident.text_of_ofString? read]

/-- A catalog has the tables, the tenant column and the limit of its configuration. -/
theorem ofConfig_eq_ok (resolved : ofConfig config = .ok catalog) :
    config.tables = catalog.tables.map Table.entry ∧
      config.tenantColumn = catalog.tenantColumn.text ∧ config.maxLimit = catalog.maxLimit := by
  unfold ofConfig at resolved
  split at resolved
  · cases resolved
  · next tables found =>
      split at resolved
      · cases resolved
      · next column read =>
          split at resolved
          · cases resolved
            exact ⟨entries_of_resolveTables found, (Ident.text_of_ofString? read).symm, rfl⟩
          · cases resolved

/-- The names of the tables, as texts, differ from each other. -/
theorem nodup_names (catalog : Catalog) :
    ((catalog.tables.map Table.entry).map TableEntry.name).Nodup := by
  have texts : (catalog.tables.map Table.entry).map TableEntry.name =
      (catalog.tables.map Table.name).map Ident.text := by
    simp only [List.map_map]
    rfl
  rw [texts]
  exact catalog.names_nodup.map fun _ _ same => Ident.eq_of_text same

/-- The tables that are found are those of the catalog, by their names. -/
theorem lookup_eq_ok_iff :
    catalog.lookup name = .ok table ↔ table ∈ catalog.tables ∧ table.name.text = name := by
  have search : catalog.lookup name = .ok table ↔ catalog.find? name = some table := by
    unfold lookup
    cases catalog.find? name <;> simp
  rw [search, find?]
  constructor
  · intro found
    exact ⟨List.mem_of_find?_eq_some found, by simpa using List.find?_some found⟩
  · rintro ⟨member, rfl⟩
    cases found : catalog.tables.find? fun other => other.name.text == table.name.text with
    | none => exact absurd (List.find?_eq_none.mp found table member) (by simp)
    | some other =>
        have same : other.name = table.name :=
          Ident.eq_of_text (by simpa using List.find?_some found)
        exact congrArg some
          (List.inj_on_of_nodup_map catalog.names_nodup (List.mem_of_find?_eq_some found) member
            same)

/-- A name that is no table's is told to be unknown. -/
theorem lookup_eq_error_iff :
    catalog.lookup name = .error (.unknownTable name) ↔
      ∀ table, catalog.lookup name ≠ .ok table := by
  unfold lookup
  cases catalog.find? name <;> simp

end Catalog

end TableGate

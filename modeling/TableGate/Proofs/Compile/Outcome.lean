import Mathlib.Data.List.Forall2
import TableGate.Compile.Read
import TableGate.Compile.Write

/-!
# What compilation gives

A compilation that succeeds has passed each of its steps.  For each of the five compilers one fact
says which steps those are and how the statement is put together from their results
(`select_eq_ok`, `selectByKeys_eq_ok`, `insert_eq_ok`, `update_eq_ok`, `delete_eq_ok`).  What the
five have in common is said of their calls (`Call.compile`).
-/

namespace TableGate

/-! ### Steps -/

theorem bind_eq_ok {ε α β : Type} {first : Except ε α} {next : α → Except ε β} {result : β} :
    (first >>= next) = .ok result ↔ ∃ value, first = .ok value ∧ next value = .ok result := by
  cases first with
  | error error => exact ⟨nofun, nofun⟩
  | ok value =>
      constructor
      · intro same
        exact ⟨value, rfl, same⟩
      · rintro ⟨other, same, rest⟩
        cases same
        exact rest

theorem map_eq_ok {ε α β : Type} {change : α → β} {first : Except ε α} {result : β} :
    first.map change = .ok result ↔ ∃ value, first = .ok value ∧ change value = result := by
  cases first with
  | error error => simp [Except.map]
  | ok value => simp [Except.map]

theorem bind_eq_error {ε α β : Type} {first : Except ε α} {next : α → Except ε β} {error : ε} :
    (first >>= next) = .error error ↔
      first = .error error ∨ ∃ value, first = .ok value ∧ next value = .error error := by
  cases first with
  | error cause => simp [bind, Except.bind]
  | ok value => simp [bind, Except.bind]

theorem map_eq_error {ε α β : Type} {change : α → β} {first : Except ε α} {error : ε} :
    first.map change = .error error ↔ first = .error error := by
  cases first <;> simp [Except.map]

/-- What is seen of a result is seen of a step that has succeeded. -/
theorem exists_ok_of_toOption {ε α β : Type} {view : α → β} {first : Except ε α} {result : β}
    (seen : (first.map view).toOption = some result) :
    ∃ value, first = .ok value ∧ view value = result := by
  cases first with
  | error error => exact absurd seen nofun
  | ok value => exact ⟨value, rfl, Option.some.inj seen⟩

/-- A step whose check refuses does not succeed. -/
theorem guard_eq_ok {ε α : Type} {refused : Prop} [Decidable refused] {error : ε}
    {next : Except ε α} {result : α} :
    (do if refused then throw error
        next) = .ok result ↔ ¬ refused ∧ next = .ok result := by
  by_cases check : refused
  · simp [check, throw, throwThe, MonadExceptOf.throw, bind, Except.bind]
  · simp [check]

theorem mem_of_mapM {ε α β : Type} {step : α → Except ε β} {items : List α} {results : List β}
    (done : items.mapM step = .ok results) {result : β} (member : result ∈ results) :
    ∃ item ∈ items, step item = .ok result := by
  induction items generalizing results with
  | nil =>
      rw [List.mapM_nil] at done
      cases done
      exact absurd member List.not_mem_nil
  | cons item rest ih =>
      rw [List.mapM_cons] at done
      obtain ⟨first, read, others⟩ := bind_eq_ok.mp done
      obtain ⟨more, readMore, shape⟩ := bind_eq_ok.mp others
      cases shape
      rcases List.mem_cons.mp member with rfl | later
      · exact ⟨item, List.mem_cons_self, read⟩
      · obtain ⟨found, present, same⟩ := ih readMore later
        exact ⟨found, List.mem_cons_of_mem _ present, same⟩

/-- Items are read into results exactly where each of them is read into its own. -/
theorem mapM_eq_some_iff {α β : Type} {read : α → Option β} {items : List α} {results : List β} :
    items.mapM read = some results ↔ items.map read = results.map some := by
  induction items generalizing results with
  | nil =>
      rw [List.mapM_nil]
      cases results with
      | nil => exact ⟨fun _ => rfl, fun _ => rfl⟩
      | cons result rest => exact ⟨nofun, nofun⟩
  | cons item rest ih =>
      rw [List.mapM_cons, List.map_cons]
      constructor
      · intro done
        obtain ⟨first, read, others⟩ := Option.bind_eq_some_iff.mp done
        obtain ⟨more, readMore, shape⟩ := Option.bind_eq_some_iff.mp others
        cases shape
        rw [List.map_cons, read, ih.mp readMore]
      · intro same
        cases results with
        | nil => exact absurd same nofun
        | cons result results =>
            obtain ⟨head, tail⟩ := List.cons.inj same
            rw [head, ih.mpr tail]
            rfl

/-- Items are read one by one, each into its own result. -/
theorem mapM_eq_ok_iff {ε α β : Type} {step : α → Except ε β} {items : List α} {results : List β} :
    items.mapM step = .ok results ↔
      List.Forall₂ (fun item result => step item = .ok result) items results := by
  induction items generalizing results with
  | nil =>
      rw [List.mapM_nil, List.forall₂_nil_left_iff]
      exact ⟨fun done => (Except.ok.inj done).symm, fun empty => empty ▸ rfl⟩
  | cons item rest ih =>
      rw [List.mapM_cons, List.forall₂_cons_left_iff, bind_eq_ok]
      constructor
      · rintro ⟨first, read, others⟩
        obtain ⟨more, readMore, shape⟩ := bind_eq_ok.mp others
        cases shape
        exact ⟨first, more, read, ih.mp readMore, rfl⟩
      · rintro ⟨first, more, read, others, rfl⟩
        exact ⟨first, read, bind_eq_ok.mpr ⟨more, ih.mpr others, rfl⟩⟩

/-- A predicate that compares with one value at most. -/
def Sql.Predicate.IsFlat : Sql.Predicate → Prop
  | .within _ _ => False
  | _ => True

/-- A condition with no list of values among its alternatives. -/
def Sql.Condition.IsFlat : Sql.Condition → Prop
  | .single _ => True
  | .anyOf alternatives => ∀ alternative ∈ alternatives, alternative.IsFlat

namespace Compile

variable {scope : Scope} {table : Table} {projection : Projection} {query : Query}

theorem Outcome.toExcept_eq_ok {α : Type} {outcome : Outcome α} {value : α} :
    outcome.toExcept = .ok value ↔ outcome = .ok value := by
  cases outcome <;> simp

theorem Outcome.ofCheck_eq_ok {α : Type} {check : Except Error α} {value : α} :
    Outcome.ofCheck check = .ok value ↔ check = .ok value := by
  cases check <;> simp

theorem Outcome.toExcept_eq_error {α : Type} {outcome : Outcome α} {error : Error} :
    outcome.toExcept = .error error ↔
      ∃ refusal, outcome = .error refusal ∧ refusal.error = error := by
  cases outcome <;> simp

theorem Outcome.ofCheck_eq_error {α : Type} {check : Except Error α} {refusal : Refusal} :
    Outcome.ofCheck check = .error refusal ↔
      ∃ error, check = .error error ∧ .of error = refusal := by
  cases check <;> simp

theorem Outcome.after_eq_ok {α : Type} {bound : List Datum} {outcome : Outcome α} {value : α} :
    Outcome.after bound outcome = .ok value ↔ outcome = .ok value := by
  cases outcome <;> simp

/-- Whatever a list is accepted as, one of its items has been accepted as. -/
theorem mem_of_acceptAll {α β : Type} {values : β → List Datum} {accept : α → Outcome (Option β)}
    {items : List α} {results : List β} (accepted : acceptAll values accept items = .ok results)
    {result : β} (member : result ∈ results) : ∃ item ∈ items, accept item = .ok (some result) := by
  induction items generalizing results with
  | nil =>
      cases accepted
      exact absurd member List.not_mem_nil
  | cons item rest ih =>
      have later {others : List β} (inner : acceptAll values accept rest = .ok others)
          (within : result ∈ others) :
          ∃ found ∈ item :: rest, accept found = .ok (some result) := by
        obtain ⟨found, present, same⟩ := ih inner within
        exact ⟨found, List.mem_cons_of_mem _ present, same⟩
      rw [acceptAll] at accepted
      cases outcome : accept item with
      | error refusal => simp [outcome] at accepted
      | ok kept =>
          cases kept with
          | none =>
              simp only [outcome] at accepted
              exact later accepted member
          | some head =>
              simp only [outcome] at accepted
              obtain ⟨others, inner, rfl⟩ := map_eq_ok.mp accepted
              rcases List.mem_cons.mp member with rfl | within
              · exact ⟨item, List.mem_cons_self, outcome⟩
              · exact later (Outcome.after_eq_ok.mp inner) within

/-- A list is accepted only if each of its items is accepted or left out. -/
theorem accepted_of_mem {α β : Type} {values : β → List Datum} {accept : α → Outcome (Option β)}
    {items : List α} {results : List β} (accepted : acceptAll values accept items = .ok results)
    {item : α} (member : item ∈ items) : ∃ kept, accept item = .ok kept := by
  induction items generalizing results with
  | nil => exact absurd member List.not_mem_nil
  | cons first rest ih =>
      rw [acceptAll] at accepted
      cases outcome : accept first with
      | error refusal => simp [outcome] at accepted
      | ok kept =>
          rcases List.mem_cons.mp member with rfl | later
          · exact ⟨kept, outcome⟩
          · cases kept with
            | none =>
                simp only [outcome] at accepted
                exact ih accepted later
            | some head =>
                simp only [outcome] at accepted
                obtain ⟨others, inner, -⟩ := map_eq_ok.mp accepted
                exact ih (Outcome.after_eq_ok.mp inner) later

/-- A list is refused for the reason for which one of its items is. -/
theorem mem_of_refused {α β : Type} {values : β → List Datum} {accept : α → Outcome (Option β)}
    {items : List α} {refusal : Refusal}
    (refused : acceptAll values accept items = .error refusal) :
    ∃ item ∈ items, ∃ cause, accept item = .error cause ∧ cause.error = refusal.error := by
  induction items generalizing refusal with
  | nil => exact absurd refused nofun
  | cons first rest ih =>
      rw [acceptAll] at refused
      cases outcome : accept first with
      | error cause =>
          simp only [outcome, Except.error.injEq] at refused
          exact ⟨first, List.mem_cons_self, cause, outcome, congrArg Refusal.error refused⟩
      | ok kept =>
          cases inner : acceptAll values accept rest with
          | error cause =>
              obtain ⟨item, member, found, refuses, same⟩ := ih inner
              refine ⟨item, List.mem_cons_of_mem _ member, found, refuses, same.trans ?_⟩
              cases kept with
              | none =>
                  simp only [outcome, inner, Except.error.injEq] at refused
                  rw [refused]
              | some head =>
                  simp only [outcome, inner, Outcome.after_error, Except.map,
                    Except.error.injEq] at refused
                  rw [← refused]
          | ok results =>
              cases kept <;> simp [outcome, inner, Except.map] at refused

end Compile

/-- The check of a table's tenant gives no predicate for a shared table, and otherwise that of the
active tenant. -/
theorem Scope.enforce_eq_ok {scope : Scope} {table : Table} {tenant : Option TenantPredicate}
    (enforced : scope.enforce table = .ok tenant) :
    (table.tenantScoped = false ∧ tenant = none) ∨
      (table.tenantScoped = true ∧ ∃ tenantId, scope.tenant.active? = some tenantId ∧
        tenant = some ⟨scope.catalog.tenantColumn, tenantId⟩) := by
  unfold Scope.enforce at enforced
  split at enforced
  · next owned =>
      cases active : scope.tenant.active? with
      | none => simp [active] at enforced
      | some tenantId =>
          simp only [active, Except.ok.injEq] at enforced
          exact .inr ⟨owned, tenantId, rfl, enforced.symm⟩
  · next shared =>
      simp only [Except.ok.injEq] at enforced
      exact .inl ⟨(Bool.not_eq_true _).mp shared, enforced.symm⟩

theorem Scope.enforce_eq_error {scope : Scope} {table : Table} {error : Error}
    (refused : scope.enforce table = .error error) :
    table.tenantScoped = true ∧ scope.tenant.active? = none ∧
      error = .tenantRequired table.name.text := by
  unfold Scope.enforce at refused
  split at refused
  · next owned =>
      cases active : scope.tenant.active? with
      | none =>
          simp only [active, Except.error.injEq] at refused
          exact ⟨owned, rfl, refused.symm⟩
      | some tenantId => simp [active] at refused
  · exact absurd refused nofun

theorem find?_of_table {scope : Scope} {name : String} {table : Table}
    (found : scope.table name = .ok table) : scope.catalog.find? name = some table := by
  unfold Scope.table Catalog.lookup at found
  split at found
  · next search =>
      cases found
      exact search
  · exact absurd found nofun

namespace Compile

variable {scope : Scope} {table : Table} {projection : Projection} {query : Query}

/-! ### Compilers -/

theorem selection_eq_ok {selection : Sql.Selection}
    (compiled : Compile.selection scope table projection = .ok selection) :
    ∃ joins, selection = ⟨table.name, projection.allColumns, projection.columns, joins⟩ ∧
      ∀ join ∈ joins, ∃ relation ∈ projection.relations,
        Compile.join scope relation = .ok join := by
  obtain ⟨joins, accepted, rfl⟩ := map_eq_ok.mp compiled
  refine ⟨joins, rfl, ?_⟩
  intro join member
  obtain ⟨relation, present, same⟩ := mem_of_acceptAll accepted member
  obtain ⟨found, resolved, shape⟩ := map_eq_ok.mp same
  cases shape
  exact ⟨relation, present, Outcome.ofCheck_eq_ok.mp resolved⟩

theorem join_eq_ok {relation : Relation} {join : Sql.Join}
    (resolved : Compile.join scope relation = .ok join) :
    ∃ target tenant, scope.table relation.target.text = .ok target ∧
      scope.enforce target = .ok tenant ∧
      join = ⟨{ relation with target := target.name }, tenant⟩ := by
  obtain ⟨target, found, rest⟩ := bind_eq_ok.mp resolved
  obtain ⟨tenant, enforced, shape⟩ := bind_eq_ok.mp rest
  cases shape
  exact ⟨target, tenant, found, enforced, rfl⟩

theorem select_eq_ok {statement : Sql.Select}
    (compiled : select scope table projection query = .ok statement) :
    ∃ tenant selection filters order, scope.enforce table = .ok tenant ∧
      Compile.selection scope table projection = .ok selection ∧
      Compile.filters (some table.name) query.pairs = .ok filters ∧
      Compile.order query = .ok order ∧
      statement =
        ⟨selection, tenant, filters, order, some (page scope.catalog.maxLimit query)⟩ := by
  obtain ⟨tenant, enforced, rest⟩ := bind_eq_ok.mp compiled
  obtain ⟨selection, resolved, rest⟩ := bind_eq_ok.mp rest
  obtain ⟨filters, filtered, rest⟩ := bind_eq_ok.mp rest
  obtain ⟨order, ordered, shape⟩ := bind_eq_ok.mp rest
  cases shape
  exact ⟨tenant, selection, filters, order, enforced, Outcome.toExcept_eq_ok.mp resolved,
    Outcome.toExcept_eq_ok.mp filtered, ordered, rfl⟩

theorem selectByKeys_eq_ok {keys : List Datum} {statement : Sql.Select}
    (compiled : selectByKeys scope table projection keys = .ok statement) :
    ∃ tenant selection, scope.enforce table = .ok tenant ∧
      Compile.selection scope table projection = .ok selection ∧
      statement = { selection, tenant,
                    filters := [.single (.within ⟨some table.name, .id⟩ keys)] } := by
  obtain ⟨tenant, enforced, rest⟩ := bind_eq_ok.mp compiled
  obtain ⟨selection, resolved, shape⟩ := bind_eq_ok.mp rest
  cases shape
  exact ⟨tenant, selection, enforced, Outcome.toExcept_eq_ok.mp resolved, rfl⟩

/-- The target of a relation cannot be used: it is no table, or belongs to tenants and there is no
active one. -/
def IsRefused (scope : Scope) (relation : Relation) : Prop :=
  scope.catalog.find? relation.target.text = none ∨
    ∃ target, scope.catalog.find? relation.target.text = some target ∧
      target.tenantScoped = true ∧ scope.tenant.active? = none

/-- A relation is refused for its target only. -/
theorem join_eq_error {relation : Relation} {error : Error}
    (refused : Compile.join scope relation = .error error) :
    IsRefused scope relation ∧ error.code ∈ ["unknown_table", "tenant_required"] := by
  rcases bind_eq_error.mp refused with missing | ⟨target, found, rest⟩
  · unfold Scope.table Catalog.lookup at missing
    split at missing
    · exact absurd missing nofun
    · next search =>
        cases missing
        exact ⟨.inl search, List.mem_cons_self⟩
  · rcases bind_eq_error.mp rest with inactive | ⟨tenant, -, shape⟩
    · obtain ⟨owned, none, rfl⟩ := Scope.enforce_eq_error inactive
      exact ⟨.inr ⟨target, find?_of_table found, owned, none⟩,
        List.mem_cons_of_mem _ List.mem_cons_self⟩
    · exact absurd shape nofun

theorem join_ne_ok_of_isRefused {relation : Relation} (refused : IsRefused scope relation)
    (join : Sql.Join) : Compile.join scope relation ≠ .ok join := by
  intro resolved
  obtain ⟨target, tenant, found, enforced, -⟩ := join_eq_ok resolved
  have search := find?_of_table found
  rcases refused with missing | ⟨other, present, owned, inactive⟩
  · rw [missing] at search
    exact absurd search nofun
  · obtain rfl := Option.some.inj (present.symm.trans search)
    rcases Scope.enforce_eq_ok enforced with ⟨shared, -⟩ | ⟨-, tenantId, active, -⟩
    · rw [owned] at shared
      exact absurd shared nofun
    · rw [inactive] at active
      exact absurd active nofun

/-- Rows of a table that may be used can be read by their keys unless a relation is refused, and
then the error says so. -/
theorem selectByKeys_eq_error {keys : List Datum} {error : Error}
    {tenant : Option TenantPredicate} (enforced : scope.enforce table = .ok tenant)
    (refused : selectByKeys scope table projection keys = .error error) :
    (∃ relation ∈ projection.relations, IsRefused scope relation) ∧
      error.code ∈ ["unknown_table", "tenant_required"] := by
  rcases bind_eq_error.mp refused with barred | ⟨predicate, -, rest⟩
  · rw [enforced] at barred
    exact absurd barred nofun
  · rcases bind_eq_error.mp rest with unresolved | ⟨selection, -, shape⟩
    · obtain ⟨refusal, resolved, rfl⟩ := Outcome.toExcept_eq_error.mp unresolved
      obtain ⟨relation, member, cause, refuses, reason⟩ := mem_of_refused (map_eq_error.mp resolved)
      obtain ⟨error, joined, rfl⟩ := Outcome.ofCheck_eq_error.mp (map_eq_error.mp refuses)
      obtain ⟨isRefused, named⟩ := join_eq_error joined
      refine ⟨⟨relation, member, isRefused⟩, ?_⟩
      rw [← reason]
      exact named
    · exact absurd shape nofun

theorem selectByKeys_ne_ok {keys : List Datum} {relation : Relation}
    (member : relation ∈ projection.relations) (refused : IsRefused scope relation)
    (statement : Sql.Select) : selectByKeys scope table projection keys ≠ .ok statement := by
  intro compiled
  obtain ⟨tenant, selection, -, resolved, -⟩ := selectByKeys_eq_ok compiled
  obtain ⟨joins, accepted, -⟩ := map_eq_ok.mp resolved
  obtain ⟨kept, kept_ok⟩ := accepted_of_mem accepted member
  obtain ⟨join, joined, -⟩ := map_eq_ok.mp kept_ok
  exact join_ne_ok_of_isRefused refused join (Outcome.ofCheck_eq_ok.mp joined)

theorem requiredFilters_eq_ok {action : String} {filters : List Sql.Condition}
    (compiled : requiredFilters action query = .ok filters) :
    equalityFilters none query.pairs = .ok filters ∧ filters ≠ [] := by
  obtain ⟨found, accepted, rest⟩ := bind_eq_ok.mp compiled
  obtain ⟨present, shape⟩ := guard_eq_ok.mp rest
  cases shape
  refine ⟨Outcome.toExcept_eq_ok.mp accepted, ?_⟩
  simpa using present

theorem update_eq_ok {patch : Record} {statement : Sql.Update}
    (compiled : update scope table patch query = .ok statement) :
    ∃ tenant fields filters, scope.enforce table = .ok tenant ∧
      assignments tenant false patch = .ok fields ∧
      equalityFilters none query.pairs = .ok filters ∧ filters ≠ [] ∧
      statement =
        ⟨table.name, fields.filter fun (column, _) => column != .id, tenant, filters⟩ := by
  obtain ⟨tenant, enforced, rest⟩ := bind_eq_ok.mp compiled
  obtain ⟨fields, read, rest⟩ := bind_eq_ok.mp rest
  obtain ⟨-, rest⟩ := guard_eq_ok.mp rest
  obtain ⟨filters, required, shape⟩ := bind_eq_ok.mp rest
  cases shape
  obtain ⟨accepted, someFilter⟩ := requiredFilters_eq_ok required
  exact ⟨tenant, fields, filters, enforced, read, accepted, someFilter, rfl⟩

theorem delete_eq_ok {statement : Sql.Delete}
    (compiled : delete scope table query = .ok statement) :
    ∃ tenant filters, scope.enforce table = .ok tenant ∧
      equalityFilters none query.pairs = .ok filters ∧ filters ≠ [] ∧
      statement = ⟨table.name, tenant, filters⟩ := by
  obtain ⟨tenant, enforced, rest⟩ := bind_eq_ok.mp compiled
  obtain ⟨filters, required, shape⟩ := bind_eq_ok.mp rest
  cases shape
  obtain ⟨accepted, someFilter⟩ := requiredFilters_eq_ok required
  exact ⟨tenant, filters, enforced, accepted, someFilter, rfl⟩

theorem insert_eq_ok {records : List Record} {statement : Sql.Insert}
    (compiled : insert scope table records = .ok statement) :
    ∃ tenant rows, scope.enforce table = .ok tenant ∧
      records ≠ [] ∧ records.mapM (rowAssignments tenant) = .ok rows ∧
      statement = ⟨table.name, firstSeen [] (rows.flatMap fun row => row.map (·.1)),
        rows.map fun row =>
          (firstSeen [] (rows.flatMap fun row => row.map (·.1))).map fun column =>
            row.lookup column⟩ := by
  obtain ⟨tenant, enforced, rest⟩ := bind_eq_ok.mp compiled
  obtain ⟨present, rest⟩ := guard_eq_ok.mp rest
  obtain ⟨rows, read, rest⟩ := bind_eq_ok.mp rest
  obtain ⟨-, shape⟩ := guard_eq_ok.mp rest
  cases shape
  exact ⟨tenant, rows, enforced, by simpa using present, read, rfl⟩

/-! ### Columns of a write -/

/-- The column of the tenant is never assigned from a record. -/
theorem ne_of_mem_assignments {predicate : TenantPredicate} {dropNulls : Bool} {record : Record}
    {assigned : List (Ident × Datum)}
    (read : assignments (some predicate) dropNulls record = .ok assigned) :
    ∀ entry ∈ assigned, entry.1 ≠ predicate.column := by
  obtain ⟨named, -, shape⟩ := bind_eq_ok.mp read
  cases shape
  intro entry member
  obtain ⟨kept, present, rfl⟩ := List.mem_map.mp member
  have other := (List.mem_filter.mp present).2
  simp only [Option.map_some, Bool.and_eq_true, bne_iff_ne, ne_eq, Option.some.injEq] at other
  exact fun same => other.2 same.symm

section

variable {α : Type} [DecidableEq α] {items seen : List α} {item : α}

theorem nodup_firstSeen (distinct : seen.Nodup) : (firstSeen seen items).Nodup := by
  induction items generalizing seen with
  | nil => exact distinct
  | cons next rest ih =>
      rw [firstSeen, List.foldl_cons]
      split
      · exact ih distinct
      · next fresh =>
          apply ih
          rw [List.nodup_append]
          refine ⟨distinct, List.nodup_cons.mpr ⟨List.not_mem_nil, List.nodup_nil⟩, ?_⟩
          intro old member other same
          cases List.mem_singleton.mp same
          rintro rfl
          exact fresh member

theorem mem_firstSeen : item ∈ firstSeen seen items ↔ item ∈ seen ∨ item ∈ items := by
  induction items generalizing seen with
  | nil => simp [firstSeen]
  | cons next rest ih =>
      rw [firstSeen, List.foldl_cons]
      split
      · next old =>
          rw [← firstSeen, ih, List.mem_cons]
          constructor
          · exact Or.imp_right .inr
          · rintro (before | rfl | later)
            · exact .inl before
            · exact .inl old
            · exact .inr later
      · rw [← firstSeen, ih, List.mem_append, List.mem_singleton, List.mem_cons, or_assoc]

end

/-- The rows of a tenant's table end with the tenant, whose column the record cannot name. -/
theorem rowAssignments_eq_ok {predicate : TenantPredicate} {record : Record}
    {row : List (Ident × Datum)} (read : rowAssignments (some predicate) record = .ok row) :
    row.lookup predicate.column = some predicate.value := by
  obtain ⟨fields, assigned, shape⟩ := bind_eq_ok.mp read
  cases shape
  have absent : fields.lookup predicate.column = none := by
    rw [List.lookup_eq_none_iff]
    intro entry member
    exact bne_iff_ne.mpr (ne_of_mem_assignments assigned entry member).symm
  rw [List.lookup_append, absent]
  simp

/-! ### Filters -/

/-- The pieces of a group of alternatives. -/
def groupPieces (value : String) : List (List Char) :=
  Text.splitTopLevel (Text.inner '(' ')' (Text.trim value.toList))

variable {qualifier : Option Ident} {condition : Sql.Condition}
  {parameters : List (String × String)} {conditions : List Sql.Condition}

/-- A group is the predicates of the filters that its pieces are read as. -/
theorem group_eq_some {value : String} (compiled : group qualifier value = .ok (some condition)) :
    ∃ alternatives, condition = .anyOf alternatives ∧
      ∀ alternative ∈ alternatives, ∃ piece ∈ groupPieces value, ∃ filter,
        Filter.ofAlternative piece = .ok (some filter) ∧
          alternative = filter.predicate qualifier := by
  obtain ⟨alternatives, accepted, shape⟩ := map_eq_ok.mp compiled
  split at shape
  · exact absurd shape nofun
  · cases shape
    refine ⟨alternatives, rfl, fun alternative member => ?_⟩
    obtain ⟨piece, listed, read⟩ := mem_of_acceptAll accepted member
    obtain ⟨found, checked, same⟩ := map_eq_ok.mp read
    obtain ⟨filter, rfl, rfl⟩ := Option.map_eq_some_iff.mp same
    exact ⟨piece, listed, filter, Outcome.ofCheck_eq_ok.mp checked, rfl⟩

/-- A condition of a read is a group, or the predicate of the filter of a parameter. -/
theorem mem_of_filters (compiled : filters qualifier parameters = .ok conditions)
    (member : condition ∈ conditions) :
    ∃ parameter ∈ parameters,
      parameter.1 = "or" ∧ group qualifier parameter.2 = .ok (some condition) ∨
        ¬ Query.isReserved parameter.1 = true ∧ ∃ filter,
          Filter.ofParameter parameter.1 parameter.2 = .ok (some filter) ∧
            condition = .single (filter.predicate qualifier) := by
  obtain ⟨parameter, listed, accepted⟩ := mem_of_acceptAll compiled member
  refine ⟨parameter, listed, ?_⟩
  unfold readFilter at accepted
  split at accepted
  · next alternatives => exact .inl ⟨alternatives, accepted⟩
  · split at accepted
    · exact absurd accepted nofun
    · next plain =>
        obtain ⟨found, checked, same⟩ := map_eq_ok.mp accepted
        obtain ⟨filter, rfl, rfl⟩ := Option.map_eq_some_iff.mp same
        exact .inr ⟨plain, filter, Outcome.ofCheck_eq_ok.mp checked, rfl⟩

/-- A condition of a write is the predicate of the filter of a parameter. -/
theorem mem_of_equalityFilters (compiled : equalityFilters qualifier parameters = .ok conditions)
    (member : condition ∈ conditions) :
    ∃ parameter ∈ parameters, ¬ Query.isReserved parameter.1 = true ∧ ∃ filter,
      Filter.ofParameter parameter.1 parameter.2 = .ok (some filter) ∧
        condition = .single (filter.predicate qualifier) := by
  obtain ⟨parameter, listed, accepted⟩ := mem_of_acceptAll compiled member
  refine ⟨parameter, listed, ?_⟩
  unfold writeFilter at accepted
  split at accepted
  · exact absurd accepted nofun
  · next plain =>
      obtain ⟨found, checked, same⟩ := map_eq_ok.mp accepted
      obtain ⟨filter, kept, rfl⟩ := Option.map_eq_some_iff.mp same
      obtain ⟨rfl, -⟩ := Option.filter_eq_some_iff.mp kept
      exact ⟨plain, filter, Outcome.ofCheck_eq_ok.mp checked, rfl⟩

theorem not_oneOf_of_ofAlternative {piece : List Char} {filter : Filter}
    (read : Filter.ofAlternative piece = .ok (some filter)) : filter.operator ≠ .oneOf := by
  unfold Filter.ofAlternative at read
  split at read
  · exact absurd read nofun
  · obtain ⟨column, -, shape⟩ := bind_eq_ok.mp read
    obtain ⟨operator, allowed, rfl⟩ := Option.map_eq_some_iff.mp (Except.ok.inj shape)
    have fits := (Option.filter_eq_some_iff.mp allowed).2
    rintro rfl
    exact absurd fits nofun

/-- A filter without the list operator asks for no list. -/
theorem isFlat_predicate {filter : Filter} (other : filter.operator ≠ .oneOf)
    (qualifier : Option Ident) : (filter.predicate qualifier).IsFlat := by
  unfold Filter.predicate
  split <;> first | exact trivial | exact absurd ‹_› other

/-- Lists of values do not stand among the alternatives of a read. -/
theorem isFlat_of_filters (compiled : filters qualifier parameters = .ok conditions) :
    ∀ condition ∈ conditions, condition.IsFlat := by
  intro condition member
  obtain ⟨parameter, -, ⟨-, alternatives⟩ | ⟨-, filter, -, rfl⟩⟩ := mem_of_filters compiled member
  · obtain ⟨predicates, rfl, each⟩ := group_eq_some alternatives
    intro alternative among
    obtain ⟨piece, -, filter, read, rfl⟩ := each alternative among
    exact isFlat_predicate (not_oneOf_of_ofAlternative read) qualifier
  · exact trivial

/-- A write has no alternatives at all. -/
theorem isFlat_of_equalityFilters
    (compiled : equalityFilters qualifier parameters = .ok conditions) :
    ∀ condition ∈ conditions, condition.IsFlat := by
  intro condition member
  obtain ⟨parameter, -, -, filter, -, rfl⟩ := mem_of_equalityFilters compiled member
  exact trivial

/-- The statements that a scope compiles, on a table of its catalog. -/
inductive Compiled (scope : Scope) : Sql.Statement → Prop
  | select {name : String} {table : Table} {projection : Projection} {query : Query}
      {statement : Sql.Select} (found : scope.table name = .ok table)
      (compiled : select scope table projection query = .ok statement) :
      Compiled scope (.select statement)
  | selectByKeys {name : String} {table : Table} {projection : Projection} {keys : List Datum}
      {statement : Sql.Select} (found : scope.table name = .ok table)
      (compiled : selectByKeys scope table projection keys = .ok statement) :
      Compiled scope (.select statement)
  | insert {name : String} {table : Table} {records : List Record} {statement : Sql.Insert}
      (found : scope.table name = .ok table)
      (compiled : insert scope table records = .ok statement) : Compiled scope (.insert statement)
  | update {name : String} {table : Table} {patch : Record} {query : Query}
      {statement : Sql.Update} (found : scope.table name = .ok table)
      (compiled : update scope table patch query = .ok statement) :
      Compiled scope (.update statement)
  | delete {name : String} {table : Table} {query : Query} {statement : Sql.Delete}
      (found : scope.table name = .ok table)
      (compiled : delete scope table query = .ok statement) : Compiled scope (.delete statement)

/-! ### Calls -/

/-- A call of one of the compilers, without the scope and the table that each of them is given. -/
inductive Call
  | select (projection : Projection) (query : Query)
  | selectByKeys (projection : Projection) (keys : List Datum)
  | insert (records : List Record)
  | update (patch : Record) (query : Query)
  | delete (query : Query)

/-- The statement that a call compiles. -/
def Call.compile (scope : Scope) (table : Table) : Call → Except Error Sql.Statement
  | .select projection query => (Compile.select scope table projection query).map .select
  | .selectByKeys projection keys =>
      (Compile.selectByKeys scope table projection keys).map .select
  | .insert records => (Compile.insert scope table records).map .insert
  | .update patch query => (Compile.update scope table patch query).map .update
  | .delete query => (Compile.delete scope table query).map .delete

end Compile

end TableGate

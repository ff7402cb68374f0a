import TableGate.Proofs.Compile.Congruence

/-!
# Checks

A compilation makes its checks one after another, and the first one that fails decides the error
(`FirstFailure`).  Which checks it makes is found step by step: those of a sequence are those of its
parts (`Makes.bind`), and those of a list are those of its items (`Makes.mapM`).  A compilation
succeeds exactly where all its checks pass (`Makes.exists_ok_iff`).
-/

namespace TableGate.Compile

/-- A check of a request, by the errors that it refuses the request with. -/
abbrev Check := Error → Prop

/-- A check lets the request pass. -/
def Check.Passes (check : Check) : Prop := ∀ error, ¬ check error

/-- A check that refuses a request under a condition, always with the same error. -/
def Check.of (condition : Prop) (cause : Error) : Check :=
  fun error => condition ∧ error = cause

theorem Check.passes_of_iff {condition : Prop} {cause : Error} :
    (Check.of condition cause).Passes ↔ ¬ condition := by
  constructor
  · exact fun passes failed => passes cause ⟨failed, rfl⟩
  · exact fun holds _ refuses => holds refuses.1

/-- The error of the first check that fails. -/
inductive FirstFailure : List Check → Error → Prop
  | here {check : Check} {rest : List Check} {error : Error} (refuses : check error) :
      FirstFailure (check :: rest) error
  | later {check : Check} {rest : List Check} {error : Error} (passes : check.Passes)
      (fails : FirstFailure rest error) : FirstFailure (check :: rest) error

variable {check : Check} {checks left right rest : List Check} {error : Error}

theorem firstFailure_cons :
    FirstFailure (check :: rest) error ↔ check error ∨ check.Passes ∧ FirstFailure rest error := by
  constructor
  · rintro (refuses | ⟨passes, fails⟩)
    · exact .inl refuses
    · exact .inr ⟨passes, fails⟩
  · rintro (refuses | ⟨passes, fails⟩)
    · exact .here refuses
    · exact .later passes fails

theorem firstFailure_singleton : FirstFailure [check] error ↔ check error := by
  rw [firstFailure_cons]
  exact or_iff_left fun fails => nomatch fails.2

theorem firstFailure_append :
    FirstFailure (left ++ right) error ↔
      FirstFailure left error ∨ (∀ check ∈ left, check.Passes) ∧ FirstFailure right error := by
  induction left with
  | nil =>
      constructor
      · exact fun fails => .inr ⟨List.forall_mem_nil _, fails⟩
      · rintro (fails | ⟨-, fails⟩)
        · exact nomatch fails
        · exact fails
  | cons check rest ih =>
      rw [List.cons_append, firstFailure_cons, firstFailure_cons, ih, List.forall_mem_cons,
        and_or_left, or_assoc, and_assoc]

/-- There is no first failure where all checks pass. -/
theorem not_firstFailure_iff :
    (∀ error, ¬ FirstFailure checks error) ↔ ∀ check ∈ checks, check.Passes := by
  induction checks with
  | nil => exact ⟨fun _ => List.forall_mem_nil _, fun _ _ fails => nomatch fails⟩
  | cons check rest ih =>
      rw [List.forall_mem_cons, ← ih]
      constructor
      · intro none
        have passes : check.Passes := fun error refuses => none error (.here refuses)
        exact ⟨passes, fun error fails => none error (.later passes fails)⟩
      · rintro ⟨passes, none⟩ error (refuses | ⟨-, fails⟩)
        · exact passes error refuses
        · exact none error fails

/-! ### The checks of a compilation -/

section

variable {α β : Type}

/-- A compilation makes these checks: it is refused with the error of the first one that fails, and
for no other reason. -/
def Makes (checks : List Check) (outcome : Except Error α) : Prop :=
  ∀ error, outcome = .error error ↔ FirstFailure checks error

theorem makes_ok (value : α) : Makes [] (.ok value : Except Error α) :=
  fun _ => ⟨nofun, fun fails => nomatch fails⟩

theorem makes_of_iff {outcome : Except Error α}
    (refused : ∀ error, outcome = .error error ↔ check error) : Makes [check] outcome :=
  fun error => (refused error).trans firstFailure_singleton.symm

/-- A compilation succeeds exactly where all its checks pass. -/
theorem Makes.exists_ok_iff {outcome : Except Error α} (makes : Makes checks outcome) :
    (∃ value, outcome = .ok value) ↔ ∀ check ∈ checks, check.Passes := by
  rw [← not_firstFailure_iff]
  cases outcome with
  | ok value =>
      refine ⟨fun _ error fails => ?_, fun _ => ⟨value, rfl⟩⟩
      exact absurd ((makes error).mpr fails) nofun
  | error error =>
      have fails := (makes error).mp rfl
      exact ⟨fun ⟨_, done⟩ => absurd done nofun, fun none => absurd fails (none error)⟩

/-- A sequence makes the checks of its first part, then those of its second part. -/
theorem Makes.bind {first : Except Error α} {next : α → Except Error β} (head : Makes left first)
    (tail : ∀ value, first = .ok value → Makes right (next value)) :
    Makes (left ++ right) (first >>= next) := by
  intro error
  -- The second part is reached exactly where the first one succeeds, that is, passes its checks.
  rw [bind_eq_error, firstFailure_append, head error, ← head.exists_ok_iff]
  refine or_congr_right ⟨?_, ?_⟩
  · rintro ⟨value, done, refused⟩
    exact ⟨⟨value, done⟩, (tail value done error).mp refused⟩
  · rintro ⟨⟨value, done⟩, fails⟩
    exact ⟨value, done, (tail value done error).mpr fails⟩

theorem Makes.map {outcome : Except Error α} (makes : Makes checks outcome) (change : α → β) :
    Makes checks (outcome.map change) :=
  fun error => map_eq_error.trans (makes error)

/-- A guard makes one check before what follows it. -/
theorem Makes.guard {refused condition : Prop} [Decidable refused] {cause : Error}
    {next : Except Error α} (decided : refused ↔ condition) (passed : Makes rest next) :
    Makes (.of condition cause :: rest)
      (do if refused then throw cause
          next) := by
  intro error
  rw [firstFailure_cons]
  by_cases barred : refused
  · rw [if_pos barred]
    constructor
    · intro same
      exact .inl ⟨decided.mp barred, (Except.error.inj same).symm⟩
    · rintro (⟨-, rfl⟩ | ⟨passes, -⟩)
      · rfl
      · exact absurd ⟨decided.mp barred, rfl⟩ (passes cause)
  · rw [if_neg barred]
    refine (passed error).trans ⟨fun fails => .inr ⟨?_, fails⟩, ?_⟩
    · rintro _ ⟨failed, -⟩
      exact barred (decided.mpr failed)
    · rintro (⟨failed, -⟩ | ⟨-, fails⟩)
      · exact absurd (decided.mpr failed) barred
      · exact fails

/-- A list makes the checks of its items, one after another. -/
theorem Makes.mapM {step : α → Except Error β} {checks : α → List Check} {items : List α}
    (each : ∀ item ∈ items, Makes (checks item) (step item)) :
    Makes (items.flatMap checks) (items.mapM step) := by
  induction items with
  | nil => exact makes_ok []
  | cons item more ih =>
      have others := ih fun other later => each other (List.mem_cons_of_mem _ later)
      rw [List.mapM_cons, List.flatMap_cons]
      refine (each item List.mem_cons_self).bind fun value _ => ?_
      exact others.map (value :: ·)

/-- A list is accepted after the checks of its items, whatever is left out of it. -/
theorem Makes.acceptAll {values : β → List Datum} {accept : α → Outcome (Option β)}
    {checks : α → List Check} {items : List α}
    (each : ∀ item ∈ items, Makes (checks item) (accept item).toExcept) :
    Makes (items.flatMap checks) (Compile.acceptAll values accept items).toExcept := by
  rw [toExcept_acceptAll]
  exact (Makes.mapM each).map _

/-- What is known of a compilation before it is made: which requests it takes, the checks that
decide its error, and what its result is like. -/
structure Admits (outcome : Except Error α) (allowed : Prop) (checks : List Check)
    (made : α → Prop) : Prop where
  succeeds : (∃ value, outcome = .ok value) ↔ allowed
  refused : ∀ error, outcome = .error error ↔ FirstFailure checks error
  compiled : ∀ value, outcome = .ok value → made value

theorem Makes.admits {outcome : Except Error α} {allowed : Prop} {made : α → Prop}
    (makes : Makes checks outcome) (passes : (∀ check ∈ checks, check.Passes) ↔ allowed)
    (compiled : ∀ value, outcome = .ok value → made value) :
    Admits outcome allowed checks made :=
  ⟨makes.exists_ok_iff.trans passes, makes, compiled⟩

end

/-! ### Checks of every compilation -/

/-- A name has to be an identifier. -/
def Check.name (name : String) : Check :=
  .of (isIdentifier name = false) (.invalidIdentifier name)

/-- A table that belongs to tenants needs an active one. -/
def Check.tenant (scope : Scope) (table : Table) : Check :=
  .of (table.tenantScoped = true ∧ scope.tenant.active? = none) (.tenantRequired table.name.text)

/-- A table may be used: all tenants share it, or the request has an active tenant. -/
def MayUse (scope : Scope) (table : Table) : Prop :=
  table.tenantScoped = false ∨ ∃ tenantId, scope.tenant.active? = some tenantId

theorem makes_read (name : String) : Makes [.name name] (Ident.read name) := by
  refine makes_of_iff fun error => ?_
  unfold Ident.read Ident.ofString?
  by_cases valid : isIdentifier name = true
  · simp [Check.name, Check.of, valid]
  · simp [Check.name, Check.of, valid, eq_comm]

theorem makes_enforce (scope : Scope) (table : Table) :
    Makes [.tenant scope table] (scope.enforce table) := by
  refine makes_of_iff fun error => ⟨fun refused => ?_, ?_⟩
  · obtain ⟨owned, inactive, named⟩ := Scope.enforce_eq_error refused
    exact ⟨⟨owned, inactive⟩, named⟩
  · rintro ⟨⟨owned, inactive⟩, rfl⟩
    rw [Scope.enforce, if_pos owned, inactive]

theorem passes_name_iff {name : String} : (Check.name name).Passes ↔ isIdentifier name = true :=
  Check.passes_of_iff.trans (Bool.not_eq_false _ ▸ Iff.rfl)

theorem passes_names_iff {names : List String} :
    (∀ check ∈ names.map Check.name, check.Passes) ↔ ∀ name ∈ names, isIdentifier name = true := by
  simp only [List.forall_mem_map, passes_name_iff]

theorem passes_tenant_iff {scope : Scope} {table : Table} :
    (Check.tenant scope table).Passes ↔ MayUse scope table := by
  rw [Check.tenant, Check.passes_of_iff, Classical.not_and_iff_not_or_not, Bool.not_eq_true]
  exact or_congr_right Option.ne_none_iff_exists'

end TableGate.Compile

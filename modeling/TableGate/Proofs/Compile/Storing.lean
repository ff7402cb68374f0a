import TableGate.Proofs.Compile.Admission
import TableGate.Proofs.Compile.Insertion
import TableGate.Proofs.Datum.Wire
import TableGate.Proofs.Json.Integer
import TableGate.Proofs.Number.Rounding

/-!
# What a write stores for a field

A compiled insert or update binds a value of the body in the column of its name (`Stores`).  What it
binds follows from the value alone, unless the value is an empty text
(`datum_of_stores`).  For an integer it is that integer within the signed 64-bit range, and beyond
it the nearest double, which is a multiple of 2048 (`SentFor`): the integers that are not are stored
as other ones.  The main theorem is `integers_stored`.
-/

namespace TableGate

variable {scope : Scope} {table : Table} {column : Ident} {datum : Datum}

/-- A record gives each name one value. -/
theorem Record.value_unique {record : Record} {name : String} {value other : Json}
    (given : (name, value) ∈ record.fields) (also : (name, other) ∈ record.fields) :
    value = other := by
  have same := List.inj_on_of_nodup_map record.nodup_names given also rfl
  exact (Prod.mk.inj same).2

namespace Compile

/-! ### Values in columns -/

/-- A compiled write binds a datum in a column for a value of its body. -/
inductive Stores (scope : Scope) (table : Table) (column : Ident) (value : Json) (datum : Datum) :
    Prop
  | inserted {records : List Record} {statement : Sql.Insert} {record : Record}
      {row : List (Option Datum)} (compiled : insert scope table records = .ok statement)
      (placed : (record, row) ∈ records.zip statement.rows)
      (given : (column.text, value) ∈ record.fields)
      (free : scope.reserves table column.text = false)
      (cell : (column, some datum) ∈ statement.columns.zip row)
  | updated {patch : Record} {query : Query} {statement : Sql.Update}
      (compiled : update scope table patch query = .ok statement)
      (given : (column.text, value) ∈ patch.fields)
      (assigned : (column, datum) ∈ statement.assignments)

theorem exists_field_of_assigned {fields : List (String × Json)} {assigned : List (Ident × Datum)}
    {assignment : Ident × Datum} (assigns : List.Forall₂ Assigns fields assigned)
    (among : assignment ∈ assigned) : ∃ field ∈ fields, Assigns field assignment := by
  induction assigns with
  | nil => exact absurd among List.not_mem_nil
  | cons first _ ih =>
      rcases List.mem_cons.mp among with rfl | later
      · exact ⟨_, List.mem_cons_self, first⟩
      · obtain ⟨field, listed, assigned⟩ := ih later
        exact ⟨field, List.mem_cons_of_mem _ listed, assigned⟩

/-- What is bound follows from the value that the body gives the column's name. -/
theorem binds_of_stores {value : Json} (stores : Stores scope table column value datum) :
    Binds column.text value datum := by
  cases stores with
  | inserted compiled placed given free cell =>
      have cells := List.forall₂_zip (filled_of_insert compiled) placed
      cases List.forall₂_zip cells cell with
      | tenant reserved => exact absurd (free.symm.trans reserved) nofun
      | given _ listed _ binds => exact Record.value_unique listed given ▸ binds
  | updated compiled given assigned =>
      obtain ⟨tenant, fields, filters, enforced, read, -, -, rfl⟩ := update_eq_ok compiled
      obtain ⟨⟨name, other⟩, kept, assigns⟩ :=
        exists_field_of_assigned (forall₂_of_patch enforced read) assigned
      obtain rfl : column.text = name := assigns.name
      exact Record.value_unique (List.mem_filter.mp kept).1 given ▸ assigns.value

/-- Every value but an empty text is bound as it is. -/
theorem datum_of_stores {value : Json} (stores : Stores scope table column value datum)
    (full : value ≠ .string "") : datum = .ofJson value := by
  cases binds_of_stores stores with
  | nothing => exact absurd rfl full
  | value => rfl

/-- Every value but null is stored by some insert into a table that all tenants share. -/
theorem exists_stores (scope : Scope) (free : table.tenantScoped = false) (column : Ident)
    {value : Json} (present : value.isNull = false) :
    ∃ datum, Stores scope table column value datum := by
  have enforced : scope.enforce table = .ok none := by
    rw [Scope.enforce, if_neg (ne_true_of_eq_false free)]
  have read : rowAssignments none (.ofFields [(column.text, value)]) =
      .ok [(column, fieldValue column.text value)] := by
    have fields : (Record.ofFields [(column.text, value)]).fields = [(column.text, value)] := rfl
    simp [rowAssignments, assignments, fields, Ident.read_text, present]
  have compiled : insert scope table [.ofFields [(column.text, value)]] =
      .ok ⟨table.name, [column], [[some (fieldValue column.text value)]]⟩ := by
    refine bind_eq_ok.mpr ⟨none, enforced, ?_⟩
    simp [read, firstSeen, Bind.bind, Except.bind, pure, Except.pure]
  have reserved : scope.reserves table column.text = false := by
    rw [Scope.reserves, free, Bool.false_and]
  exact ⟨_, .inserted compiled (List.mem_singleton_self _) (List.mem_singleton_self _) reserved
    (List.mem_singleton_self _)⟩

/-! ### Integers -/

/-- What is stored for an integer of 64 bits: itself within the signed range, and beyond it a
multiple of 2048 that is nearest to it. -/
structure SentFor (given sent : Int) : Prop where
  exact_iff : sent = given ↔ given < 2 ^ 63 ∨ 2048 ∣ given
  multiple : 2 ^ 63 ≤ given → 2048 ∣ sent
  near : (sent - given).natAbs ≤ 1024

theorem sentFor_self {given : Int} (below : given < 2 ^ 63) : SentFor given given where
  exact_iff := iff_of_true rfl (.inl below)
  multiple := fun above => absurd below (Int.not_lt.mpr above)
  near := by simp

/-- Beyond the signed range doubles are 2048 apart. -/
theorem spacing_of_large {n : Nat} (least : 2 ^ 63 ≤ n) (most : n < 2 ^ 64) :
    Double.spacing n = 2048 := by
  have bits : n.log2 = 63 := (Nat.log2_eq_iff (by omega)).mpr ⟨least, most⟩
  simp [Double.spacing, bits]

theorem sentFor_rounded {n : Nat} (least : 2 ^ 63 ≤ n) (most : n < 2 ^ 64) :
    SentFor n (Double.rounded n : Nat) := by
  have apart := spacing_of_large least most
  have exact := @Double.rounded_eq_self_iff n
  have multiple : 2048 ∣ Double.rounded n := apart ▸ Nat.dvd_mul_left _ _
  obtain ⟨above, below⟩ := Double.roundHalfEven_near (Double.spacing_pos n) n
  rw [← Double.rounded, apart] at above below
  rw [apart] at exact
  exact ⟨by omega, fun _ => Int.natCast_dvd_natCast.mpr multiple, by omega⟩

theorem integer?_ofNumber {value : Int} (least : -2 ^ 63 ≤ value) (most : value < 2 ^ 64) :
    ∃ sent, SentFor value sent ∧ (Datum.ofNumber (.integer value)).wire.integer? = some sent := by
  rcases Int.lt_or_le value (2 ^ 63) with small | large
  · have bound : Datum.ofNumber (.integer value) = .integer value := if_pos ⟨least, small⟩
    rw [bound]
    exact ⟨value, sentFor_self small, Datum.integer?_integer least small⟩
  · obtain ⟨n, rfl⟩ := Int.eq_ofNat_of_zero_le (Int.le_trans (by decide) large)
    obtain ⟨nearest, found, positive, units⟩ :=
      Double.ofNat?_eq_some false (n := n) (by omega) (by omega)
    have unsigned : decide ((n : Int) < 0) = false := decide_eq_false (by omega)
    have bound : Datum.ofNumber (.integer n) = .double nearest := by
      rw [Datum.ofNumber, if_neg (by omega), unsigned, Int.natAbs_natCast, found]
    rw [bound, Datum.integer?_double, Double.integer?_of_units units, positive]
    exact ⟨_, sentFor_rounded (by omega) (by omega), rfl⟩

/-- The integers that a body carries are stored as themselves within the signed 64-bit
range.  Beyond it the nearest double is stored, and an integer stays what it is only if it is a
multiple of 2048; the numeral of an integer, as an untyped text, would stand for it exactly. -/
theorem integers_stored {value : Int} (carried : Json.Carries value) :
    (∃ sent, SentFor value sent ∧ (Datum.ofJson (.ofInt value)).wire.integer? = some sent ∧
      ∀ {scope table column datum}, Stores scope table column (.ofInt value) datum →
        datum.wire.integer? = some sent) ∧
    (Datum.text (String.ofList (Json.Number.integer value).text)).wire.integer? = some value := by
  obtain ⟨least, most⟩ := Json.carries_iff.mp carried
  obtain ⟨sent, near, read⟩ := integer?_ofNumber least most
  refine ⟨⟨sent, near, read, fun stores => ?_⟩, Datum.integer?_text value⟩
  rw [datum_of_stores stores nofun]
  exact read

/-- A table of tallies that all tenants share. -/
def tallyTable : Table := ⟨⟨"tallies", by decide⟩, false⟩

def tallyScope : Scope := ⟨.ofTable tallyTable, .none⟩

/-- The column that a tally counts in. -/
def tallyColumn : Ident := ⟨"count", by decide⟩

/-- A tally of 9223372036854775809 is stored as 9223372036854775808. -/
theorem integers_stored_tallies :
    Json.Carries (2 ^ 63 + 1) ∧ ∃ datum,
      Stores tallyScope tallyTable tallyColumn (.ofInt (2 ^ 63 + 1)) datum ∧
      datum.wire.integer? = some (2 ^ 63) := by
  have carried : Json.Carries (2 ^ 63 + 1) := Json.carries_iff.mpr ⟨by decide, by decide⟩
  obtain ⟨datum, stores⟩ : ∃ datum,
      Stores tallyScope tallyTable tallyColumn (.ofInt (2 ^ 63 + 1)) datum :=
    exists_stores tallyScope rfl tallyColumn rfl
  obtain ⟨⟨sent, ⟨exact, multiple, near⟩, -, stored⟩, -⟩ := integers_stored carried
  obtain rfl : sent = 2 ^ 63 := by omega
  exact ⟨carried, datum, stores, stored stores⟩

end Compile

end TableGate

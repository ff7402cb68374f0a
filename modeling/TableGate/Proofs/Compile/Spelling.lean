import TableGate.Proofs.Compile.Storing
import TableGate.Proofs.Datum.Date
import TableGate.Proofs.Datum.Uuid

/-!
# Texts that a write stores

A text of a body is bound as a UUID, a moment or a date if it spells one, and otherwise as it is.
What is bound is written as the text that was given only for the spellings that are themselves what
is written (`Keeps`): a UUID in thirty-six characters without an upper-case letter, and a date that
starts with a digit and has no blank.  The main theorem is `strings_stored`.
-/

namespace TableGate

/-! ### Reading a text -/

namespace Datum

variable {spelled : String}

/-- What a text is bound as: the first of a UUID, a moment and a date that it is read as. -/
inductive ReadsAs (spelled : String) : Datum → Prop
  | uuid {found : Uuid} (read : Uuid.read? spelled = some found) : ReadsAs spelled (.uuid found)
  | timestamp {moment : Timestamp} (noUuid : Uuid.read? spelled = none)
      (read : Timestamp.read? spelled = some moment) : ReadsAs spelled (.timestamp moment)
  | date {day : Date} (noUuid : Uuid.read? spelled = none)
      (noMoment : Timestamp.read? spelled = none) (read : Date.read? spelled = some day) :
      ReadsAs spelled (.date day)
  | text (noUuid : Uuid.read? spelled = none) (noMoment : Timestamp.read? spelled = none)
      (noDate : Date.read? spelled = none) : ReadsAs spelled (.text spelled)

theorem readsAs_ofText (spelled : String) : ReadsAs spelled (ofText spelled) := by
  unfold ofText
  split
  · next read => exact .uuid read
  · next noUuid =>
      split
      · next read => exact .timestamp noUuid read
      · next noMoment =>
          split
          · next read => exact .date noUuid noMoment read
          · next noDate => exact .text noUuid noMoment noDate

/-- The text of a UUID is bound as that UUID. -/
theorem ofText_uuid (uuid : Uuid) : ofText uuid.text = .uuid uuid := by
  rw [ofText, uuid.read?_text]

/-- The text of a date has another size than those of UUIDs and moments, and is bound as that
date. -/
theorem ofText_date {date : Date} (written : date.text? = some spelled) :
    ofText spelled = .date date := by
  have size : spelled.toList.length = 10 := Date.length_of_text? written
  have noUuid : Uuid.read? spelled = none := by
    rw [Uuid.read?, size]
    rfl
  have noMoment : Timestamp.read? spelled = none :=
    Calendar.readTimestamp?_of_short size.le
  rw [ofText, noUuid, noMoment, Date.read?_text written]

end Datum

namespace Compile

/-- A datum that a text is bound as is written as that text exactly where the text is spelled in the
one way that it is written. -/
structure Keeps (spelled : String) (datum : Datum) : Prop where
  uuid : ∀ uuid, datum = .uuid uuid → (uuid.text = spelled ↔
    spelled.length = 36 ∧ ∀ c ∈ spelled.toList, c.isUpper = false)
  date : ∀ date, datum = .date date → (date.text? = some spelled ↔
    (∃ c ∈ spelled.toList.head?, c.isDigit = true) ∧
      ∀ c ∈ spelled.toList, Text.isBlank c = false)
  text : ∀ text, datum = .text text → text = spelled

theorem keeps_of_readsAs {spelled : String} {datum : Datum}
    (reads : Datum.ReadsAs spelled datum) : Keeps spelled datum := by
  refine ⟨?_, ?_, ?_⟩
  · rintro uuid rfl
    cases reads with
    | uuid read => exact Uuid.text_eq_iff read
  · rintro date rfl
    cases reads with
    | date _ _ read => exact Date.text?_eq_iff read
  · rintro text rfl
    cases reads with
    | text => rfl

/-- A text that a write stores is bound as what it spells, and is kept exactly where it is spelled
as a UUID or a date is written.  Each text that is written for one is bound as that one. -/
theorem strings_stored (spelled : String) :
    Keeps spelled (Datum.ofJson (.string spelled)) ∧
    (∀ uuid : Uuid, uuid.text = spelled → Datum.ofJson (.string spelled) = .uuid uuid) ∧
    (∀ date : Date, date.text? = some spelled → Datum.ofJson (.string spelled) = .date date) ∧
    ∀ {scope table column datum}, Stores scope table column (.string spelled) datum →
      spelled ≠ "" → datum = .ofJson (.string spelled) := by
  refine ⟨keeps_of_readsAs (Datum.readsAs_ofText spelled), ?_, fun _ => Datum.ofText_date, ?_⟩
  · rintro uuid rfl
    exact Datum.ofText_uuid uuid
  · intro _ _ _ _ stores full
    exact datum_of_stores stores fun same => full (Json.string.inj same)

/-- A table of badges that all tenants share. -/
def badgeTable : Table := ⟨⟨"badges", by decide⟩, false⟩

def badgeScope : Scope := ⟨.ofTable badgeTable, .none⟩

/-- The column of what is written on a badge. -/
def badgeColumn : Ident := ⟨"inscription", by decide⟩

/-- A UUID in upper case. -/
def badgeCode : String := "A0EEBC99-9C0B-4EF8-BB6D-6BB9BD380A11"

/-- A date with a sign and a month of one digit. -/
def badgeDay : String := "+2024-1-01"

/-- What is written on a badge is stored as a UUID or a date that is written in another way. -/
theorem strings_stored_badges :
    (∃ uuid, Stores badgeScope badgeTable badgeColumn (.string badgeCode) (.uuid uuid) ∧
      uuid.text ≠ badgeCode) ∧
    ∃ date, Stores badgeScope badgeTable badgeColumn (.string badgeDay) (.date date) ∧
      date.text? ≠ some badgeDay := by
  have stored (label : String) : ∃ datum,
      Stores badgeScope badgeTable badgeColumn (.string label) datum :=
    exists_stores badgeScope rfl badgeColumn rfl
  constructor
  · obtain ⟨keeps, -, -, same⟩ := strings_stored badgeCode
    obtain ⟨datum, stores⟩ := stored badgeCode
    obtain rfl := same stores (by decide)
    obtain ⟨uuid, read⟩ : ∃ uuid, Uuid.read? badgeCode = some uuid :=
      Option.isSome_iff_exists.mp (by decide +kernel)
    have bound : Datum.ofJson (.string badgeCode) = .uuid uuid := by
      rw [Datum.ofJson, Datum.ofText, read]
    refine ⟨uuid, bound ▸ stores, fun written => ?_⟩
    have lower := ((keeps.uuid uuid bound).mp written).2 'A' (by decide)
    exact absurd lower (by decide)
  · obtain ⟨keeps, -, -, same⟩ := strings_stored badgeDay
    obtain ⟨datum, stores⟩ := stored badgeDay
    obtain rfl := same stores (by decide)
    obtain ⟨date, read⟩ : ∃ date, Date.read? badgeDay = some date :=
      Option.isSome_iff_exists.mp (by decide +kernel)
    have noUuid : Uuid.read? badgeDay = none := by decide +kernel
    have noMoment : Timestamp.read? badgeDay = none := by decide +kernel
    have bound : Datum.ofJson (.string badgeDay) = .date date := by
      rw [Datum.ofJson, Datum.ofText, noUuid, noMoment, read]
    refine ⟨date, bound ▸ stores, fun written => ?_⟩
    obtain ⟨⟨c, head, digit⟩, -⟩ := (keeps.date date bound).mp written
    have sign : badgeDay.toList.head? = some '+' := by decide
    obtain rfl : '+' = c := Option.some.inj (sign.symm.trans head)
    exact absurd digit (by decide)

end Compile

end TableGate

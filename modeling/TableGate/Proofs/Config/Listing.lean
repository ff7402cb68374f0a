import Mathlib.Data.List.Nodup
import TableGate.Config.Reader
import TableGate.Proofs.Compile.Outcome

/-!
# What a configuration text lists

A record gives a field a value by a member of that name, or by the item in the field's place
(`Gives`).  Reading a record takes exactly what it gives (`gives_iff`), so the tables of a
configuration are those that its text lists, one by one, and a table is shared exactly where its own
record says so (`listed_of_parse`).
-/

namespace TableGate.Config

open Json (Document RawText)

/-! ### Records -/

/-- A document gives a field of a record a value: an object by a member of that name, an array by
the item in the field's place. -/
inductive Gives (names : List String) (field : String) (value : Document) : Document → Prop
  | member {members : List (RawText × Document)} {spelled : RawText}
      (named : spelled.string? = some field) (among : (spelled, value) ∈ members) :
      Gives names field value (.object members)
  | item {items : List Document} {place : Nat} (named : names[place]? = some field)
      (found : items[place]? = some value) : Gives names field value (.array items)

/-- A key that is not repeated is looked up to the value it stands with. -/
theorem lookup_eq_some_iff_mem {α : Type} {entries : List (String × α)} {key : String} {value : α}
    (once : (entries.filter fun entry => entry.1 == key).length ≤ 1) :
    entries.lookup key = some value ↔ (key, value) ∈ entries := by
  induction entries with
  | nil => simp
  | cons entry rest ih =>
      obtain ⟨name, given⟩ := entry
      by_cases same : name = key
      · subst same
        simp only [List.filter_cons, beq_self_eq_true, ↓reduceIte, List.length_cons] at once
        have absent : (name, value) ∉ rest := fun member => by
          have kept : (name, value) ∈ rest.filter fun entry => entry.1 == name :=
            List.mem_filter.mpr ⟨member, beq_self_eq_true name⟩
          exact absurd (List.length_pos_of_mem kept) (by omega)
        simp [absent, eq_comm]
      · have apart : (key == name) = false := beq_false_of_ne (Ne.symm same)
        rw [List.filter_cons_of_neg (by simpa using same)] at once
        simp [List.lookup_cons, apart, ih once, Ne.symm same]

/-- Reading a record takes what it gives, in the places of the fields. -/
theorem gives_iff {names : List String} (distinct : names.Nodup) {document : Document}
    {values : List (Option Document)} (read : recordFields? names document = some values)
    {place : Nat} {field : String} (named : names[place]? = some field) (value : Document) :
    values[place]? = some (some value) ↔ Gives names field value document := by
  cases document with
  | scalar leaf => cases read
  | array items =>
      simp only [recordFields?] at read
      split at read
      · obtain rfl := Option.some.inj read
        have found : (items.map some ++ List.replicate (names.length - items.length) none)[place]? =
            some (some value) ↔ items[place]? = some value := by
          by_cases inside : place < items.length
          · rw [List.getElem?_append_left (by simpa using inside), List.getElem?_map]
            simp
          · have past : items[place]? = none := List.getElem?_eq_none (by omega)
            rw [List.getElem?_append_right (by simpa using inside), List.getElem?_replicate, past]
            split <;> simp
        rw [found]
        constructor
        · exact .item named
        · rintro (_ | ⟨other, present⟩)
          obtain ⟨left, first⟩ := List.getElem?_eq_some_iff.mp named
          obtain ⟨right, second⟩ := List.getElem?_eq_some_iff.mp other
          obtain rfl := (distinct.getElem_inj_iff).mp (first.trans second.symm)
          exact present
      · cases read
  | object members =>
      obtain ⟨entries, decoded, chosen⟩ := Option.bind_eq_some_iff.mp read
      split at chosen
      · next once =>
          obtain rfl := Option.some.inj chosen
          have single := of_decide_eq_true
            (List.all_eq_true.mp once field (List.mem_of_getElem? named))
          rw [List.getElem?_map, named, Option.map_some, Option.some.injEq,
            lookup_eq_some_iff_mem single]
          have paired := mapM_eq_some_iff.mp decoded
          constructor
          · intro member
            have image : some (field, value) ∈ entries.map some := List.mem_map_of_mem member
            rw [← paired] at image
            obtain ⟨⟨spelled, given⟩, among, same⟩ := List.mem_map.mp image
            obtain ⟨name, text, shape⟩ := Option.map_eq_some_iff.mp same
            cases shape
            exact .member text among
          · rintro ⟨text, among⟩
            have image : some (field, value) ∈ entries.map some := by
              rw [← paired]
              exact List.mem_map.mpr ⟨_, among, by simp [text]⟩
            obtain ⟨entry, member, same⟩ := List.mem_map.mp image
            exact Option.some.inj same ▸ member
      · cases chosen

/-! ### Tables -/

/-- The fields of a table, in order. -/
def tableFields : List String := ["name", "tenant_scoped"]

/-- The fields of a configuration, in order. -/
def configFields : List String := ["tables", "tenant_column", "max_limit", "pool"]

/-- A document is the record of the table with the given name. -/
def NamesTable (item : Document) (name : String) : Prop :=
  ∃ spelled : RawText, spelled.string? = some name ∧
    Gives tableFields "name" (.scalar (.text spelled)) item

/-- The record of a table says that the table does not belong to tenants. -/
def SaysShared (item : Document) : Prop :=
  Gives tableFields "tenant_scoped" (.scalar (.bool false)) item

/-- A text is a configuration whose tables have these records. -/
def Lists (text : String) (items : List Document) : Prop :=
  ∃ document, Document.whole? text = some document ∧
    Gives configFields "tables" (.array items) document

theorem text?_eq_some {document : Document} {text : String} (read : text? document = some text) :
    ∃ spelled : RawText, document = .scalar (.text spelled) ∧ spelled.string? = some text := by
  unfold text? at read
  split at read
  · next spelled => exact ⟨spelled, rfl, read⟩
  · cases read

theorem flag?_eq_some {document : Document} {flag : Bool} (read : flag? document = some flag) :
    document = .scalar (.bool flag) := by
  unfold flag? at read
  split at read
  · cases read
    rfl
  · cases read

/-- A table that has been read has the name that its record gives, and no other; it does not belong
to tenants exactly where its record says so. -/
theorem table?_eq_some {item : Document} {entry : TableEntry} (read : table? item = some entry) :
    (∀ name, NamesTable item name ↔ entry.name = name) ∧
      (SaysShared item ↔ entry.tenantScoped = false) := by
  obtain ⟨values, fields, rest⟩ := Option.bind_eq_some_iff.mp read
  split at rest
  · next named owned =>
      obtain ⟨name, spelled, rest⟩ := Option.bind_eq_some_iff.mp rest
      obtain ⟨flag, chosen, shape⟩ := Option.bind_eq_some_iff.mp rest
      obtain rfl := Option.some.inj shape
      obtain ⟨written, rfl, decoded⟩ := text?_eq_some spelled
      have names := fun value => gives_iff (by decide : tableFields.Nodup) fields
        (show tableFields[0]? = some "name" from rfl) value
      have flags := gives_iff (by decide : tableFields.Nodup) fields
        (show tableFields[1]? = some "tenant_scoped" from rfl) (.scalar (.bool false))
      refine ⟨fun other => ⟨?_, ?_⟩, flags.symm.trans ?_⟩
      · rintro ⟨text, same, given⟩
        cases (names _).mpr given
        exact Option.some.inj (decoded.symm.trans same)
      · rintro rfl
        exact ⟨written, decoded, (names _).mp rfl⟩
      · simp only [List.getElem?_cons_succ, List.getElem?_cons_zero, Option.some.injEq]
        cases owned with
        | none =>
            cases chosen
            simp
        | some document =>
            obtain rfl := flag?_eq_some chosen
            simp
  · cases rest

/-- The tables of a configuration are read one by one from the list that its record gives. -/
theorem ofDocument?_eq_some {document : Document} {config : Config}
    (read : ofDocument? document = some config) :
    ∃ items, (∀ others, Gives configFields "tables" (.array others) document ↔ others = items) ∧
      items.map table? = config.tables.map some := by
  obtain ⟨values, fields, rest⟩ := Option.bind_eq_some_iff.mp read
  split at rest
  · next tables column limit pool =>
      obtain ⟨entries, listed, rest⟩ := Option.bind_eq_some_iff.mp rest
      obtain ⟨columnName, -, rest⟩ := Option.bind_eq_some_iff.mp rest
      obtain ⟨maxLimit, -, rest⟩ := Option.bind_eq_some_iff.mp rest
      obtain ⟨settings, -, shape⟩ := Option.bind_eq_some_iff.mp rest
      obtain rfl := Option.some.inj shape
      unfold tables? at listed
      split at listed
      · next items =>
          refine ⟨items, fun others => ?_, mapM_eq_some_iff.mp listed⟩
          rw [← gives_iff (by decide : configFields.Nodup) fields
            (show configFields[0]? = some "tables" from rfl)]
          simp [eq_comm]
      · cases listed
  · cases rest

/-- A text is a configuration with this record of the table of the given name. -/
def Declares (text name : String) (item : Document) : Prop :=
  ∃ items, Lists text items ∧ item ∈ items ∧ NamesTable item name

section

variable {text : String} {config : Config}

/-- The text of a configuration lists its tables one by one, and lists no others. -/
theorem listed_of_parse (parsed : parse text = .ok config) :
    ∃ items, (∀ others, Lists text others ↔ others = items) ∧
      items.map table? = config.tables.map some := by
  unfold parse at parsed
  split at parsed
  · next read found =>
      cases parsed
      obtain ⟨document, whole, ofDocument⟩ := Option.bind_eq_some_iff.mp found
      obtain ⟨items, given, tables⟩ := ofDocument?_eq_some ofDocument
      refine ⟨items, fun others => ⟨?_, ?_⟩, tables⟩
      · rintro ⟨other, same, gives⟩
        obtain rfl := Option.some.inj (whole.symm.trans same)
        exact (given others).mp gives
      · intro same
        exact ⟨document, whole, (given others).mpr same⟩
  · cases parsed

/-- Each record of a table has been read as an entry of that name, which is shared where the record
says so. -/
theorem entry_of_declares (parsed : parse text = .ok config) {name : String} {item : Document}
    (declares : Declares text name item) :
    ∃ entry ∈ config.tables,
      entry.name = name ∧ (SaysShared item ↔ entry.tenantScoped = false) := by
  obtain ⟨items, lists, tables⟩ := listed_of_parse parsed
  obtain ⟨others, listed, member, named⟩ := declares
  obtain rfl := (lists others).mp listed
  obtain ⟨entry, present, same⟩ := List.mem_map.mp (tables ▸ List.mem_map_of_mem member)
  obtain ⟨names, shared⟩ := table?_eq_some same.symm
  exact ⟨entry, present, (names name).mp named, shared⟩

/-- Each entry has been read from a record of its table. -/
theorem declares_of_entry (parsed : parse text = .ok config) {entry : TableEntry}
    (present : entry ∈ config.tables) : ∃ item, Declares text entry.name item := by
  obtain ⟨items, lists, tables⟩ := listed_of_parse parsed
  obtain ⟨item, member, same⟩ := List.mem_map.mp (tables ▸ List.mem_map_of_mem present)
  exact ⟨item, items, (lists items).mpr rfl, member, ((table?_eq_some same).1 _).mpr rfl⟩

end

end TableGate.Config

import TableGate.Proofs.Service.Exchange

/-!
# Rehydration

Rows that are read again are matched to the written ones by the text of their `id`.  All of them
come through, and no written row with them, exactly where they carry the written keys
(`hasReadShape_realign_iff`).  So a projection that does not show the `id` gets the written rows as
they were returned (`runWrite_rows`).
-/

namespace TableGate

/-- The text of a row's `id`, by which it is matched. -/
def Json.idText? (row : Json) : Option String := (row.field? "id").map keyText

namespace Rehydrate

variable {fetched written : List Json} {keys : List String}

/-! ### Found rows -/

theorem mem_keyed {key : String} {row : Json} (member : (key, row) ∈ keyed fetched) :
    row ∈ fetched ∧ row.idText? = some key := by
  obtain ⟨found, present, same⟩ := List.mem_filterMap.mp (List.mem_reverse.mp member)
  obtain ⟨value, field, shape⟩ := Option.map_eq_some_iff.mp same
  cases shape
  exact ⟨present, by rw [Json.idText?, field]; rfl⟩

theorem map_fst_keyed (fetched : List Json) :
    (keyed fetched).map Prod.fst = (fetched.filterMap Json.idText?).reverse := by
  rw [keyed, List.map_reverse, List.map_filterMap]
  congr 2
  funext row
  rw [Json.idText?, Option.map_map]
  rfl

/-- Every row is found under the text of its `id` if it has one. -/
theorem map_snd_keyed (identified : ∀ row ∈ fetched, row.idText? ≠ none) :
    (keyed fetched).map Prod.snd = fetched.reverse := by
  rw [keyed, List.map_reverse, List.map_filterMap]
  congr 1
  induction fetched with
  | nil => rfl
  | cons row rest ih =>
      have first := identified row List.mem_cons_self
      have others := ih fun other later => identified other (List.mem_cons_of_mem _ later)
      cases field : row.field? "id" with
      | none => exact absurd (by rw [Json.idText?, field]; rfl) first
      | some value =>
          rw [List.filterMap_cons, field]
          exact congrArg (row :: ·) others

/-- No row is found where none has an `id`. -/
theorem keyed_eq_nil (nameless : ∀ row ∈ fetched, row.field? "id" = none) : keyed fetched = [] := by
  rw [keyed, List.reverse_eq_nil_iff, List.filterMap_eq_nil_iff]
  intro row member
  rw [nameless row member]
  rfl

/-! ### Matched rows -/

variable {entries pairs : List (String × Json)}

theorem realign_nil (pairs : List (String × Json)) : realign [] pairs = pairs.map Prod.snd := by
  induction pairs with
  | nil => rfl
  | cons pair rest ih =>
      obtain ⟨key, row⟩ := pair
      exact congrArg (row :: ·) ih

/-- Taking out the row that is found for a key takes out nothing else, if keys are distinct. -/
theorem perm_of_lookup {key : String} {row : Json} (distinct : (entries.map Prod.fst).Nodup)
    (found : entries.lookup key = some row) :
    entries.Perm ((key, row) :: entries.filter fun entry => entry.1 != key) := by
  obtain ⟨front, back, rfl, before⟩ := List.lookup_eq_some_iff.mp found
  rw [List.map_append, List.map_cons, List.nodup_append, List.nodup_cons] at distinct
  have kept : (front ++ (key, row) :: back).filter (fun entry => entry.1 != key) =
      front ++ back := by
    rw [List.filter_append, List.filter_cons_of_neg (by simp)]
    have first : front.filter (fun entry => entry.1 != key) = front := by
      rw [List.filter_eq_self]
      intro entry member
      exact bne_iff_ne.mpr (bne_iff_ne.mp (before entry member)).symm
    have second : back.filter (fun entry => entry.1 != key) = back := by
      rw [List.filter_eq_self]
      intro entry member
      refine bne_iff_ne.mpr fun same => distinct.2.1.1 ?_
      exact List.mem_map.mpr ⟨entry, member, same⟩
    rw [first, second]
  rw [kept]
  exact List.perm_middle

/-- Rows that are found for distinct keys, one for each, all take the place of a written row. -/
theorem realign_perm (distinct : (pairs.map Prod.fst).Nodup)
    (found : (entries.map Prod.fst).Perm (pairs.map Prod.fst)) :
    (realign entries pairs).Perm (entries.map Prod.snd) := by
  induction pairs generalizing entries with
  | nil =>
      cases entries with
      | nil => exact List.Perm.refl _
      | cons entry rest => exact absurd found.length_eq nofun
  | cons pair rest ih =>
      obtain ⟨key, written⟩ := pair
      have unique : (entries.map Prod.fst).Nodup := found.nodup_iff.mpr distinct
      cases search : entries.lookup key with
      | none =>
          have member : key ∈ entries.map Prod.fst := found.mem_iff.mpr List.mem_cons_self
          obtain ⟨entry, present, same⟩ := List.mem_map.mp member
          have apart := List.lookup_eq_none_iff.mp search entry present
          rw [same] at apart
          exact absurd rfl (bne_iff_ne.mp apart)
      | some row =>
          -- what is left after a row is taken out is there for the keys that are left
          have taken := perm_of_lookup unique search
          have others : ((entries.filter fun entry => entry.1 != key).map Prod.fst).Perm
              (rest.map Prod.fst) :=
            ((taken.map Prod.fst).symm.trans found).cons_inv
          rw [realign, search]
          exact ((ih (List.nodup_cons.mp distinct).2 others).cons row).trans
            (taken.map Prod.snd).symm

/-- If no written row is left in its place, the keys are distinct and each place is taken by a row
with its key. -/
theorem realign_matched {raw : List Json} (among : ∀ pair ∈ pairs, pair.2 ∈ raw)
    (carried : ∀ entry ∈ entries, entry.2.idText? = some entry.1)
    (replaced : ∀ row ∈ realign entries pairs, row ∉ raw) :
    (pairs.map Prod.fst).Nodup ∧ (∀ key ∈ pairs.map Prod.fst, key ∈ entries.map Prod.fst) ∧
      (realign entries pairs).map Json.idText? = (pairs.map Prod.fst).map some := by
  induction pairs generalizing entries with
  | nil => exact ⟨List.nodup_nil, fun _ member => absurd member List.not_mem_nil, rfl⟩
  | cons pair rest ih =>
      obtain ⟨key, written⟩ := pair
      have later (other : String × Json) (member : other ∈ rest) : other.2 ∈ raw :=
        among other (List.mem_cons_of_mem _ member)
      rw [realign] at replaced ⊢
      cases search : entries.lookup key with
      | none =>
          simp only [search] at replaced
          exact absurd (among _ List.mem_cons_self) (replaced written List.mem_cons_self)
      | some row =>
          simp only [search] at replaced ⊢
          obtain ⟨front, back, shape, -⟩ := List.lookup_eq_some_iff.mp search
          have present : (key, row) ∈ entries := by
            rw [shape]
            exact List.mem_append_right _ List.mem_cons_self
          obtain ⟨distinct, found, same⟩ := ih later
            (fun entry member => carried entry (List.mem_filter.mp member).1)
            (fun other member => replaced other (List.mem_cons_of_mem _ member))
          refine ⟨List.nodup_cons.mpr ⟨?_, distinct⟩, ?_, ?_⟩
          · -- a repeated key would find its row again, but that has been taken out
            intro again
            obtain ⟨entry, kept, named⟩ := List.mem_map.mp (found key again)
            exact bne_iff_ne.mp (List.mem_filter.mp kept).2 named
          · intro other member
            rcases List.mem_cons.mp member with rfl | member
            · exact List.mem_map.mpr ⟨_, present, rfl⟩
            · obtain ⟨entry, kept, named⟩ := List.mem_map.mp (found other member)
              exact List.mem_map.mpr ⟨entry, (List.mem_filter.mp kept).1, named⟩
          · rw [List.map_cons, same, carried _ present]
            rfl

/-! ### Read shape -/

/-- The rows answered are those that were read again, each once, and no row that the write
returned. -/
def HasReadShape (written fetched rows : List Json) : Prop :=
  rows.Perm fetched ∧ ∀ row ∈ rows, row ∉ written

/-- The rows answered have the read shape exactly where the keys are distinct, the rows that were
read again carry these keys, and none of them is as it was written. -/
theorem hasReadShape_realign_iff (aligned : keys.length = written.length) :
    HasReadShape written fetched (realign (keyed fetched) (keys.zip written)) ↔
      keys.Nodup ∧ (fetched.map Json.idText?).Perm (keys.map some) ∧
        ∀ row ∈ fetched, row ∉ written := by
  have names : (keys.zip written).map Prod.fst = keys :=
    List.map_fst_zip (Nat.le_of_eq aligned)
  constructor
  · rintro ⟨same, replaced⟩
    obtain ⟨distinct, -, carried⟩ := realign_matched
      (fun pair member => (List.of_mem_zip member).2)
      (fun entry member => (mem_keyed member).2) replaced
    rw [names] at distinct carried
    refine ⟨distinct, ?_, fun row member => replaced row (same.mem_iff.mpr member)⟩
    rw [← carried]
    exact (same.map Json.idText?).symm
  · rintro ⟨distinct, carried, fresh⟩
    have identified (row : Json) (member : row ∈ fetched) : row.idText? ≠ none := by
      intro nameless
      obtain ⟨key, -, named⟩ := List.mem_map.mp
        (carried.mem_iff.mp (List.mem_map.mpr ⟨row, member, rfl⟩))
      exact absurd (named.trans nameless) nofun
    have found : ((keyed fetched).map Prod.fst).Perm ((keys.zip written).map Prod.fst) := by
      rw [names, map_fst_keyed]
      have texts := carried.filterMap id
      rw [List.filterMap_map, List.filterMap_map] at texts
      change (fetched.filterMap Json.idText?).Perm (keys.filterMap some) at texts
      rw [List.filterMap_some] at texts
      exact (List.reverse_perm _).trans texts
    have shape := realign_perm (names.symm ▸ distinct) found
    rw [map_snd_keyed identified] at shape
    have same := shape.trans (List.reverse_perm fetched)
    exact ⟨same, fun row member => fresh row (same.mem_iff.mp member)⟩

end Rehydrate

/-! ### Writes that are read again -/

/-- A row is an object with exactly the members of the given names. -/
def Json.HasMembers (names : List String) (row : Json) : Prop :=
  ∃ members, row = .object members ∧ ∀ name, name ∈ members.map Prod.fst ↔ name ∈ names

theorem Json.field?_of_hasMembers {names : List String} {row : Json} {name : String}
    (shaped : row.HasMembers names) (absent : name ∉ names) : row.field? name = none := by
  obtain ⟨members, rfl, exact⟩ := shaped
  change members.lookup name = none
  rw [List.lookup_eq_none_iff]
  intro member present
  refine bne_iff_ne.mpr fun same => absent ((exact name).mp ?_)
  exact List.mem_map.mpr ⟨member, present, same.symm⟩

/-- The names of the columns that a selection gives, where the table has the given ones. -/
def Sql.Selection.names (selection : Sql.Selection) (columns : List String) : List String :=
  (if selection.allColumns || selection.columns.isEmpty then columns else []) ++
    selection.columns.map Ident.text ++ selection.joins.map fun join => join.relation.name.text

theorem length_of_mapM {α β : Type} {read : α → Option β} {items : List α} {results : List β}
    (done : items.mapM read = some results) : results.length = items.length := by
  have lengths := congrArg List.length (mapM_eq_some_iff.mp done)
  rwa [List.length_map, List.length_map, eq_comm] at lengths

/-- The rows of a write that is followed by a select are matched by the keys of the written ones. -/
theorem Write.run_of_reread {write : Write} {scope : Scope} {store : Store}
    {statement : Sql.Statement} {select : Sql.Select} {written fetched : List Json}
    (executed : (write.run scope store).executed = [.rows statement, .rows (.select select)])
    (first : store.nextReply.answer = .ok written)
    (second : store.afterReply.nextReply.answer = .ok fetched) :
    ∃ projection keys, write.projection = some projection ∧
      Rehydrate.keys? projection written = some keys ∧
      (write.run scope store).result =
        .ok ⟨written, Rehydrate.realign (Rehydrate.keyed fetched) (keys.zip written)⟩ := by
  have opened : store.isClosed = false := by
    cases access : store.isClosed with
    | false => rfl
    | true =>
        rw [Write.run_of_closed access] at executed
        exact absurd executed nofun
  rw [Write.run_of_open opened, first] at executed ⊢
  have reread := (List.cons.inj executed).2
  cases projected : write.projection with
  | none =>
      simp only [Write.afterwards, projected] at reread
      exact absurd reread nofun
  | some projection =>
      simp only [Write.afterwards, projected] at reread ⊢
      cases keyed : Rehydrate.keys? projection written with
      | none =>
          rw [Rehydrate.rows_of_kept keyed] at reread
          exact absurd reread nofun
      | some keys =>
          cases compiled : Compile.selectByKeys scope write.table projection
              (keys.map Datum.text) with
          | error error =>
              rw [Rehydrate.rows_of_refused keyed compiled] at reread
              exact absurd reread nofun
          | ok found =>
              refine ⟨projection, keys, rfl, keyed, ?_⟩
              rw [Rehydrate.rows_of_compiled keyed compiled, second]
              rfl

namespace Service

open Rehydrate (HasReadShape)

variable {scope : Scope} {name : String} {query : Query} {kind : ChangeKind} {store : Store}

/-- A write whose rows are read again answers with the rows that were found, exactly where these
carry the distinct keys of the written rows; where the select does not give the `id`, it answers
with the rows as the write returned them. -/
theorem runWrite_rows {prepared : Except Error Write} {statement : Sql.Statement}
    {select : Sql.Select} {written fetched : List Json}
    (prepares : Prepares scope name query kind prepared)
    (executed : (runWrite scope prepared store).executed =
      [.rows statement, .rows (.select select)])
    (first : store.nextReply.answer = .ok written)
    (second : store.afterReply.nextReply.answer = .ok fetched) :
    ∃ projection keys rows, Projection.parse query.select? = .ok projection ∧
      projection.hasRelations = true ∧ written.mapM Json.rowKey? = some keys ∧
      (runWrite scope prepared store).result = .ok ⟨written, rows⟩ ∧
      (HasReadShape written fetched rows ↔
        keys.Nodup ∧ (fetched.map Json.idText?).Perm (keys.map some) ∧
          ∀ row ∈ fetched, row ∉ written) ∧
      ∀ columns, (∀ row ∈ fetched, row.HasMembers (select.selection.names columns)) →
        "id" ∉ select.selection.names columns → rows = written := by
  cases prepared with
  | error error => exact absurd executed nofun
  | ok write =>
      have shows := (prepares.isPrepared rfl).shows
      obtain ⟨projection, keys, projected, keyed, result⟩ :=
        Write.run_of_reread executed first second
      obtain ⟨related, -, read⟩ := Rehydrate.keys?_eq_some keyed
      have aligned := length_of_mapM read
      rw [projected] at shows
      cases shows with
      | projected kept parsed =>
          refine ⟨projection, keys, _, parsed, related, read, result,
            Rehydrate.hasReadShape_realign_iff aligned, ?_⟩
          intro columns shaped absent
          rw [Rehydrate.keyed_eq_nil fun row member =>
            Json.field?_of_hasMembers (shaped row member) absent, Rehydrate.realign_nil]
          exact List.map_snd_zip (Nat.le_of_eq aligned.symm)

/-- A scope of one table, which refers to itself. -/
def crewScope : Scope := ⟨.ofTable ⟨⟨"crew", by decide⟩, false⟩, .none⟩

/-- A projection without the `id`. -/
def crewQuery : Query := ⟨[("select", "name,boss:crew(name)")]⟩

/-- A store that inserts one row, and finds it with its relation. -/
def crewStore : Store :=
  { replies := [{ rows := ["\x7b\"id\":1,\"name\":\"Ada\"\x7d"] },
      { rows := ["\x7b\"name\":\"Ada\",\"boss\":null\x7d"] }] }

/-- The select of the inserted row. -/
def crewSelect : Sql.Select where
  selection :=
    { source := ⟨"crew", by decide⟩
      allColumns := false
      columns := [⟨"name", by decide⟩]
      joins := [⟨⟨⟨"boss", by decide⟩, ⟨"crew", by decide⟩, .listed [⟨"name", by decide⟩]⟩, none⟩] }
  tenant := none
  filters := [.single (.within ⟨some ⟨"crew", by decide⟩, .id⟩ [.text "1"])]

theorem runWrite_rows_crew :
    (runWrite crewScope (prepareInsert crewScope "crew" [.ofFields [("name", .string "Ada")]]
      crewQuery) crewStore).result =
        .ok ⟨[.object [("id", .ofInt 1), ("name", .string "Ada")]],
          [.object [("id", .ofInt 1), ("name", .string "Ada")]]⟩ := by
  have executed : (runWrite crewScope (prepareInsert crewScope "crew"
      [.ofFields [("name", .string "Ada")]] crewQuery) crewStore).executed =
        [.rows (.insert ⟨⟨"crew", by decide⟩, [⟨"name", by decide⟩], [[some (.text "Ada")]]⟩),
          .rows (.select crewSelect)] := by
    with_unfolding_all rfl
  have first : crewStore.nextReply.answer =
      .ok [.object [("id", .ofInt 1), ("name", .string "Ada")]] := by
    with_unfolding_all rfl
  have second : crewStore.afterReply.nextReply.answer =
      .ok [.object [("boss", .null), ("name", .string "Ada")]] := by
    with_unfolding_all rfl
  have names : crewSelect.selection.names ["id", "name"] = ["name", "boss"] := rfl
  have shaped : ∀ row ∈ [Json.object [("boss", .null), ("name", .string "Ada")]],
      row.HasMembers (crewSelect.selection.names ["id", "name"]) := by
    intro row member
    cases List.mem_singleton.mp member
    refine ⟨_, rfl, fun column => ?_⟩
    rw [names]
    simp [or_comm]
  obtain ⟨projection, keys, rows, -, -, -, result, -, returned⟩ :=
    runWrite_rows (.insert _) executed first second
  rw [returned ["id", "name"] shaped (by rw [names]; decide)] at result
  exact result

end Service

end TableGate

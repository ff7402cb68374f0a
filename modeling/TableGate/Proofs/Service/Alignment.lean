import Mathlib.Data.List.Nodup
import Mathlib.Data.List.Perm.Subperm
import Mathlib.Data.List.ReduceOption
import TableGate.Proofs.Service.Rehydration

/-!
# Alignment of rows that are read again

Each written row keeps its place: there stands the row itself, or a row that was fetched with its
key.  Which one it is depends on the keys only (`Rehydrate.picks`), whatever rows the store answers
with, in whatever order.  No fetched row is used twice, and none that is wanted is left out where
the keys are distinct (`Rehydrate.rows_aligned`).
-/

namespace TableGate.Rehydrate

variable {entries : List (String × Json)} {keys : List String}

/-! ### Picked rows -/

/-- The row that is picked for each key: the one found under it, unless it has been taken before. -/
def picks (entries : List (String × Json)) : List String → List (Option Json)
  | [] => []
  | key :: rest => entries.lookup key :: picks (entries.filter fun entry => entry.1 != key) rest

@[simp]
theorem length_picks (entries : List (String × Json)) (keys : List String) :
    (picks entries keys).length = keys.length := by
  induction keys generalizing entries with
  | nil => rfl
  | cons key rest ih => rw [picks, List.length_cons, ih, List.length_cons]

theorem filter_eq_self_of_lookup {key : String} (missing : entries.lookup key = none) :
    (entries.filter fun entry => entry.1 != key) = entries := by
  rw [List.filter_eq_self]
  intro entry member
  exact bne_iff_ne.mpr (bne_iff_ne.mp (List.lookup_eq_none_iff.mp missing entry member)).symm

/-- Rows are put in the places that they are picked for. -/
theorem realign_zip (entries : List (String × Json)) (keys : List String) (written : List Json) :
    realign entries (keys.zip written) =
      List.zipWith (fun row pick => pick.getD row) written (picks entries keys) := by
  induction keys generalizing entries written with
  | nil => cases written <;> rfl
  | cons key rest ih =>
      cases written with
      | nil => rfl
      | cons row others =>
          rw [List.zip_cons_cons, realign, picks, List.zipWith_cons_cons]
          cases search : entries.lookup key with
          | none =>
              rw [filter_eq_self_of_lookup search, ← ih]
              rfl
          | some found =>
              rw [← ih]
              rfl

/-- A row is picked for the key that it is found under. -/
theorem mem_of_picks {place : Nat} {row : Json}
    (picked : (picks entries keys)[place]? = some (some row)) :
    ∃ key, keys[place]? = some key ∧ (key, row) ∈ entries := by
  induction keys generalizing entries place with
  | nil => exact absurd picked nofun
  | cons key rest ih =>
      cases place with
      | zero =>
          obtain ⟨front, back, rfl, -⟩ := List.lookup_eq_some_iff.mp (Option.some.inj picked)
          exact ⟨key, rfl, List.mem_append_right _ List.mem_cons_self⟩
      | succ place =>
          obtain ⟨other, named, member⟩ := ih picked
          exact ⟨other, named, (List.mem_filter.mp member).1⟩

/-- A row that is found and the rows that are left without its key were all there before. -/
theorem subperm_of_lookup {key : String} {row : Json} (found : entries.lookup key = some row) :
    (row :: (entries.filter fun entry => entry.1 != key).map Prod.snd).Subperm
      (entries.map Prod.snd) := by
  obtain ⟨front, back, rfl, -⟩ := List.lookup_eq_some_iff.mp found
  rw [List.filter_append, List.filter_cons_of_neg (by simp), List.map_append, List.map_append,
    List.map_cons]
  exact List.perm_middle.symm.subperm.trans
    ((List.filter_sublist.map _).append ((List.filter_sublist.map _).cons_cons row)).subperm

/-- No row is picked more often than it was found. -/
theorem reduceOption_picks_subperm (entries : List (String × Json)) (keys : List String) :
    (picks entries keys).reduceOption.Subperm (entries.map Prod.snd) := by
  induction keys generalizing entries with
  | nil => exact List.nil_subperm
  | cons key rest ih =>
      rw [picks]
      cases search : entries.lookup key with
      | none =>
          rw [List.reduceOption_cons_of_none, filter_eq_self_of_lookup search]
          exact ih entries
      | some row =>
          rw [List.reduceOption_cons_of_some]
          exact ((List.subperm_cons row).mpr (ih _)).trans (subperm_of_lookup search)

/-- A row that is found under another key is still found when a key is taken out. -/
theorem lookup_filter_of_ne {key other : String} (apart : other ≠ key) :
    (entries.filter fun entry => entry.1 != key).lookup other = entries.lookup other := by
  induction entries with
  | nil => rfl
  | cons entry rest ih =>
      obtain ⟨name, row⟩ := entry
      by_cases same : name = key
      · subst same
        rw [List.filter_cons_of_neg (by simp), ih, List.lookup_cons, beq_false_of_ne apart]
      · rw [List.filter_cons_of_pos (by simpa using same), List.lookup_cons, List.lookup_cons, ih]

/-- Under distinct keys each row is picked that is found. -/
theorem picks_of_nodup (distinct : keys.Nodup) :
    picks entries keys = keys.map fun key => entries.lookup key := by
  induction keys generalizing entries with
  | nil => rfl
  | cons key rest ih =>
      obtain ⟨fresh, others⟩ := List.nodup_cons.mp distinct
      rw [picks, ih others, List.map_cons]
      congr 1
      refine List.map_congr_left fun other member => lookup_filter_of_ne ?_
      rintro rfl
      exact fresh member

/-! ### Fetched rows -/

variable {fetched written rows : List Json}

/-- The rows that can be found are fetched ones. -/
theorem map_snd_keyed_subperm (fetched : List Json) :
    ((keyed fetched).map Prod.snd).Subperm fetched := by
  have among : ((fetched.filterMap fun row => (row.field? "id").map fun key =>
      (key.keyText, row)).map Prod.snd).Sublist fetched := by
    induction fetched with
    | nil => exact List.Sublist.refl []
    | cons row rest ih =>
        cases field : row.field? "id" with
        | none =>
            rw [List.filterMap_cons, field]
            exact ih.cons row
        | some key =>
            rw [List.filterMap_cons, field]
            exact ih.cons_cons row
  rw [keyed, List.map_reverse]
  exact (List.reverse_perm _).subperm.trans among.subperm

/-- A fetched row with an `id` leaves a row to be found under its key. -/
theorem lookup_keyed {key : String} {row : Json} (member : row ∈ fetched)
    (named : row.idText? = some key) : ∃ found, (keyed fetched).lookup key = some found := by
  cases search : (keyed fetched).lookup key with
  | some found => exact ⟨found, rfl⟩
  | none =>
      have listed : key ∈ (keyed fetched).map Prod.fst := by
        rw [map_fst_keyed, List.mem_reverse]
        exact List.mem_filterMap.mpr ⟨row, member, named⟩
      obtain ⟨entry, present, rfl⟩ := List.mem_map.mp listed
      exact absurd rfl (bne_iff_ne.mp (List.lookup_eq_none_iff.mp search entry present))

/-- Rows stand in the places of written ones: some of them were picked among the fetched rows. -/
structure Aligned (fetched written rows : List Json) (picks : List (Option Json)) : Prop where
  length_rows : rows.length = written.length
  length_picks : picks.length = written.length
  /-- Where no row is picked, there stands the written one. -/
  kept : ∀ place : Nat, picks[place]? = some none → rows[place]? = written[place]?
  /-- A picked row stands in the place of a written one with its key. -/
  taken : ∀ (place : Nat) row, picks[place]? = some (some row) → rows[place]? = some row ∧
    ∃ original key, written[place]? = some original ∧ original.rowKey? = some key ∧
      row.idText? = some key
  /-- Every fetched row is picked once at most. -/
  once : picks.reduceOption.Subperm fetched
  /-- If the keys are distinct, a row is picked for each that a fetched row has. -/
  found : (written.map Json.rowKey?).Nodup → ∀ (place : Nat) original key row,
    written[place]? = some original → original.rowKey? = some key → row ∈ fetched →
    row.idText? = some key → ∃ pick, picks[place]? = some (some pick)

/-- Rows that are answered as they were written are aligned without a pick. -/
theorem aligned_of_kept (written : List Json) :
    Aligned [] written written (written.map fun _ => none) where
  length_rows := rfl
  length_picks := List.length_map _
  kept _ _ := rfl
  taken place row picked := by
    rw [List.getElem?_map] at picked
    obtain ⟨original, -, same⟩ := Option.map_eq_some_iff.mp picked
    exact absurd same nofun
  once := by
    have unpicked : (written.map fun _ => (none : Option Json)).reduceOption = [] := by
      rw [List.reduceOption, List.filterMap_map]
      exact List.filterMap_eq_nil_iff.mpr fun _ _ => rfl
    rw [unpicked]
  found _ _ _ _ _ _ _ member _ := absurd member List.not_mem_nil

/-- Rows that are matched by the keys of the written ones are aligned with them. -/
theorem aligned_of_realign (read : written.mapM Json.rowKey? = some keys) :
    Aligned fetched written (realign (keyed fetched) (keys.zip written))
      (picks (keyed fetched) keys) := by
  have lengths : keys.length = written.length := length_of_mapM read
  have paired : written.map Json.rowKey? = keys.map some := mapM_eq_some_iff.mp read
  have complete : (realign (keyed fetched) (keys.zip written)).length = written.length := by
    rw [realign_length, List.length_zip, lengths, Nat.min_self]
  rw [realign_zip] at complete ⊢
  constructor
  case length_rows => exact complete
  case length_picks => rw [length_picks, lengths]
  case kept =>
    intro place unpicked
    rw [List.getElem?_zipWith, unpicked]
    cases written[place]? <;> rfl
  case taken =>
    intro place row picked
    obtain ⟨key, named, member⟩ := mem_of_picks picked
    have keyed : (written.map Json.rowKey?)[place]? = some (some key) := by
      rw [paired, List.getElem?_map, named]
      rfl
    rw [List.getElem?_map] at keyed
    obtain ⟨original, present, same⟩ := Option.map_eq_some_iff.mp keyed
    refine ⟨?_, original, key, present, same, (mem_keyed member).2⟩
    rw [List.getElem?_zipWith, present, picked]
    rfl
  case once =>
    exact (reduceOption_picks_subperm _ _).trans (map_snd_keyed_subperm fetched)
  case found =>
    intro distinct place original key row present named member carried
    rw [paired] at distinct
    obtain ⟨pick, search⟩ := lookup_keyed member carried
    have listed : keys[place]? = some key := by
      have same : (written.map Json.rowKey?)[place]? = (keys.map some)[place]? := by rw [paired]
      rw [List.getElem?_map, List.getElem?_map, present, Option.map_some, named] at same
      obtain ⟨found, reads, shape⟩ := Option.map_eq_some_iff.mp same.symm
      rwa [← Option.some.inj shape]
    refine ⟨pick, ?_⟩
    rw [picks_of_nodup (List.Nodup.of_map some distinct), List.getElem?_map, listed,
      Option.map_some, search]

/-- The rows that were fetched while written rows were read again: none where no statement was
executed, and otherwise those that the store answered its one select with. -/
inductive Fetches (store : Store) (fetched : List Json) : List Command → Prop
  | unread (none : fetched = []) : Fetches store fetched []
  | read (select : Sql.Select) (answered : store.nextReply.answer = .ok fetched) :
      Fetches store fetched [.rows (.select select)]

/-- Whatever rows are fetched, each place holds the written row or a fetched row with its key, no
fetched row stands in two places, and under distinct keys none is left out that is wanted. -/
theorem rows_aligned {scope : Scope} {table : Table} {projection : Projection} {store : Store}
    (done : (Rehydrate.rows scope table projection written store).result = .ok rows) :
    ∃ fetched picks,
      Fetches store fetched (Rehydrate.rows scope table projection written store).executed ∧
      Aligned fetched written rows picks := by
  cases reread : keys? projection written with
  | none =>
      rw [rows_of_kept reread] at done ⊢
      cases done
      exact ⟨[], _, .unread rfl, aligned_of_kept written⟩
  | some keys =>
      cases compiled : Compile.selectByKeys scope table projection (keys.map Datum.text) with
      | error error =>
          rw [rows_of_refused reread compiled] at done
          exact absurd done nofun
      | ok select =>
          rw [rows_of_compiled reread compiled] at done ⊢
          obtain ⟨fetched, answered, rfl⟩ := map_eq_ok.mp done
          exact ⟨fetched, _, .read select answered,
            aligned_of_realign (keys?_eq_some reread).2.2⟩

/-- A table of rosters that refers to itself. -/
def rosterTable : Table := ⟨⟨"roster", by decide⟩, false⟩

def rosterScope : Scope := ⟨.ofTable rosterTable, .none⟩

/-- All columns of a roster, and its lead. -/
def rosterProjection : Projection where
  allColumns := true
  relations := [⟨⟨"lead", by decide⟩, ⟨"roster", by decide⟩, .all⟩]

/-- Three rows that have been written. -/
def rosterRows : List Json :=
  [.object [("id", .ofInt 1)], .object [("id", .ofInt 2)], .object [("id", .string "3")]]

/-- A store that answers in another order, with a key spelled as text, a row without a key, a key
twice and a key that was not asked for. -/
def rosterStore : Store :=
  { replies := [{ rows := ["\x7b\"id\":\"2\",\"lead\":null\x7d", "\x7b\"lead\":null\x7d",
      "\x7b\"id\":1,\"lead\":4\x7d", "\x7b\"id\":1,\"lead\":5\x7d",
      "\x7b\"id\":9,\"lead\":null\x7d"] }] }

theorem rows_aligned_roster :
    (Rehydrate.rows rosterScope rosterTable rosterProjection rosterRows rosterStore).result =
        .ok [.object [("id", .ofInt 1), ("lead", .ofInt 5)],
          .object [("id", .string "2"), ("lead", .null)], .object [("id", .string "3")]] ∧
      ∃ fetched picks,
        Fetches rosterStore fetched
            (Rehydrate.rows rosterScope rosterTable rosterProjection rosterRows
              rosterStore).executed ∧
        Aligned fetched rosterRows [.object [("id", .ofInt 1), ("lead", .ofInt 5)],
          .object [("id", .string "2"), ("lead", .null)], .object [("id", .string "3")]] picks := by
  have done : (Rehydrate.rows rosterScope rosterTable rosterProjection rosterRows
      rosterStore).result = .ok [.object [("id", .ofInt 1), ("lead", .ofInt 5)],
        .object [("id", .string "2"), ("lead", .null)], .object [("id", .string "3")]] := by
    with_unfolding_all rfl
  exact ⟨done, rows_aligned done⟩

end TableGate.Rehydrate

import TableGate.Proofs.Compile.Paging
import TableGate.Proofs.Config.Resolution

/-!
# Pages of a configured gateway

A configuration names its largest page, and is valid with any positive one; offsets have no bound of
their own.  A store that counts rows by signed 64-bit numbers therefore takes the limit of a read
where the largest page or the limit that is asked for is such a number, and the offset unless one is
asked for that needs the 64th bit (`Config.select_bounded`).
-/

namespace TableGate

open Sql (Statement)
open Text (wordBound)

/-- One more than the largest signed 64-bit number. -/
def signedBound : Nat := Nat.pow 2 63

namespace Query.AsksPage

variable {query : Query} {maxLimit limit : Nat} {offset? : Option Nat}

/-- A limit is a signed number where the largest page is one or the query asks for one. -/
theorem limit_lt_iff (asks : query.AsksPage maxLimit limit offset?) :
    limit < signedBound ↔
      maxLimit < signedBound ∨ ∃ number, query.Asks "limit" number ∧ number < signedBound := by
  constructor
  · intro small
    by_cases asked : ∃ number, query.Asks "limit" number
    · obtain ⟨number, spelled⟩ := asked
      rw [asks.limited number spelled, Nat.min_def] at small
      split at small
      · exact .inr ⟨number, spelled, small⟩
      · exact .inl small
    · exact .inl (asks.unlimited asked ▸ small)
  · rintro (small | ⟨number, spelled, small⟩)
    · exact Nat.lt_of_le_of_lt asks.capped small
    · rw [asks.limited number spelled]
      exact Nat.lt_of_le_of_lt (Nat.min_le_left _ _) small

/-- An offset is a signed number unless the query asks for one that needs all of 64 bits. -/
theorem offset_lt_iff (asks : query.AsksPage maxLimit limit offset?) :
    (∀ number, offset? = some number → number < signedBound) ↔
      ∀ number, query.Asks "offset" number → number < signedBound ∨ wordBound ≤ number := by
  constructor
  · intro small number spelled
    by_contra! between
    have positive : 0 < number := Nat.lt_of_lt_of_le (by decide) between.1
    have skipped := (asks.skipped number).mpr ⟨spelled, positive, between.2⟩
    exact Nat.not_lt.mpr between.1 (small number skipped)
  · intro bounded number skipped
    obtain ⟨spelled, -, below⟩ := (asks.skipped number).mp skipped
    exact (bounded number spelled).resolve_right (Nat.not_le.mpr below)

end Query.AsksPage

namespace Config

/-- A valid configuration has a catalog with its largest page. -/
theorem exists_catalog_of_validate {config : Config} (valid : config.validate = .ok ()) :
    ∃ catalog, Catalog.ofConfig config = .ok catalog ∧ catalog.maxLimit = config.maxLimit := by
  rw [← Catalog.ofConfig_eq_validate] at valid
  obtain ⟨catalog, resolved, -⟩ := map_eq_ok.mp valid
  exact ⟨catalog, resolved, (Catalog.ofConfig_eq_ok resolved).2.2.symm⟩

/-- **The numbers of a page are bounded as the configuration and the query have them.**  With the
catalog of a valid configuration, the limit in the text of a compiled read is never more than the
largest page, and the offset is a 64-bit number.  The limit is a signed number exactly where the
largest page is one or the query asks for one; the offset is one, if there is any, exactly where the
query does not ask for one between the largest signed number and the largest of 64 bits. -/
theorem select_bounded {config : Config} (fits : config.maxLimit < wordBound)
    (valid : config.validate = .ok ()) :
    ∃ catalog, Catalog.ofConfig config = .ok catalog ∧
      ∀ tenant table projection query statement,
        Compile.select ⟨catalog, tenant⟩ table projection query = .ok statement →
          ∃ front limit offset?,
            Sql.PagedText front (Statement.select statement).text limit offset? ∧
              limit ≤ config.maxLimit ∧
              (∀ number, offset? = some number → number < wordBound) ∧
              (limit < signedBound ↔ config.maxLimit < signedBound ∨
                ∃ number, query.Asks "limit" number ∧ number < signedBound) ∧
              ((∀ number, offset? = some number → number < signedBound) ↔
                ∀ number, query.Asks "offset" number →
                  number < signedBound ∨ wordBound ≤ number) := by
  obtain ⟨catalog, resolved, largest⟩ := exists_catalog_of_validate valid
  rw [← largest] at fits ⊢
  refine ⟨catalog, resolved, fun tenant table projection query statement compiled => ?_⟩
  obtain ⟨limit, offset?, text, asks⟩ := Compile.pagedText_of_select fits compiled
  exact ⟨_, limit, offset?, text, asks.capped,
    fun number skipped => ((asks.skipped number).mp skipped).2.2, asks.limit_lt_iff,
    asks.offset_lt_iff⟩

/-- A gateway for tickets whose largest page is no signed number. -/
def vastConfig : Config := { tables := [⟨"tickets", false⟩], maxLimit := 9223372036854775808 }

/-- A table of tickets that all tenants share. -/
def vastTable : Table := ⟨⟨"tickets", by decide⟩, false⟩

/-- The catalog of the gateway. -/
def vastCatalog : Catalog :=
  ⟨[vastTable], ⟨"negocio_id", by decide⟩, 9223372036854775808, List.pairwise_singleton _ _,
    by decide⟩

theorem ofConfig_vast : Catalog.ofConfig vastConfig = .ok vastCatalog := rfl

/-- A query for signed numbers. -/
def signedQuery : Query := ⟨[("limit", "10"), ("offset", "9223372036854775807")]⟩

theorem select_bounded_vast :
    vastConfig.maxLimit < wordBound ∧ vastConfig.validate = .ok () ∧
      ∃ catalog statement front limit offset?, Catalog.ofConfig vastConfig = .ok catalog ∧
        Compile.select ⟨catalog, .none⟩ vastTable {} signedQuery = .ok statement ∧
        Sql.PagedText front (Statement.select statement).text limit offset? ∧
        limit < signedBound ∧ ∀ number, offset? = some number → number < signedBound := by
  have fits : vastConfig.maxLimit < wordBound := by decide
  have valid : vastConfig.validate = .ok () := by decide
  have compiles : ((Compile.select ⟨vastCatalog, .none⟩ vastTable {} signedQuery).map
      Sql.Select.page).toOption = some (some ⟨10, 9223372036854775807⟩) := by
    decide +kernel
  obtain ⟨statement, compiled, -⟩ := exists_ok_of_toOption compiles
  obtain ⟨catalog, resolved, bounded⟩ := select_bounded fits valid
  obtain rfl : vastCatalog = catalog := Except.ok.inj (ofConfig_vast.symm.trans resolved)
  obtain ⟨front, limit, offset?, text, -, -, limits, offsets⟩ := bounded _ _ _ _ _ compiled
  refine ⟨fits, valid, vastCatalog, statement, front, limit, offset?, resolved, compiled, text,
    limits.mpr (.inr ⟨10, Query.asked?_eq_some_iff.mp (by decide), by decide⟩),
    offsets.mpr fun number spelled => .inl ?_⟩
  have largest : signedQuery.asked? "offset" = some 9223372036854775807 := by decide
  rw [Query.asked?_eq_some_iff.mpr spelled, Option.some.injEq] at largest
  rw [largest]
  decide

/-- A query for an offset that is no signed number. -/
def unsignedQuery : Query := ⟨[("offset", "9223372036854775808")]⟩

/-- Both numbers of a page of this gateway can be beyond the largest signed one. -/
theorem select_beyond_signed :
    vastConfig.maxLimit < wordBound ∧ vastConfig.validate = .ok () ∧
      ∃ catalog statement, Catalog.ofConfig vastConfig = .ok catalog ∧
        catalog.lookup "tickets" = .ok vastTable ∧
        Compile.select ⟨catalog, .none⟩ vastTable {} unsignedQuery = .ok statement ∧
        Sql.PagedText "SELECT \"tickets\".* FROM \"tickets\"" (Statement.select statement).text
          9223372036854775808 (some 9223372036854775808) ∧
        signedBound - 1 < 9223372036854775808 := by
  have compiles : ((Compile.select ⟨vastCatalog, .none⟩ vastTable {} unsignedQuery).map
      fun statement => (statement.page, Sql.Fragment.text 1 (Statement.select statement).body)
      ).toOption = some (some ⟨9223372036854775808, 9223372036854775808⟩,
        "SELECT \"tickets\".* FROM \"tickets\"") := by
    decide +kernel
  obtain ⟨statement, compiled, shown⟩ := exists_ok_of_toOption compiles
  obtain ⟨paged, front⟩ := Prod.mk.inj shown
  have text := Sql.Select.pagedText paged
  rw [front] at text
  exact ⟨by decide, by decide, vastCatalog, statement, ofConfig_vast, by decide, compiled, text,
    by decide⟩

end Config

end TableGate

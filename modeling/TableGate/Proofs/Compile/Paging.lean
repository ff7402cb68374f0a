import TableGate.Proofs.Compile.Narrowing
import TableGate.Proofs.Statement.Bare
import TableGate.Proofs.Statement.Correlation
import TableGate.Proofs.Text.Numeral

/-!
# Pages

A read ends with the clauses of its page, the only ones of their kind (`Sql.PagedText`).  The limit
is the number that the query asks for, however large, or the largest page where it asks for none,
and never exceeds the largest page; an offset is written where the query asks for a positive 64-bit
number (`Query.AsksPage`).  What stands before the page depends on neither
(`Compile.select_paged`).
-/

namespace TableGate

open Sql (Fragment Statement Word occurrences bare)
open Text (wordBound)

/-! ### The numbers of a query -/

namespace Query

/-- The first value of a name spells a number. -/
def Asks (query : Query) (name : String) (number : Nat) : Prop :=
  ∃ value, query.get? name = some value ∧ Text.Spells value.toList number

/-- The number that the first value of a name spells. -/
def asked? (query : Query) (name : String) : Option Nat :=
  (query.get? name).bind fun value => Text.unsigned? (Text.trim value.toList)

variable {query left right : Query} {name : String} {number : Nat}

theorem asked?_eq_some_iff : query.asked? name = some number ↔ query.Asks name number := by
  simp only [asked?, Option.bind_eq_some_iff, Asks, Text.spells_iff]

/-- A query asks for 64-bit numbers as for any others. -/
theorem number?_eq (query : Query) (name : String) :
    query.number? name = (query.asked? name).filter fun number => decide (number < wordBound) := by
  rw [number?, asked?]
  cases query.get? name with
  | none => rfl
  | some value => exact Text.word?_eq _

/-- The page that a query asks for, where none is longer than the largest one: the limit is the
number that is asked for, and the offset a positive 64-bit number. -/
structure AsksPage (query : Query) (maxLimit limit : Nat) (offset? : Option Nat) : Prop where
  limited : ∀ number, query.Asks "limit" number → limit = min number maxLimit
  unlimited : (¬ ∃ number, query.Asks "limit" number) → limit = maxLimit
  capped : limit ≤ maxLimit
  skipped : ∀ number, offset? = some number ↔
    query.Asks "offset" number ∧ 0 < number ∧ number < wordBound

/-- A parameter asks for a limit or an offset. -/
def isPaging (parameter : String × String) : Bool :=
  parameter.1 == "limit" || parameter.1 == "offset"

/-- Two queries differ in what they say of their pages only. -/
def SameApartFromPage (left right : Query) : Prop :=
  (left.pairs.filter fun parameter => !isPaging parameter) =
    right.pairs.filter fun parameter => !isPaging parameter

instance (left right : Query) : Decidable (SameApartFromPage left right) :=
  inferInstanceAs (Decidable (_ = _))

/-- Any other name has the same first value without them. -/
theorem lookup_filter (other : ∀ value, isPaging (name, value) = false)
    (parameters : List (String × String)) :
    (parameters.filter fun parameter => !isPaging parameter).lookup name =
      parameters.lookup name := by
  induction parameters with
  | nil => rfl
  | cons parameter rest ih =>
      obtain ⟨key, value⟩ := parameter
      by_cases paging : isPaging (key, value) = true
      · have apart : name ≠ key := by
          rintro rfl
          exact absurd paging (by simp [other value])
        rw [List.filter_cons_of_neg (by simp [paging]), ih, List.lookup_cons, beq_false_of_ne apart]
      · rw [List.filter_cons_of_pos (by simp [paging]), List.lookup_cons, List.lookup_cons, ih]

theorem SameApartFromPage.get?_eq (same : SameApartFromPage left right)
    (other : ∀ value, isPaging (name, value) = false) : left.get? name = right.get? name := by
  rw [get?, get?, ← lookup_filter other left.pairs, ← lookup_filter other right.pairs, same]

end Query

/-- The rows that a page skips, if it skips any. -/
def Sql.Page.skipped? (page : Page) : Option Nat :=
  if page.offset = 0 then none else some page.offset

theorem Sql.Page.skipped?_getD (limit : Nat) (found : Option Nat) :
    (Page.mk limit (found.getD 0)).skipped? = found.filter fun number => decide (0 < number) := by
  cases found with
  | none => rfl
  | some number => cases number <;> rfl

namespace Compile

/-- The page of a query, by the numbers that it asks for. -/
theorem page_eq (maxLimit : Nat) (query : Query) :
    page maxLimit query =
      ⟨min (((query.asked? "limit").filter fun number => decide (number < wordBound)).getD maxLimit)
          maxLimit,
        ((query.asked? "offset").filter fun number => decide (number < wordBound)).getD 0⟩ := by
  rw [← Query.number?_eq, ← Query.number?_eq]
  rfl

theorem asksPage {maxLimit : Nat} (fits : maxLimit < wordBound) (query : Query) :
    query.AsksPage maxLimit (page maxLimit query).limit (page maxLimit query).skipped? := by
  rw [page_eq]
  constructor
  · intro number asks
    rw [Query.asked?_eq_some_iff.mpr asks, Option.filter_some]
    split
    · rfl
    · next large =>
        -- a number beyond 64 bits is above every cap
        have above : wordBound ≤ number := by simpa using large
        have capped : min number maxLimit = maxLimit :=
          Nat.min_eq_right (Nat.le_trans (Nat.le_of_lt fits) above)
        rw [capped]
        exact Nat.min_self maxLimit
  · intro unasked
    have none : query.asked? "limit" = none :=
      Option.eq_none_iff_forall_ne_some.mpr fun number asked =>
        unasked ⟨number, Query.asked?_eq_some_iff.mp asked⟩
    rw [none]
    exact Nat.min_self maxLimit
  · exact Nat.min_le_right _ _
  · intro number
    rw [Sql.Page.skipped?_getD, Option.filter_eq_some_iff, Option.filter_eq_some_iff,
      Query.asked?_eq_some_iff, decide_eq_true_eq, decide_eq_true_eq, and_assoc]
    exact and_congr_right fun _ => And.comm

end Compile

/-! ### The text of a page -/

namespace Sql

/-- How a page is written: its limit, and the number of rows it skips. -/
def pageText (limit : Nat) (offset? : Option Nat) : String :=
  " LIMIT " ++ String.ofList (Text.digits limit) ++
    (offset?.map fun offset => " OFFSET " ++ String.ofList (Text.digits offset)).getD ""

/-- A text ends with a page after some front.  Outside quotes there is one limit, and one offset if
rows are skipped, and the clauses of conditions and of the order come before. -/
structure PagedText (front text : String) (limit : Nat) (offset? : Option Nat) : Prop where
  ends : text = front ++ pageText limit offset?
  outside : bare text = bare front ++ (pageText limit offset?).toList
  limits : occurrences "LIMIT".toList (bare text) = 1
  offsets : occurrences "OFFSET".toList (bare text) = offset?.toList.length
  earlier : ∀ clause ∈ ["WHERE", "ORDER BY"],
    occurrences clause.toList (pageText limit offset?).toList = 0

variable {limit : Nat} {offset? : Option Nat}

theorem Page.text_tokens (page : Page) (first : Nat) :
    Fragment.text first page.tokens = pageText page.limit page.skipped? := by
  unfold Page.tokens Page.skipped?
  split
  · rw [List.append_nil, Fragment.text_word_cons, Fragment.text_cons, Fragment.text_nil,
      ← String.append_assoc]
    rfl
  · simp only [List.cons_append, List.nil_append, Fragment.text_cons, Fragment.text_nil,
      Token.text, String.append_empty, ← String.append_assoc]
    rw [pageText, String.append_assoc]
    rfl

theorem not_mem_pageText {c : Char} (digit : ¬ c.isDigit = true)
    (absent : c ∉ [' ', 'L', 'I', 'M', 'T', 'O', 'F', 'S', 'E']) :
    c ∉ (pageText limit offset?).toList := by
  have digits (number : Nat) : c ∉ Text.digits number :=
    fun member => digit (isDigit_of_mem_digits member)
  simp only [List.mem_cons, List.not_mem_nil, or_false, not_or] at absent
  cases offset? with
  | none => simp [pageText, digits, absent]
  | some offset => simp [pageText, digits, absent]

/-- A page has no quotes. -/
theorem bare_pageText : bare (pageText limit offset?) = (pageText limit offset?).toList :=
  bare_of_plain ⟨not_mem_pageText (by decide) (by decide), not_mem_pageText (by decide) (by decide)⟩

/-- Letters in the text of a page are those of its keywords. -/
theorem occurrences_append_pageText {letters : List Char} (initial : Char)
    (capital : initial.isUpper = true) (spelled : initial ∈ letters) (solid : ' ' ∉ letters)
    (front : List Char) :
    occurrences letters (front ++ (pageText limit offset?).toList) =
      occurrences letters front + occurrences letters "LIMIT".toList +
        offset?.toList.length * occurrences letters "OFFSET".toList := by
  have present : letters ≠ [] := List.ne_nil_of_mem spelled
  have digits (number : Nat) : occurrences letters (Text.digits number) = 0 :=
    occurrences_of_not_mem spelled fun member =>
      not_isDigit_of_isUpper capital (isDigit_of_mem_digits member)
  cases offset? with
  | none =>
      have shape : (pageText limit none).toList =
          ' ' :: ("LIMIT".toList ++ ' ' :: Text.digits limit) := by
        simp [pageText]
      rw [shape, occurrences_append_blank solid present, occurrences_append_blank solid present,
        digits]
      simp
  | some offset =>
      have shape : (pageText limit (some offset)).toList =
          ' ' :: ("LIMIT".toList ++ ' ' :: (Text.digits limit ++
            ' ' :: ("OFFSET".toList ++ ' ' :: Text.digits offset))) := by
        simp [pageText]
      rw [shape, occurrences_append_blank solid present, occurrences_append_blank solid present,
        occurrences_append_blank solid present, occurrences_append_blank solid present,
        digits, digits]
      simp [Nat.add_assoc]

/-! ### What stands before a page -/

theorem Join.avoids_clause (source : Ident) (join : Join) :
    (join.clause source).Avoids [.limited, .skipping] := by
  rw [Join.clause_eq, Fragment.avoids_append]
  exact ⟨by simp, (join.avoids_conjuncts source).mono (by decide)⟩

theorem Selection.avoids_tokens (selection : Selection) :
    selection.tokens.Avoids [.limited, .skipping] := by
  have clauses : Fragment.Avoids [.limited, .skipping]
      (selection.clauses.flatMap fun clause => .word .spaceBetween :: clause) := by
    intro word member
    obtain ⟨clause, present, among⟩ := List.mem_flatMap.mp member
    obtain ⟨join, -, rfl⟩ := List.mem_map.mp present
    have each : Fragment.Avoids [.limited, .skipping]
        (.word .spaceBetween :: join.clause selection.source) := by
      rw [Fragment.avoids_word_cons]
      exact ⟨by decide, join.avoids_clause selection.source⟩
    exact each word among
  unfold Selection.tokens
  rw [List.cons_append, List.cons_append, Fragment.avoids_word_cons, Fragment.avoids_append,
    Fragment.avoids_append]
  exact ⟨by decide, ⟨(Isolation.avoids_outputs selection).mono (by decide), by simp⟩, clauses⟩

theorem Select.avoids_body (select : Select) :
    (Statement.select select).body.Avoids [.limited, .skipping] := by
  rw [Statement.body, Fragment.avoids_append, Fragment.avoids_append]
  exact ⟨⟨select.selection.avoids_tokens, (avoids_whereClause _).mono (by decide)⟩,
    (Isolation.avoids_orderClause _ _).mono (by decide)⟩

/-- The letters of a limit and of an offset have a pair that no other word has. -/
theorem apart_words (word : Word) (other : word ∉ [.limited, .skipping]) :
    Apart 'I' 'M' word.text.toList ∧ Apart 'F' 'F' word.text.toList := by
  cases word <;> first | exact absurd (by decide) other | decide

theorem pagedText_append {fragment : Fragment} (avoids : fragment.Avoids [.limited, .skipping])
    (limit : Nat) (offset? : Option Nat) :
    PagedText (Fragment.text 1 fragment) (Fragment.text 1 fragment ++ pageText limit offset?)
      limit offset? := by
  have apart (word : Word) (among : .word word ∈ fragment) := apart_words word (avoids word among)
  have limits : Apart 'I' 'M' (bare (Fragment.text 1 fragment)) :=
    Fragment.apart_bare (by decide) fun word among => (apart word among).1
  have offsets : Apart 'F' 'F' (bare (Fragment.text 1 fragment)) :=
    Fragment.apart_bare (by decide) fun word among => (apart word among).2
  have outside : bare (Fragment.text 1 fragment ++ pageText limit offset?) =
      bare (Fragment.text 1 fragment) ++ (pageText limit offset?).toList := by
    rw [Fragment.bare_append, bare_pageText]
  refine ⟨rfl, outside, ?_, ?_, ?_⟩
  · have own : occurrences "LIMIT".toList "LIMIT".toList = 1 := by decide
    have other : occurrences "LIMIT".toList "OFFSET".toList = 0 := by decide
    rw [outside, occurrences_append_pageText 'L' (by decide) (by decide) (by decide),
      limits.occurrences (by decide), own, other, Nat.mul_zero]
  · have other : occurrences "OFFSET".toList "LIMIT".toList = 0 := by decide
    have own : occurrences "OFFSET".toList "OFFSET".toList = 1 := by decide
    rw [outside, occurrences_append_pageText 'O' (by decide) (by decide) (by decide),
      offsets.occurrences (by decide), other, own, Nat.mul_one, Nat.zero_add]
  · intro clause listed
    have absent : 'R' ∉ (pageText limit offset?).toList :=
      not_mem_pageText (by decide) (by decide)
    simp only [List.mem_cons, List.not_mem_nil, or_false] at listed
    rcases listed with rfl | rfl <;> exact occurrences_of_not_mem (by decide) absent

/-- A page binds nothing. -/
theorem Select.values_body (select : Select) :
    (Statement.select select).values = Fragment.values (Statement.select select).body := by
  rw [Statement.values, Statement.tokens_eq_append, Fragment.values_append]
  exact (congrArg _ (values_page select.page)).trans (List.append_nil _)

/-- A select of a page ends with it. -/
theorem Select.pagedText {select : Select} {page : Page} (paged : select.page = some page) :
    PagedText (Fragment.text 1 (Statement.select select).body) (Statement.select select).text
      page.limit page.skipped? := by
  have ends : (Statement.select select).text =
      Fragment.text 1 (Statement.select select).body ++ pageText page.limit page.skipped? := by
    have shape : (Statement.select select).page?.map Page.tokens = some page.tokens :=
      congrArg (Option.map Page.tokens) paged
    rw [Statement.text, Statement.tokens_eq_append, shape, Option.getD_some, Fragment.text_append,
      Page.text_tokens]
  rw [ends]
  exact pagedText_append select.avoids_body _ _

end Sql

/-! ### Selects of pages -/

namespace Compile

variable {scope : Scope} {table : Table} {projection : Projection} {query other : Query}
  {statement : Sql.Select}

theorem filters_of_sameApartFromPage (same : query.SameApartFromPage other)
    (source : Option Ident) : filters source query.pairs = filters source other.pairs := by
  have skipped (parameter : String × String) (paging : (!Query.isPaging parameter) = false) :
      readFilter source parameter = .ok none := by
    have paged : Query.isPaging parameter = true := by simpa using paging
    rcases (Bool.or_eq_true _ _).mp paged with named | named <;>
      rw [readFilter, beq_iff_eq.mp named, if_neg (by decide), if_pos (by decide)]
  have kept (parameters : List (String × String)) :
      filters source (parameters.filter fun parameter => !Query.isPaging parameter) =
        filters source parameters :=
    acceptAll_filter skipped
  rw [← kept query.pairs, ← kept other.pairs, same]

/-- A query that differs in its page only compiles to the same select of another page. -/
theorem select_of_sameApartFromPage (same : query.SameApartFromPage other)
    (compiled : select scope table projection query = .ok statement) :
    select scope table projection other =
      .ok { statement with page := some (page scope.catalog.maxLimit other) } := by
  obtain ⟨tenant, selection, conditions, terms, enforced, resolved, filtered, ordered, rfl⟩ :=
    select_eq_ok compiled
  rw [filters_of_sameApartFromPage same] at filtered
  rw [order_congr (same.get?_eq fun _ => rfl)] at ordered
  exact bind_eq_ok.mpr ⟨tenant, enforced, bind_eq_ok.mpr ⟨selection,
    Outcome.toExcept_eq_ok.mpr resolved, bind_eq_ok.mpr ⟨conditions,
      Outcome.toExcept_eq_ok.mpr filtered, bind_eq_ok.mpr ⟨terms, ordered, rfl⟩⟩⟩⟩

/-- The text of a compiled read ends with the page that its query asks for. -/
theorem pagedText_of_select (fits : scope.catalog.maxLimit < wordBound)
    (compiled : select scope table projection query = .ok statement) :
    ∃ limit offset?,
      Sql.PagedText (Fragment.text 1 (Statement.select statement).body)
          (Statement.select statement).text limit offset? ∧
        query.AsksPage scope.catalog.maxLimit limit offset? := by
  obtain ⟨tenant, selection, conditions, terms, -, -, -, -, rfl⟩ := select_eq_ok compiled
  exact ⟨_, _, Sql.Select.pagedText rfl, asksPage fits query⟩

/-- **Pages are capped.**  Wherever the largest page is a 64-bit number, the text of a compiled read
has one limit outside quotes, after its conditions and its order.  It is the number that the query
asks for, whatever its size, but never more than the largest page, and the largest page where the
query asks for no number.  An offset follows exactly where the query asks for a positive 64-bit
number.  A query that differs in its limits and offsets only compiles as well, to the same text in
front of its page and to the same values. -/
theorem select_paged (fits : scope.catalog.maxLimit < wordBound)
    (compiled : select scope table projection query = .ok statement) :
    ∃ front limit offset?,
      Sql.PagedText front (Statement.select statement).text limit offset? ∧
        query.AsksPage scope.catalog.maxLimit limit offset? ∧
        ∀ other : Query, query.SameApartFromPage other →
          ∃ repaged otherLimit otherOffset?,
            select scope table projection other = .ok repaged ∧
              Sql.PagedText front (Statement.select repaged).text otherLimit otherOffset? ∧
              other.AsksPage scope.catalog.maxLimit otherLimit otherOffset? ∧
              (Statement.select repaged).values = (Statement.select statement).values := by
  obtain ⟨limit, offset?, text, asks⟩ := pagedText_of_select fits compiled
  refine ⟨_, limit, offset?, text, asks, fun other same => ?_⟩
  have again := select_of_sameApartFromPage same compiled
  obtain ⟨otherLimit, otherOffset?, otherText, otherAsks⟩ := pagedText_of_select fits again
  refine ⟨_, otherLimit, otherOffset?, again, otherText, otherAsks, ?_⟩
  -- the two statements have the same body, which binds all of the values
  rw [Sql.Select.values_body, Sql.Select.values_body]
  rfl

/-- A page of sorted cards; the first limit is above the largest page. -/
def pageQuery : Query :=
  ⟨[("limit", " +0250 "), ("title", "eq.a"), ("offset", "007"), ("order", "title.desc"),
    ("limit", "3")]⟩

/-- The same cards, with an offset beyond 64 bits and no limit. -/
def plainQuery : Query :=
  ⟨[("title", "eq.a"), ("order", "title.desc"), ("offset", "18446744073709551616")]⟩

/-- The read of the cards, up to its page. -/
def cardsText : String :=
  "SELECT \"cards\".* FROM \"cards\" WHERE \"cards\".\"tenant_id\" = $1 AND " ++
    "\"cards\".\"title\" = $2 ORDER BY \"cards\".\"title\" DESC"

theorem select_paged_cards :
    cardScope.catalog.maxLimit < wordBound ∧ pageQuery.SameApartFromPage plainQuery ∧
      ∃ statement repaged, select cardScope cardTable {} pageQuery = .ok statement ∧
        select cardScope cardTable {} plainQuery = .ok repaged ∧
        Sql.PagedText cardsText (Statement.select statement).text 100 (some 7) ∧
        Sql.PagedText cardsText (Statement.select repaged).text 100 none ∧
        (Statement.select repaged).values = (Statement.select statement).values := by
  have fits : cardScope.catalog.maxLimit < wordBound := by decide
  have same : pageQuery.SameApartFromPage plainQuery := by decide
  have written : ((select cardScope cardTable {} pageQuery).map
      fun statement => (Statement.select statement).text).toOption =
        some (cardsText ++ Sql.pageText 100 (some 7)) := by
    decide +kernel
  obtain ⟨statement, compiled, shown⟩ := exists_ok_of_toOption written
  obtain ⟨front, limit, offset?, text, asks, others⟩ := select_paged fits compiled
  obtain ⟨repaged, otherLimit, otherOffset?, again, otherText, otherAsks, values⟩ :=
    others plainQuery same
  obtain rfl : limit = 100 := asks.limited 250 (Query.asked?_eq_some_iff.mp (by decide))
  obtain rfl : offset? = some 7 :=
    (asks.skipped 7).mpr ⟨Query.asked?_eq_some_iff.mp (by decide), by decide, by decide⟩
  obtain rfl : otherLimit = 100 := by
    refine otherAsks.unlimited fun ⟨number, asked⟩ => ?_
    have unasked : plainQuery.asked? "limit" = none := by decide
    rw [Query.asked?_eq_some_iff.mpr asked] at unasked
    exact absurd unasked nofun
  obtain rfl : otherOffset? = none := by
    refine Option.eq_none_iff_forall_ne_some.mpr fun number skipped => ?_
    obtain ⟨asked, -, below⟩ := (otherAsks.skipped number).mp skipped
    have beyond : plainQuery.asked? "offset" = some wordBound := by decide
    rw [Query.asked?_eq_some_iff.mpr asked, Option.some.injEq] at beyond
    exact absurd beyond (Nat.ne_of_lt below)
  obtain rfl : front = cardsText := by
    have whole : front ++ Sql.pageText 100 (some 7) = cardsText ++ Sql.pageText 100 (some 7) :=
      text.ends.symm.trans shown
    exact (String.append_left_inj _).mp whole
  exact ⟨fits, same, statement, repaged, compiled, again, text, otherText, values⟩

end Compile

end TableGate

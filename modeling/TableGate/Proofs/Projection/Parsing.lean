import TableGate.Proofs.Compile.Outcome
import TableGate.Proofs.Projection.Grammar

/-!
# Reading projections

The reader of projections against their grammar, part by part: heads (`parseHead_eq_ok_iff`), fields
(`parseFields_eq_ok_iff`), terms (`addToken_eq_ok_iff`) and texts (`parse_eq_ok_iff`).  The reader
looks at nothing beside a star in a list of fields, so it reads the grammar in which anything may
stand there.
-/

namespace TableGate

open Text (Padded)

/-- Anything may stand beside a star. -/
def Fields.Anything : List Char → Prop := fun _ => True

variable {head inner piece text : List Char} {name target : Ident}

namespace Relation

variable {relation : Relation}

/-! ### Heads -/

/-- A head is read as a name and a target exactly where it is written with them, be it with a label
or without one. -/
theorem parseHead_eq_ok_iff :
    parseHead head = .ok (name, target) ↔ HeadWritten head name target := by
  unfold parseHead
  constructor
  · intro read
    split at read
    · next label rest cut =>
        obtain ⟨first, named, others⟩ := bind_eq_ok.mp read
        obtain ⟨second, aimed, shape⟩ := bind_eq_ok.mp others
        cases shape
        exact .labeled (Text.eq_of_cutAt cut) (Ident.read_trim_eq_ok_iff.mp named)
          (Ident.read_trim_eq_ok_iff.mp aimed)
    · obtain ⟨first, aimed, shape⟩ := bind_eq_ok.mp read
      cases shape
      exact .bare rfl (Ident.read_trim_eq_ok_iff.mp aimed)
  · intro headed
    cases headed with
    | @labeled label rest shape named aimed =>
        have absent : ':' ∉ label :=
          mt (Text.mem_of_padded (by decide) named) (name.not_mem_text (by decide))
        rw [shape, Text.cutAt_append absent]
        exact bind_eq_ok.mpr ⟨name, Ident.read_trim_eq_ok_iff.mpr named,
          bind_eq_ok.mpr ⟨target, Ident.read_trim_eq_ok_iff.mpr aimed, rfl⟩⟩
    | bare same aimed =>
        obtain rfl := same
        have absent : ':' ∉ head :=
          mt (Text.mem_of_padded (by decide) aimed) (name.not_mem_text (by decide))
        rw [Text.cutAt_eq_none_iff.mpr absent]
        exact bind_eq_ok.mpr ⟨name, Ident.read_trim_eq_ok_iff.mpr aimed, rfl⟩

/-- Blanks before a head are blanks before its first name. -/
theorem HeadWritten.trimStart (headed : HeadWritten head name target) :
    HeadWritten (Text.trimStart head) name target := by
  cases headed with
  | labeled shape named aimed =>
      rw [shape, Text.trimStart_append_cons (by decide)]
      exact .labeled rfl (named.trimStart name.trim_text) aimed
  | bare same aimed => exact .bare same (aimed.trimStart target.trim_text)

/-! ### Fields -/

/-- The names between parentheses are the items there, trimmed. -/
theorem fieldNames_eq (inner : List Char) :
    fieldNames inner = (Fields.items inner).map Text.trim := (Text.map_trim_filter _).symm

/-- A star is among the trimmed items exactly where one of them is a star between blanks. -/
theorem contains_star_iff {items : List (List Char)} :
    (items.map Text.trim).contains ['*'] = true ↔ ∃ item ∈ items, Padded ['*'] item := by
  have stable : Text.trim ['*'] = ['*'] := rfl
  simp only [List.contains_iff_mem, List.mem_map, Text.padded_iff stable]

/-- A name is no star. -/
theorem not_padded_star (named : Padded name.text.toList piece) : ¬ Padded ['*'] piece := by
  intro star
  have same := (Text.trim_of_padded named).symm.trans (Text.trim_of_padded star)
  rw [name.trim_text] at same
  have member : '*' ∈ name.text.toList := same ▸ List.mem_singleton_self '*'
  exact name.not_mem_text (by decide) member

/-- No item of a list of names is a star. -/
theorem not_padded_star_of_mem {items : List (List Char)} {names : List Ident}
    (each : List.Forall₂ (fun item name => Padded name.text.toList item) items names) :
    ∀ item ∈ items, ¬ Padded ['*'] item :=
  forall_mem_of_forall₂ each fun _ _ => not_padded_star

/-- Fields are read exactly where they are written, with anything beside a star. -/
theorem parseFields_eq_ok_iff {fields : Fields} :
    fieldNames inner ≠ [] ∧ parseFields (fieldNames inner) = .ok fields ↔
      fields.Written Fields.Anything inner := by
  rw [fieldNames_eq, ne_eq, List.map_eq_nil_iff, parseFields]
  constructor
  · rintro ⟨present, read⟩
    split at read
    · next star =>
        cases read
        exact .all (contains_star_iff.mp star) fun _ _ => .inr trivial
    · obtain ⟨names, mapped, rfl⟩ := map_eq_ok.mp read
      have each := List.forall₂_map_left_iff.mp (mapM_eq_ok_iff.mp mapped)
      refine .listed ?_ (each.imp fun item name => Ident.read_trim_eq_ok_iff.mp)
      rintro rfl
      exact present (List.forall₂_nil_right_iff.mp each)
  · intro written
    cases written with
    | all star others =>
        obtain ⟨item, listed, -⟩ := id star
        refine ⟨List.ne_nil_of_mem listed, ?_⟩
        rw [if_pos (contains_star_iff.mpr star)]
    | @listed names present each =>
        have mapped := each.imp fun item name => Ident.read_trim_eq_ok_iff.mpr
        rw [if_neg fun star => ?_]
        · refine ⟨fun empty => present ?_, map_eq_ok.mpr ⟨names, ?_, rfl⟩⟩
          · rw [empty] at each
            exact List.forall₂_nil_left_iff.mp each
          · exact mapM_eq_ok_iff.mpr (List.forall₂_map_left_iff.mpr mapped)
        · obtain ⟨item, listed, star⟩ := contains_star_iff.mp star
          exact not_padded_star_of_mem each item listed star

/-! ### Relations -/

/-- A relation is read exactly where its head and its fields are written, and a closing parenthesis
ends it. -/
theorem parse_eq_ok_iff {token rest : List Char} {relation : Relation} :
    Relation.parse token head rest = .ok relation ↔
      ∃ inner, rest = inner ++ [')'] ∧ HeadWritten head relation.name relation.target ∧
        relation.fields.Written Fields.Anything inner := by
  unfold Relation.parse
  constructor
  · intro read
    split at read
    · next ends =>
        obtain ⟨inner, rfl⟩ := List.getLast?_eq_some_iff.mp ends
        obtain ⟨⟨name, target⟩, headed, others⟩ := bind_eq_ok.mp read
        obtain ⟨present, others⟩ := guard_eq_ok.mp others
        obtain ⟨fields, shown, shape⟩ := bind_eq_ok.mp others
        cases shape
        rw [List.dropLast_concat] at present shown
        exact ⟨inner, rfl, parseHead_eq_ok_iff.mp headed,
          parseFields_eq_ok_iff.mp ⟨by simpa using present, shown⟩⟩
    · exact absurd read nofun
  · rintro ⟨inner, rfl, headed, written⟩
    obtain ⟨present, shown⟩ := parseFields_eq_ok_iff.mpr written
    rw [if_pos List.getLast?_concat, List.dropLast_concat]
    refine bind_eq_ok.mpr ⟨_, parseHead_eq_ok_iff.mpr headed, guard_eq_ok.mpr ⟨?_, ?_⟩⟩
    · simpa using present
    · exact bind_eq_ok.mpr ⟨relation.fields, shown, rfl⟩

/-- The blanks around a relation are trimmed, those between its parts are not. -/
theorem trim_of_token (around : Padded (token head inner) piece) :
    Text.trim piece = Text.trimStart head ++ '(' :: (inner ++ [')']) := by
  have shape : token head inner = head ++ '(' :: (inner ++ [')']) := by simp [token]
  have ending : Text.trimStart head ++ '(' :: (inner ++ [')']) =
      Text.trimStart head ++ '(' :: inner ++ [')'] := by simp
  rw [Text.trim_of_padded around, shape, Text.trim, Text.trimStart_append_cons (by decide), ending,
    Text.trimEnd_concat (by decide)]

/-- A relation is cut where its fields begin. -/
theorem cutAt_of_token (around : Padded (token head inner) piece)
    (headed : HeadWritten head name target) :
    Text.cutAt '(' (Text.trim piece) = some (Text.trimStart head, inner ++ [')']) := by
  have absent : '(' ∉ Text.trimStart head :=
    fun member => headed.trimStart.unmarked '(' member (by decide)
  rw [trim_of_token around, Text.cutAt_append absent]

end Relation

namespace Projection

variable {projection result : Projection} {terms : List Term} {pieces : List (List Char)}
  {shown : Relation}

/-! ### Terms -/

/-- A star asks for all columns. -/
theorem extend_all (projection : Projection) :
    projection.extend [.all] = { projection with allColumns := true } := by
  simp [extend, Term.column?, Term.relation?]

/-- A column comes after the columns so far. -/
theorem extend_column (projection : Projection) (name : Ident) :
    projection.extend [.column name] =
      { projection with columns := projection.columns ++ [name] } := by
  simp [extend, Term.column?, Term.relation?]

/-- A relation comes after the relations so far. -/
theorem extend_relation (projection : Projection) (shown : Relation) :
    projection.extend [.relation shown] =
      { projection with relations := projection.relations ++ [shown] } := by
  simp [extend, Term.column?, Term.relation?]

/-- Terms are added one part after the other. -/
theorem extend_append (projection : Projection) (left right : List Term) :
    projection.extend (left ++ right) = (projection.extend left).extend right := by
  simp [extend, Bool.or_assoc]

/-- The first term is added first. -/
theorem extend_cons (projection : Projection) (term : Term) (terms : List Term) :
    projection.extend (term :: terms) = (projection.extend [term]).extend terms :=
  extend_append projection [term] terms

/-- The aliases of added relations come after those so far. -/
theorem aliases_extend (projection : Projection) (terms : List Term) :
    (projection.extend terms).aliases =
      projection.aliases ++ (terms.filterMap Term.relation?).map Relation.name := List.map_append

/-- A term repeats no alias exactly where it is no relation with an alias so far. -/
theorem nodup_aliases_iff {term : Term} (distinct : projection.aliases.Nodup) :
    (projection.extend [term]).aliases.Nodup ↔
      ∀ shown, term = .relation shown → shown.name ∉ projection.aliases := by
  rw [aliases_extend]
  cases term with
  | all =>
      change (projection.aliases ++ []).Nodup ↔ _
      simp [distinct]
  | column name =>
      change (projection.aliases ++ []).Nodup ↔ _
      simp [distinct]
  | relation shown =>
      change (projection.aliases ++ [shown.name]).Nodup ↔ _
      simp [(List.perm_append_singleton shown.name projection.aliases).nodup_iff, distinct]

/-- The reader looks for an alias among the relations so far. -/
theorem any_name_iff :
    (projection.relations.any fun present => present.name == shown.name) = true ↔
      shown.name ∈ projection.aliases := by
  simp [aliases]

/-- A star between blanks is added. -/
theorem addToken_of_star (star : Padded ['*'] piece) :
    projection.addToken (Text.trim piece) = .ok (projection.extend [.all]) := by
  rw [addToken, if_pos ((Text.padded_iff rfl).mp star), extend_all]

/-- A name between blanks is no star and is not cut, so it is added as a column. -/
theorem addToken_of_column (named : Padded name.text.toList piece) :
    projection.addToken (Text.trim piece) = .ok (projection.extend [.column name]) := by
  have starless : Text.trim piece ≠ ['*'] :=
    fun star => Relation.not_padded_star named (Text.padded_of_trim star)
  have whole := (Text.padded_iff name.trim_text).mp named
  have uncut : Text.cutAt '(' (Text.trim piece) = none := by
    rw [Text.cutAt_eq_none_iff, whole]
    exact name.not_mem_text (by decide)
  rw [addToken, if_neg starless, uncut, extend_column]
  exact bind_eq_ok.mpr ⟨name, Ident.read_trim_eq_ok_iff.mpr named, rfl⟩

/-- A relation is added where its alias is fresh. -/
theorem addToken_of_relation (around : Padded (Relation.token head inner) piece)
    (headed : Relation.HeadWritten head shown.name shown.target)
    (fields : shown.fields.Written Fields.Anything inner)
    (fresh : shown.name ∉ projection.aliases) :
    projection.addToken (Text.trim piece) = .ok (projection.extend [.relation shown]) := by
  have starless : Text.trim piece ≠ ['*'] := by
    intro star
    have member : '(' ∈ Text.trim piece := by simp [Relation.trim_of_token around]
    rw [star] at member
    exact absurd member (by decide)
  rw [addToken, if_neg starless, Relation.cutAt_of_token around headed, extend_relation]
  refine bind_eq_ok.mpr ⟨shown, Relation.parse_eq_ok_iff.mpr ⟨inner, rfl, headed.trimStart, fields⟩,
    guard_eq_ok.mpr ⟨mt any_name_iff.mp fresh, rfl⟩⟩

/-- What is added is a term as it is written, and repeats no alias. -/
theorem written_of_addToken (read : projection.addToken (Text.trim piece) = .ok result) :
    ∃ term, Term.Written Fields.Anything piece term ∧ result = projection.extend [term] ∧
      ∀ shown, term = .relation shown → shown.name ∉ projection.aliases := by
  unfold addToken at read
  split at read
  · next star =>
      cases read
      exact ⟨.all, .all (Text.padded_of_trim star), (extend_all projection).symm, by rintro _ ⟨⟩⟩
  · split at read
    · next head rest cut =>
        obtain ⟨shown, parsed, others⟩ := bind_eq_ok.mp read
        obtain ⟨fresh, shape⟩ := guard_eq_ok.mp others
        cases shape
        obtain ⟨inner, rfl, headed, fields⟩ := Relation.parse_eq_ok_iff.mp parsed
        have around := Text.padded_trim piece
        have token : head ++ '(' :: (inner ++ [')']) = Relation.token head inner := by
          simp [Relation.token]
        rw [Text.eq_of_cutAt cut, token] at around
        refine ⟨.relation shown, .relation around headed fields,
          (extend_relation projection shown).symm, ?_⟩
        rintro other same
        cases same
        exact mt any_name_iff.mpr fresh
    · obtain ⟨column, named, shape⟩ := bind_eq_ok.mp read
      cases shape
      exact ⟨.column column, .column (Ident.read_trim_eq_ok_iff.mp named),
        (extend_column projection column).symm, by rintro _ ⟨⟩⟩

/-- A term is read where it is written and its alias is fresh. -/
theorem addToken_eq_ok_iff :
    projection.addToken (Text.trim piece) = .ok result ↔
      ∃ term, Term.Written Fields.Anything piece term ∧ result = projection.extend [term] ∧
        ∀ shown, term = .relation shown → shown.name ∉ projection.aliases := by
  refine ⟨written_of_addToken, ?_⟩
  rintro ⟨term, written, rfl, fresh⟩
  cases written with
  | all star => exact addToken_of_star star
  | column named => exact addToken_of_column named
  | relation around headed fields => exact addToken_of_relation around headed fields (fresh _ rfl)

/-! ### Texts -/

/-- Pieces are read one after another exactly where each is a term and the aliases of the result are
distinct. -/
theorem foldlM_addToken_eq_ok_iff (distinct : projection.aliases.Nodup) :
    (pieces.map Text.trim).foldlM addToken projection = .ok result ↔
      ∃ terms, List.Forall₂ (Term.Written Fields.Anything) pieces terms ∧
        projection.extend terms = result ∧ result.aliases.Nodup := by
  induction pieces generalizing projection with
  | nil =>
      have unchanged : projection.extend [] = projection := by simp [extend]
      simp only [List.map_nil, List.foldlM_nil, List.forall₂_nil_left_iff, exists_eq_left,
        unchanged]
      constructor
      · intro same
        cases same
        exact ⟨rfl, distinct⟩
      · rintro ⟨rfl, -⟩
        rfl
  | cons piece rest ih =>
      rw [List.map_cons, List.foldlM_cons, bind_eq_ok]
      constructor
      · rintro ⟨next, read, others⟩
        obtain ⟨term, written, rfl, fresh⟩ := addToken_eq_ok_iff.mp read
        obtain ⟨terms, each, rfl, distinct⟩ :=
          (ih ((nodup_aliases_iff distinct).mpr fresh)).mp others
        exact ⟨term :: terms, .cons written each, extend_cons projection term terms, distinct⟩
      · rintro ⟨terms, each, shape, nodup⟩
        cases each with
        | @cons _ term _ terms written others =>
            rw [extend_cons] at shape
            -- The aliases so far are among those of the result.
            have next : (projection.extend [term]).aliases.Nodup := by
              rw [← shape, aliases_extend] at nodup
              exact (List.nodup_append.mp nodup).1
            have fresh := (nodup_aliases_iff distinct).mp next
            exact ⟨projection.extend [term], addToken_eq_ok_iff.mpr ⟨term, written, rfl, fresh⟩,
              (ih next).mpr ⟨terms, others, shape, nodup⟩⟩

/-- A text is read into what it is written as: its parentheses are balanced, its tokens are terms,
and no alias is used twice. -/
theorem parse_eq_ok_iff {select : String} (visible : Text.isBlankText select.toList = false) :
    parse (some select) = .ok result ↔
      isBalanced 0 select.toList = true ∧
        ∃ terms, List.Forall₂ (Term.Written Fields.Anything)
            (Text.splitTopLevel select.toList) terms ∧
          extend {} terms = result ∧ result.aliases.Nodup := by
  have around := Text.padded_trim select.toList
  have present : (Text.trim select.toList).isEmpty = false := by
    rw [List.isEmpty_eq_false_iff, ne_eq, Text.trim_eq_nil_iff, visible]
    exact Bool.false_ne_true
  rw [parse, Option.getD_some, if_neg (by simp [present]), ofChars,
    ← isBalanced_of_padded around, ← Text.map_trim_splitTopLevel around]
  have start : ({} : Projection).aliases.Nodup := List.nodup_nil
  by_cases balanced : isBalanced 0 select.toList = true
  · rw [if_pos balanced, foldlM_addToken_eq_ok_iff start]
    exact (and_iff_right balanced).symm
  · rw [if_neg balanced]
    exact ⟨nofun, fun written => absurd written.1 balanced⟩

/-- A blank text asks for all columns. -/
theorem parse_of_blank {select : Option String}
    (blank : Text.isBlankText (select.getD "").toList = true) :
    parse select = .ok { allColumns := true } := by
  rw [parse, Text.trim_of_isBlankText blank]
  rfl

end Projection

end TableGate

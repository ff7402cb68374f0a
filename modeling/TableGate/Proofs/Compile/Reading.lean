import TableGate.Filter
import TableGate.Proofs.Compile.Outcome
import TableGate.Proofs.Text.Name
import TableGate.Proofs.Text.Splitting

/-!
# Reading filters

A filter is spelled as its operator, a dot and its operand (`Filter.spelling`).  A parameter is read
as a filter exactly where its name is the column and its value the spelling
(`Filter.ofParameter_eq_some_iff`), and an alternative where the column between blanks, a dot and
the spelling make it up, unless the operator may not stand in a group
(`Filter.ofAlternative_eq_some_iff`).
-/

namespace TableGate

/-! ### Operators -/

namespace Operator

variable {spelled : String} {operator : Operator}

/-- The word for an operator. -/
def spelling : Operator → String
  | .eq => "eq"
  | .neq => "neq"
  | .gt => "gt"
  | .gte => "gte"
  | .lt => "lt"
  | .lte => "lte"
  | .like => "like"
  | .ilike => "ilike"
  | .is => "is"
  | .oneOf => "in"

theorem parse?_spelling (operator : Operator) : parse? operator.spelling = some operator := by
  cases operator <;> rfl

/-- An operator is read from its own word only. -/
theorem parse?_eq_some_iff : parse? spelled = some operator ↔ spelled = operator.spelling := by
  constructor
  · intro named
    unfold parse? at named
    split at named <;> first | (cases named; rfl) | exact absurd named nofun
  · rintro rfl
    exact parse?_spelling operator

theorem dot_not_mem_spelling (operator : Operator) : '.' ∉ operator.spelling.toList := by
  cases operator <;> decide

theorem isSome_allowed (word : String) :
    ((parse? word).filter allowedInGroup).isSome =
      ["eq", "is", "gt", "gte", "lt", "lte"].contains word := by
  cases parsed : parse? word with
  | some operator =>
      obtain rfl := parse?_eq_some_iff.mp parsed
      cases operator <;> rfl
  | none =>
      symm
      rw [Option.filter_none, Option.isSome_none, ← Bool.not_eq_true, List.contains_iff_mem]
      intro listed
      simp only [List.mem_cons, List.not_mem_nil, or_false] at listed
      rcases listed with rfl | rfl | rfl | rfl | rfl | rfl <;> exact absurd parsed nofun

end Operator

namespace Filter

variable {filter : Filter} {column : Ident} {name value : String}
  {text piece written rest : List Char}

/-- A filter as the value of a parameter. -/
def spelling (filter : Filter) : String := filter.operator.spelling ++ "." ++ filter.operand

theorem toList_spelling (filter : Filter) :
    filter.spelling.toList =
      filter.operator.spelling.toList ++ '.' :: filter.operand.toList := by
  simp [spelling]

/-- The filter on a column that a text spells, if it does. -/
def ofSpelling? (column : Ident) (text : List Char) : Option Filter :=
  (Text.cutAt '.' text).bind fun (operator, operand) =>
    (Operator.parse? (String.ofList operator)).map fun operator =>
      ⟨column, operator, String.ofList operand⟩

theorem ofSpelling?_append {word : List Char} (dotless : '.' ∉ word) (operand : List Char) :
    ofSpelling? column (word ++ '.' :: operand) =
      (Operator.parse? (String.ofList word)).map fun operator =>
        ⟨column, operator, String.ofList operand⟩ := by
  rw [ofSpelling?, Text.cutAt_append dotless]
  rfl

theorem ofSpelling?_eq_some_iff :
    ofSpelling? column text = some filter ↔
      filter.column = column ∧ text = filter.spelling.toList := by
  constructor
  · intro spelled
    obtain ⟨⟨operator, operand⟩, cut, named⟩ := Option.bind_eq_some_iff.mp spelled
    obtain ⟨found, parsed, rfl⟩ := Option.map_eq_some_iff.mp named
    refine ⟨rfl, ?_⟩
    rw [Text.eq_of_cutAt cut, toList_spelling, ← Operator.parse?_eq_some_iff.mp parsed,
      String.toList_ofList, String.toList_ofList]
  · rintro ⟨rfl, rfl⟩
    rw [toList_spelling, ofSpelling?_append filter.operator.dot_not_mem_spelling,
      String.ofList_toList, String.ofList_toList, Operator.parse?_spelling]
    rfl

/-! ### Parameters -/

theorem ofParameter_eq (name value : String) :
    ofParameter name value =
      (Ident.read name).map fun column => ofSpelling? column value.toList := by
  unfold ofParameter ofSpelling?
  cases Ident.read name with
  | error error => rfl
  | ok column => cases Text.cutAt '.' value.toList <;> rfl

/-- A parameter is read as a filter where its name is the column and its value the spelling. -/
theorem ofParameter_eq_some_iff :
    ofParameter name value = .ok (some filter) ↔
      name = filter.column.text ∧ value = filter.spelling := by
  rw [ofParameter_eq, map_eq_ok]
  constructor
  · rintro ⟨column, read, spelled⟩
    obtain ⟨rfl, shape⟩ := ofSpelling?_eq_some_iff.mp spelled
    exact ⟨(Ident.text_of_read read).symm, String.toList_inj.mp shape⟩
  · rintro ⟨rfl, rfl⟩
    exact ⟨filter.column, Ident.read_text _, ofSpelling?_eq_some_iff.mpr ⟨rfl, rfl⟩⟩

/-! ### Alternatives -/

/-- An alternative has two dots at least, and is cut at the first two. -/
theorem cutAlternative?_eq_some_iff {first second third : List Char} :
    cutAlternative? piece = some (first, second, third) ↔
      piece = first ++ '.' :: second ++ '.' :: third ∧ '.' ∉ first ∧ '.' ∉ second := by
  constructor
  · intro cut
    obtain ⟨⟨left, right⟩, one, rest⟩ := Option.bind_eq_some_iff.mp cut
    obtain ⟨⟨middle, last⟩, two, shape⟩ := Option.bind_eq_some_iff.mp rest
    cases shape
    obtain ⟨rfl, apart⟩ := Text.cutAt_eq_some_iff.mp one
    obtain ⟨rfl, inside⟩ := Text.cutAt_eq_some_iff.mp two
    exact ⟨by simp, apart, inside⟩
  · rintro ⟨rfl, apart, inside⟩
    refine Option.bind_eq_some_iff.mpr ⟨(first, second ++ '.' :: third), ?_, ?_⟩
    · rw [List.append_assoc]
      exact Text.cutAt_append apart _
    · exact Option.bind_eq_some_iff.mpr ⟨_, Text.cutAt_append inside _, rfl⟩

/-- An alternative is read like a parameter, its column without the blanks around it; but not every
operator may stand in a group. -/
theorem ofAlternative_append (apart : '.' ∉ written) (present : '.' ∈ rest) :
    ofAlternative (written ++ '.' :: rest) =
      (Ident.read (String.ofList (Text.trim written))).map fun column =>
        (ofSpelling? column rest).filter fun filter => filter.operator.allowedInGroup := by
  obtain ⟨operator, operand, rfl, inside⟩ := List.eq_append_cons_of_mem present
  have cut : cutAlternative? (written ++ '.' :: (operator ++ '.' :: operand)) =
      some (written, operator, operand) :=
    cutAlternative?_eq_some_iff.mpr ⟨by simp, apart, inside⟩
  unfold ofAlternative ofSpelling?
  simp only [cut, Text.cutAt_append inside, Option.bind_some, Option.filter_map]
  cases Ident.read (String.ofList (Text.trim written)) with
  | error error => rfl
  | ok column => rfl

theorem ofAlternative_eq_none (absent : cutAlternative? piece = none) :
    ofAlternative piece = .ok none := by
  rw [ofAlternative, absent]

/-- An alternative is read as a filter where it is the column between blanks, a dot and the
spelling, and the operator may stand in a group. -/
theorem ofAlternative_eq_some_iff :
    ofAlternative piece = .ok (some filter) ↔
      filter.operator.allowedInGroup = true ∧ ∃ written,
        Text.Padded filter.column.text.toList written ∧
          piece = written ++ '.' :: filter.spelling.toList := by
  constructor
  · intro read
    cases cut : cutAlternative? piece with
    | none =>
        rw [ofAlternative_eq_none cut] at read
        exact absurd read nofun
    | some parts =>
        obtain ⟨shape, apart, -⟩ := cutAlternative?_eq_some_iff.mp cut
        rw [List.append_assoc] at shape
        rw [shape, List.cons_append, ofAlternative_append apart (by simp)] at read
        obtain ⟨column, named, kept⟩ := map_eq_ok.mp read
        obtain ⟨spelled, allowed⟩ := Option.filter_eq_some_iff.mp kept
        obtain ⟨rfl, same⟩ := ofSpelling?_eq_some_iff.mp spelled
        refine ⟨allowed, parts.1, Ident.read_trim_eq_ok_iff.mp named, ?_⟩
        rw [shape, List.cons_append, same]
  · rintro ⟨allowed, written, around, rfl⟩
    have apart : '.' ∉ written :=
      mt (Text.mem_of_padded (by decide) around) (filter.column.not_mem_text (by decide))
    rw [ofAlternative_append apart (by simp [toList_spelling])]
    refine map_eq_ok.mpr ⟨filter.column, Ident.read_trim_eq_ok_iff.mpr around, ?_⟩
    rw [ofSpelling?_eq_some_iff.mpr ⟨rfl, rfl⟩, Option.filter_some, if_pos allowed]

end Filter

end TableGate

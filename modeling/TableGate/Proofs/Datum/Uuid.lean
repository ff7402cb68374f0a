import Mathlib.Data.List.Basic
import TableGate.Datum.Uuid

/-!
# The spellings of a UUID

A UUID is written with hyphens and in lower case (`Uuid.hyphenated`), and is read back from what is
written (`Uuid.read?_text`).  A spelling of thirty-six characters that is read as a UUID is what is
written for it, up to the case of its letters (`Uuid.text_of_readHyphenated?`); the other spellings
have another length, so that a UUID is written as it was spelled exactly where the spelling has
thirty-six characters, none of them upper-case (`Uuid.text_eq_iff`).
-/

namespace TableGate

/-- A digit that is read is written in lower case. -/
theorem Text.hexDigit_of_hexValue? {c : Char} {value : Fin 16} (read : hexValue? c = some value) :
    hexDigit value = c.toLower := by
  -- Only characters up to the letter f are digits, so they can be gone through one by one.
  have each : ∀ code < 103, ∀ value, hexValue? (Char.ofNat code) = some value →
      hexDigit value = (Char.ofNat code).toLower := by
    decide
  have small : c.toNat < 103 := by
    unfold hexValue? at read
    dsimp only at read
    split at read
    · omega
    · split at read
      · omega
      · split at read
        · omega
        · cases read
  have found := each c.toNat small value
  rw [Char.ofNat_toNat] at found
  exact found read

/-- No digit is written in upper case. -/
theorem Text.isUpper_hexDigit (value : Fin 16) : (hexDigit value).isUpper = false := by
  revert value
  decide

namespace Uuid

variable {digits text a b c d e : List Char} {start : Nat} {uuid : Uuid}

/-! ### Hyphens -/

/-- Digits with the hyphens of a UUID between them. -/
def hyphenated (digits : List Char) : List Char :=
  let part (start size : Nat) := (digits.drop start).take size
  part 0 8 ++ '-' :: part 8 4 ++ '-' :: part 12 4 ++ '-' :: part 16 4 ++ '-' :: part 20 12

/-- A UUID is written as its digits with hyphens between them. -/
theorem toList_text (uuid : Uuid) :
    uuid.text.toList = hyphenated (uuid.digits.map Text.hexDigit) :=
  String.toList_ofList

/-- A change of the digits that leaves hyphens alone can be made before or after they are put in. -/
theorem hyphenated_map {change : Char → Char} (keeps : change '-' = '-') (digits : List Char) :
    hyphenated (digits.map change) = (hyphenated digits).map change := by
  simp [hyphenated, keeps, List.map_take, List.map_drop]

/-- A character of a hyphenated text is a hyphen or one of the digits. -/
theorem mem_hyphenated {c : Char} (among : c ∈ hyphenated digits) : c = '-' ∨ c ∈ digits := by
  have inside (start size : Nat) (among : c ∈ (digits.drop start).take size) : c ∈ digits :=
    List.mem_of_mem_drop (List.mem_of_mem_take among)
  simp only [hyphenated, List.mem_append, List.mem_cons] at among
  tauto

/-- Four hyphens come to thirty-two digits. -/
theorem length_hyphenated (size : digits.length = 32) : (hyphenated digits).length = 36 := by
  simp [hyphenated, size]

/-- The sizes of the five groups of digits. -/
structure Groups (a b c d e : List Char) : Prop where
  first : a.length = 8
  second : b.length = 4
  third : c.length = 4
  fourth : d.length = 4
  fifth : e.length = 12

/-- The hyphens stand between the groups. -/
theorem hyphenated_groups (groups : Groups a b c d e) :
    hyphenated (a ++ b ++ c ++ d ++ e) = a ++ '-' :: b ++ '-' :: c ++ '-' :: d ++ '-' :: e := by
  obtain ⟨first, second, third, fourth, fifth⟩ := groups
  simp [hyphenated, List.drop_append, List.drop_eq_nil_of_le, List.take_of_length_le, first,
    second, third, fourth, fifth]

/-- Thirty-two digits fall into the five groups. -/
theorem exists_groups (size : digits.length = 32) :
    ∃ a b c d e, Groups a b c d e ∧ digits = a ++ b ++ c ++ d ++ e := by
  have next (start size : Nat) :
      (digits.drop start).take size ++ digits.drop (start + size) = digits.drop start := by
    rw [← List.drop_drop, List.take_append_drop]
  refine ⟨digits.take 8, (digits.drop 8).take 4, (digits.drop 12).take 4, (digits.drop 16).take 4,
    digits.drop 20, ?_, ?_⟩
  · constructor <;> simp [size]
  · rw [List.append_assoc, List.append_assoc, List.append_assoc, next 16 4, next 12 4, next 8 4,
      List.take_append_drop]

/-- A text is cut at a character that it has at a given place. -/
theorem exists_split {mark : Char} {place : Nat} (there : text[place]? = some mark) :
    ∃ before after, before.length = place ∧ text = before ++ mark :: after := by
  obtain ⟨inside, found⟩ := List.getElem?_eq_some_iff.mp there
  refine ⟨text.take place, text.drop (place + 1), List.length_take_of_le (Nat.le_of_lt inside), ?_⟩
  rw [← found, List.getElem_cons_drop, List.take_append_drop]

/-- A text of the size of a UUID with hyphens where a UUID has them. -/
theorem exists_hyphenated (size : text.length = 36)
    (marked : hyphens.all (fun position => text[position]? == some '-') = true) :
    ∃ digits, digits.length = 32 ∧ text = hyphenated digits := by
  have there : ∀ mark ∈ hyphens, text[mark]? = some '-' := by simpa using marked
  obtain ⟨a, rest, first, rfl⟩ := exists_split (there 8 (by decide))
  obtain ⟨b, rest, second, rfl⟩ : ∃ b after, b.length = 4 ∧ rest = b ++ '-' :: after := by
    refine exists_split ((there 13 (by decide)).symm.trans ?_).symm
    simp [List.getElem?_append, first]
  obtain ⟨c, rest, third, rfl⟩ : ∃ c after, c.length = 4 ∧ rest = c ++ '-' :: after := by
    refine exists_split ((there 18 (by decide)).symm.trans ?_).symm
    simp [List.getElem?_append, first, second]
  obtain ⟨d, e, fourth, rfl⟩ : ∃ d after, d.length = 4 ∧ rest = d ++ '-' :: after := by
    refine exists_split ((there 23 (by decide)).symm.trans ?_).symm
    simp [List.getElem?_append, first, second, third]
  have fifth : e.length = 12 := by
    simp only [List.length_append, List.length_cons, first, second, third, fourth] at size
    omega
  refine ⟨a ++ b ++ c ++ d ++ e, ?_, ?_⟩
  · simp only [List.length_append, first, second, third, fourth, fifth]
  · rw [hyphenated_groups ⟨first, second, third, fourth, fifth⟩]
    simp only [List.append_assoc, List.cons_append]

/-! ### Reading -/

/-- The characters of a text that starts at a given position, those at the positions of hyphens left
out. -/
def kept (start : Nat) (text : List Char) : List Char :=
  ((text.zipIdx start).filter fun (_, position) => !hyphens.contains position).map (·.1)

/-- What is kept of a text is kept of its parts, the second at its own place. -/
theorem kept_append (start : Nat) (left right : List Char) :
    kept start (left ++ right) = kept start left ++ kept (start + left.length) right := by
  rw [kept, List.zipIdx_append, List.filter_append, List.map_append]
  rfl

/-- A group that has no place of a hyphen is kept whole. -/
theorem kept_between {group : List Char}
    (clear : ∀ mark ∈ hyphens, mark < start ∨ start + group.length ≤ mark) :
    kept start group = group := by
  rw [kept, List.filter_eq_self.mpr, List.zipIdx_map_fst]
  rintro ⟨c, position⟩ among
  obtain ⟨least, most, -⟩ := List.mem_zipIdx among
  have free : position ∉ hyphens := fun mark => by
    rcases clear position mark with before | after <;> omega
  simpa using free

/-- A hyphen in its place is left out, and the group after it is kept. -/
theorem kept_hyphen {group : List Char} (mark : start ∈ hyphens)
    (clear : ∀ mark ∈ hyphens, mark < start + 1 ∨ start + 1 + group.length ≤ mark) :
    kept start ('-' :: group) = group := by
  have dropped : kept start ('-' :: group) = kept (start + 1) group := by
    simp [kept, List.zipIdx_cons, mark]
  rw [dropped, kept_between clear]

/-- The digits of a hyphenated text are read as if they stood alone. -/
theorem readHyphenated?_hyphenated (size : digits.length = 32) :
    readHyphenated? (hyphenated digits) = readBare? digits := by
  obtain ⟨a, b, c, d, e, groups, rfl⟩ := exists_groups size
  rw [hyphenated_groups groups]
  obtain ⟨first, second, third, fourth, fifth⟩ := groups
  have marked : hyphens.all (fun position =>
      (a ++ '-' :: b ++ '-' :: c ++ '-' :: d ++ '-' :: e)[position]? == some '-') = true := by
    simp [hyphens, List.getElem?_append, first, second, third, fourth]
  rw [readHyphenated?, if_pos marked]
  change readBare? (kept 0 _) = _
  simp only [kept_append, List.length_append, List.length_cons, first, second, third, fourth]
  rw [kept_between, kept_hyphen, kept_hyphen, kept_hyphen, kept_hyphen]
  all_goals simp [hyphens, first, second, third, fourth, fifth]

/-- Digits that are read are written in lower case. -/
theorem map_hexDigit_of_mapM {values : List (Fin 16)}
    (read : digits.mapM Text.hexValue? = some values) :
    values.map Text.hexDigit = digits.map Char.toLower := by
  induction digits generalizing values with
  | nil =>
      cases read
      rfl
  | cons c rest ih =>
      rw [List.mapM_cons] at read
      obtain ⟨value, first, read⟩ := Option.bind_eq_some_iff.mp read
      obtain ⟨others, more, shape⟩ := Option.bind_eq_some_iff.mp read
      cases shape
      rw [List.map_cons, List.map_cons, ih more, Text.hexDigit_of_hexValue? first]

/-- Written digits are read back. -/
theorem mapM_hexValue? (values : List (Fin 16)) :
    (values.map Text.hexDigit).mapM Text.hexValue? = some values := by
  have each : Text.hexValue? ∘ Text.hexDigit = fun value => some value :=
    funext Text.hexValue?_hexDigit
  rw [List.mapM_map, each]
  exact List.mapM_pure.trans (congrArg some (List.map_id _))

/-- The digits of a UUID that is read are those of the text, in lower case. -/
theorem digits_of_readBare? (read : readBare? digits = some uuid) :
    uuid.digits.map Text.hexDigit = digits.map Char.toLower := by
  obtain ⟨values, each, sized⟩ := Option.bind_eq_some_iff.mp read
  rw [ofDigits?] at sized
  split at sized
  · cases sized
    exact map_hexDigit_of_mapM each
  · cases sized

/-- A UUID is read back from its digits. -/
theorem readBare?_digits (uuid : Uuid) : readBare? (uuid.digits.map Text.hexDigit) = some uuid := by
  rw [readBare?, mapM_hexValue?, Option.bind_some]
  exact dif_pos uuid.size

/-- A hyphenated spelling is what is written for the UUID, up to the case of its letters. -/
theorem text_of_readHyphenated? (size : text.length = 36)
    (read : readHyphenated? text = some uuid) : uuid.text.toList = text.map Char.toLower := by
  have marked : hyphens.all (fun position => text[position]? == some '-') = true := by
    by_contra unmarked
    rw [readHyphenated?, if_neg unmarked] at read
    cases read
  obtain ⟨digits, count, rfl⟩ := exists_hyphenated size marked
  rw [readHyphenated?_hyphenated count] at read
  rw [toList_text, digits_of_readBare? read, hyphenated_map rfl]

/-- A UUID is written in thirty-six characters. -/
theorem length_text (uuid : Uuid) : uuid.text.length = 36 := by
  rw [← String.length_toList, toList_text]
  exact length_hyphenated (by rw [List.length_map, uuid.size])

/-- A UUID is read back from its text. -/
theorem read?_text (uuid : Uuid) : read? uuid.text = some uuid := by
  have size : uuid.text.toList.length = 36 := uuid.length_text
  have count : (uuid.digits.map Text.hexDigit).length = 32 := by rw [List.length_map, uuid.size]
  rw [read?, size, if_neg (by decide), if_pos rfl, toList_text, readHyphenated?_hyphenated count,
    readBare?_digits]

/-- A UUID is written without upper-case letters. -/
theorem isUpper_text {c : Char} (among : c ∈ uuid.text.toList) : c.isUpper = false := by
  rw [toList_text] at among
  rcases mem_hyphenated among with rfl | among
  · rfl
  · obtain ⟨value, -, rfl⟩ := List.mem_map.mp among
    exact Text.isUpper_hexDigit value

/-- A UUID is written as it was spelled exactly where the spelling has the size of the hyphenated
text and no upper-case letter. -/
theorem text_eq_iff {spelled : String} (read : read? spelled = some uuid) :
    uuid.text = spelled ↔
      spelled.length = 36 ∧ ∀ c ∈ spelled.toList, c.isUpper = false := by
  constructor
  · rintro rfl
    exact ⟨uuid.length_text, fun _ => isUpper_text⟩
  · rintro ⟨size, lower⟩
    have count : spelled.toList.length = 36 := size
    rw [read?, count, if_neg (by decide), if_pos rfl] at read
    have same : spelled.toList.map Char.toLower = spelled.toList := by
      refine (List.map_congr_left fun c among => ?_).trans (List.map_id _)
      exact dif_neg (of_decide_eq_false (lower c among))
    refine String.toList_injective ?_
    rw [text_of_readHyphenated? count read, same]

end Uuid

end TableGate

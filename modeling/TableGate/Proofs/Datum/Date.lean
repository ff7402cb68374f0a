import Mathlib.Algebra.Order.Ring.Int
import Mathlib.Data.List.Induction
import Mathlib.Data.List.TakeWhile
import TableGate.Datum.Calendar
import TableGate.Proofs.Text.Bytes
import TableGate.Proofs.Text.Numeral

/-!
# The spellings of a date

A date of a year that has four digits at most is written as year, month and day, each in a fixed
number of digits (`Date.text?`), and is read back from that (`Date.read?_text`).  What else is read
as a date starts with a blank or a sign, or has blanks before one of its numbers: a spelling of ten
bytes without these has no room for a shorter number (`Date.text?_eq_iff`).
-/

namespace TableGate

/-! ### Numbers in a fixed number of digits -/

/-- The last `size` decimal digits of a number. -/
def Text.padded : Nat → Nat → List Char
  | 0, _ => []
  | size + 1, n => padded size (n / 10) ++ [Nat.digitChar (n % 10)]

namespace Text

/-- A number is written in as many digits as are asked for. -/
theorem length_padded (size n : Nat) : (padded size n).length = size := by
  induction size generalizing n with
  | zero => rfl
  | succ size ih => rw [padded, List.length_append, ih, List.length_singleton]

/-- A number is written in digits. -/
theorem isDigit_padded {size n : Nat} {c : Char} (among : c ∈ padded size n) :
    c.isDigit = true := by
  induction size generalizing n with
  | zero => exact absurd among List.not_mem_nil
  | succ size ih =>
      rcases List.mem_append.mp among with front | last
      · exact ih front
      · rw [List.mem_singleton.mp last, Nat.isDigit_digitChar]
        exact decide_eq_true (Nat.mod_lt n (by decide))

/-- A number that fits is the number of its last digits. -/
theorem ofDigitChars_padded {size n : Nat} (fits : n < 10 ^ size) :
    Nat.ofDigitChars 10 (padded size n) 0 = n := by
  induction size generalizing n with
  | zero => exact (Nat.lt_one_iff.mp fits).symm
  | succ size ih =>
      have front : n / 10 < 10 ^ size := by
        rw [Nat.pow_succ] at fits
        omega
      rw [padded, Nat.ofDigitChars_append, ih front,
        Nat.ofDigitChars_cons_digitChar_of_lt_ten (Nat.mod_lt n (by decide)), Nat.ofDigitChars_nil]
      omega

/-- A digit at the end counts once, the digits before it ten times. -/
theorem ofDigitChars_concat (front : List Char) (last : Char) :
    Nat.ofDigitChars 10 (front ++ [last]) 0 =
      10 * Nat.ofDigitChars 10 front 0 + (last.toNat - 48) := by
  rw [Nat.ofDigitChars_append, Nat.ofDigitChars_cons, Nat.ofDigitChars_nil]
  rfl

/-- Digits are those of their number. -/
theorem padded_ofDigitChars {digits : List Char} (shown : ∀ c ∈ digits, c.isDigit = true) :
    padded digits.length (Nat.ofDigitChars 10 digits 0) = digits := by
  induction digits using List.reverseRecOn with
  | nil => rfl
  | append_singleton front last ih =>
      have digit : 48 ≤ last.toNat ∧ last.toNat ≤ 57 :=
        Char.isDigit_iff_toNat.mp (shown last (by simp))
      have quotient : (10 * Nat.ofDigitChars 10 front 0 + (last.toNat - 48)) / 10 =
          Nat.ofDigitChars 10 front 0 := by omega
      have rest : (10 * Nat.ofDigitChars 10 front 0 + (last.toNat - 48)) % 10 =
          last.toNat - 48 := by omega
      have written : Nat.digitChar (last.toNat - 48) = last := by
        apply Char.toNat_inj.mp
        rw [Nat.toNat_digitChar_of_lt_ten (by omega)]
        omega
      rw [List.length_append, List.length_singleton, padded, ofDigitChars_concat, quotient, rest,
        written, ih fun c among => shown c (List.mem_append_left _ among)]

/-- Digits give a number below the power of ten for how many they are. -/
theorem ofDigitChars_lt {digits : List Char} (shown : ∀ c ∈ digits, c.isDigit = true) :
    Nat.ofDigitChars 10 digits 0 < 10 ^ digits.length := by
  induction digits using List.reverseRecOn with
  | nil => decide
  | append_singleton front last ih =>
      have digit : 48 ≤ last.toNat ∧ last.toNat ≤ 57 :=
        Char.isDigit_iff_toNat.mp (shown last (by simp))
      have below := ih fun c among => shown c (List.mem_append_left _ among)
      rw [ofDigitChars_concat, List.length_append, List.length_singleton, Nat.pow_succ]
      omega

end Text

/-! ### Reading -/

namespace Calendar

variable {most value : Nat} {input rest digits : List Char}

/-- A number is read from the digits at the start of a text, at most so many. -/
theorem readNumber?_eq_some (read : readNumber? most input = some (value, rest)) :
    ∃ digits, input = digits ++ rest ∧ digits.length ≤ most ∧
      (∀ c ∈ digits, c.isDigit = true) ∧ value = Nat.ofDigitChars 10 digits 0 := by
  obtain ⟨number, found, shape⟩ := Option.map_eq_some_iff.mp read
  obtain ⟨rfl, rfl⟩ := Prod.mk.inj shape
  have start : (input.take most).takeWhile Char.isDigit <+: input :=
    (List.takeWhile_prefix _).trans (List.take_prefix most input)
  refine ⟨_, (List.prefix_iff_eq_append.mp start).symm, ?_, ?_, ?_⟩
  · exact Nat.le_trans (List.takeWhile_prefix _).length_le (List.length_take_le most input)
  · exact (Text.natural?_eq_some_iff.mp found).2.1
  · exact (Text.natural?_eq_some_iff.mp found).2.2

/-- As many digits as may be read are read, whatever comes after them. -/
theorem readNumber?_digits (shown : ∀ c ∈ digits, c.isDigit = true) (present : digits ≠ [])
    (rest : List Char) :
    readNumber? digits.length (digits ++ rest) = some (Nat.ofDigitChars 10 digits 0, rest) := by
  have taken : ((digits ++ rest).take digits.length).takeWhile Char.isDigit = digits := by
    rw [List.take_left, List.takeWhile_eq_self_iff]
    exact shown
  rw [readNumber?, taken, Text.natural?_eq_some_iff.mpr ⟨present, shown, rfl⟩, Option.map_some,
    List.drop_left]

/-- A text without blanks has none to be trimmed. -/
theorem trimStart_eq_self {text : List Char} (solid : ∀ c ∈ text, Text.isBlank c = false) :
    Text.trimStart text = text := by
  cases text with
  | nil => rfl
  | cons c rest => exact List.dropWhile_cons_of_neg (by rw [solid c List.mem_cons_self]; nofun)

/-- A number is read back from a fixed number of digits. -/
theorem readNumber?_padded {size n : Nat} (positive : 0 < size) (fits : n < 10 ^ size)
    (rest : List Char) : readNumber? size (Text.padded size n ++ rest) = some (n, rest) := by
  have present : Text.padded size n ≠ [] := by
    rw [← List.length_pos_iff, Text.length_padded]
    exact positive
  have read := readNumber?_digits (fun _ => Text.isDigit_padded) present rest
  rwa [Text.length_padded, Text.ofDigitChars_padded fits] at read

/-- A year that begins with a digit has no sign, and four digits at most. -/
theorem readYear?_of_isDigit {c : Char} (digit : c.isDigit = true) (rest : List Char) :
    readYear? (c :: rest) =
      (readNumber? 4 (c :: rest)).map fun (value, after) => ((value : Int), after) := by
  unfold readYear?
  split
  · next shape =>
      cases shape
      exact absurd digit (by decide)
  · next shape =>
      cases shape
      exact absurd digit (by decide)
  · rfl

/-- A mark is expected exactly where the text begins with it. -/
theorem expect?_eq_some_iff {mark : Char} :
    expect? mark input = some rest ↔ input = mark :: rest := by
  cases input with
  | nil => exact iff_of_false nofun nofun
  | cons c after =>
      rw [expect?]
      split
      · next same => rw [same, Option.some.injEq, List.cons.injEq, and_iff_right rfl]
      · next other => exact iff_of_false nofun fun shape => other (List.cons.inj shape).1

/-- A date is read as three numbers with hyphens between them and blanks before them. -/
theorem readDate?_eq_some_iff {date : Date} :
    readDate? input = some date ↔ ∃ year month day afterYear afterMonth,
      readYear? (Text.trimStart input) = some (year, '-' :: afterYear) ∧
      readNumber? 2 (Text.trimStart afterYear) = some (month, '-' :: afterMonth) ∧
      readNumber? 2 (Text.trimStart afterMonth) = some (day, []) ∧
      Date.ofParts? year month day = some date := by
  unfold readDate?
  simp only [Option.bind_eq_bind, Option.bind_eq_some_iff, Prod.exists, expect?_eq_some_iff]
  constructor
  · rintro ⟨year, _, yearRead, afterYear, rfl, month, _, monthRead, afterMonth, rfl, day, left,
      dayRead, fits⟩
    split at fits
    · next empty =>
        obtain rfl := List.isEmpty_iff.mp empty
        exact ⟨year, month, day, afterYear, afterMonth, yearRead, monthRead, dayRead, fits⟩
    · cases fits
  · rintro ⟨year, month, day, afterYear, afterMonth, yearRead, monthRead, dayRead, fits⟩
    exact ⟨year, _, yearRead, afterYear, rfl, month, _, monthRead, afterMonth, rfl, day, [],
      dayRead, fits⟩

/-- A date is made up of the year, the month and the day that were read. -/
theorem ofParts?_eq_some {year : Int} {month day : Nat} {date : Date}
    (fits : Date.ofParts? year month day = some date) :
    date.year = year ∧ date.month = month ∧ date.day = day := by
  unfold Date.ofParts? at fits
  split at fits
  · cases fits
    exact ⟨rfl, rfl, rfl⟩
  · cases fits

/-- The digits of a date as they are spelled without blanks and signs. -/
structure Spells (date : Date) (year month day : List Char) : Prop where
  yearSize : year.length ≤ 4
  monthSize : month.length ≤ 2
  daySize : day.length ≤ 2
  shown : ∀ c ∈ year ++ month ++ day, c.isDigit = true
  year_eq : date.year = Nat.ofDigitChars 10 year 0
  month_eq : date.month = Nat.ofDigitChars 10 month 0
  day_eq : date.day = Nat.ofDigitChars 10 day 0

/-- The digits and the hyphens of a date are in ASCII. -/
theorem Spells.ascii {date : Date} {year month day : List Char}
    (spells : Spells date year month day) {c : Char}
    (among : c ∈ year ++ '-' :: (month ++ '-' :: day)) : c.toNat < 0x80 := by
  have digit (among : c ∈ year ++ month ++ day) : c.toNat < 0x80 :=
    Text.ascii_of_isDigit (spells.shown c among)
  simp only [List.mem_append, List.mem_cons] at among digit
  rcases among with inYear | rfl | inMonth | rfl | inDay
  · exact digit (.inl (.inl inYear))
  · decide
  · exact digit (.inl (.inr inMonth))
  · decide
  · exact digit (.inr inDay)

/-- A text that is read as a date, starts with a digit and has no blanks is three runs of digits
with hyphens between them. -/
theorem exists_spells {c : Char} {date : Date} (digit : c.isDigit = true)
    (solid : ∀ other ∈ c :: rest, Text.isBlank other = false)
    (read : readDate? (c :: rest) = some date) :
    ∃ year month day, c :: rest = year ++ '-' :: (month ++ '-' :: day) ∧
      Spells date year month day := by
  obtain ⟨_, _, _, afterYear, afterMonth, yearRead, monthRead, dayRead, fits⟩ :=
    readDate?_eq_some_iff.mp read
  rw [trimStart_eq_self solid, readYear?_of_isDigit digit] at yearRead
  obtain ⟨⟨_, _⟩, yearRead, shape⟩ := Option.map_eq_some_iff.mp yearRead
  cases shape
  obtain ⟨year, whole, yearSize, yearShown, rfl⟩ := readNumber?_eq_some yearRead
  rw [whole] at solid ⊢
  have solidAfter : ∀ other ∈ afterYear, Text.isBlank other = false := fun other among =>
    solid other (List.mem_append_right _ (List.mem_cons_of_mem _ among))
  rw [trimStart_eq_self solidAfter] at monthRead
  obtain ⟨month, rfl, monthSize, monthShown, rfl⟩ := readNumber?_eq_some monthRead
  have solidLast : ∀ other ∈ afterMonth, Text.isBlank other = false := fun other among =>
    solidAfter other (List.mem_append_right _ (List.mem_cons_of_mem _ among))
  rw [trimStart_eq_self solidLast] at dayRead
  obtain ⟨day, rfl, daySize, dayShown, rfl⟩ := readNumber?_eq_some dayRead
  obtain ⟨year_eq, month_eq, day_eq⟩ := ofParts?_eq_some fits
  rw [List.append_nil]
  refine ⟨year, month, day, rfl, yearSize, monthSize, daySize, ?_, year_eq, month_eq, day_eq⟩
  exact List.forall_mem_append.mpr ⟨List.forall_mem_append.mpr ⟨yearShown, monthShown⟩, dayShown⟩

/-- A number of a fixed size takes that many characters. -/
theorem length_of_readFixed? {count : Nat} (read : readFixed? count input = some (value, rest)) :
    input.length = count + rest.length := by
  unfold readFixed? at read
  dsimp only at read
  split at read
  · next full =>
      obtain ⟨_, -, shape⟩ := Option.map_eq_some_iff.mp read
      cases shape
      rw [List.length_take] at full
      rw [List.length_drop]
      omega
  · cases read

/-- A moment has a time after the ten characters of its date. -/
theorem readTimestamp?_of_short (short : input.length ≤ 10) : readTimestamp? input = none := by
  cases read : readTimestamp? input with
  | none => rfl
  | some moment =>
      obtain ⟨⟨_, afterYear⟩, yearRead, read⟩ := Option.bind_eq_some_iff.mp read
      obtain ⟨_, yearDash, read⟩ := Option.bind_eq_some_iff.mp read
      obtain ⟨⟨_, afterMonth⟩, monthRead, read⟩ := Option.bind_eq_some_iff.mp read
      obtain ⟨_, monthDash, read⟩ := Option.bind_eq_some_iff.mp read
      obtain ⟨⟨_, afterDay⟩, dayRead, read⟩ := Option.bind_eq_some_iff.mp read
      have year := length_of_readFixed? yearRead
      have month := length_of_readFixed? monthRead
      have day := length_of_readFixed? dayRead
      rw [expect?_eq_some_iff.mp yearDash, List.length_cons] at year
      rw [expect?_eq_some_iff.mp monthDash, List.length_cons] at month
      have ended : afterDay = [] := List.length_eq_zero_iff.mp (by omega)
      rw [ended] at read
      exact absurd read nofun

end Calendar

/-! ### Writing -/

namespace Date

variable {date : Date} {text spelled : String}

/-- The characters of a date: year, month and day in four, two and two digits. -/
def chars (date : Date) : List Char :=
  Text.padded 4 date.year.toNat ++
    '-' :: (Text.padded 2 date.month ++ '-' :: Text.padded 2 date.day)

/-- The text of a date of a year that has four digits at most. -/
def text? (date : Date) : Option String :=
  if 0 ≤ date.year ∧ date.year < 10000 then some (String.ofList date.chars) else none

/-- A date is written in digits and hyphens. -/
theorem mem_chars {c : Char} (among : c ∈ date.chars) : c.isDigit = true ∨ c = '-' := by
  simp only [chars, List.mem_append, List.mem_cons] at among
  rcases among with year | rfl | month | rfl | day
  · exact .inl (Text.isDigit_padded year)
  · exact .inr rfl
  · exact .inl (Text.isDigit_padded month)
  · exact .inr rfl
  · exact .inl (Text.isDigit_padded day)

/-- A date is written in ten characters. -/
theorem length_chars (date : Date) : date.chars.length = 10 := by
  simp only [chars, List.length_append, List.length_cons, Text.length_padded]

/-- The text of a date has ten characters. -/
theorem length_of_text? (written : date.text? = some text) : text.toList.length = 10 := by
  unfold text? at written
  split at written
  · cases written
    rw [String.toList_ofList, length_chars]
  · cases written

/-- A date is written without blanks. -/
theorem isBlank_of_mem_chars {c : Char} (among : c ∈ date.chars) : Text.isBlank c = false := by
  rcases mem_chars among with digit | rfl
  · exact isBlank_of_isIdentPart (by simp [isIdentPart, digit])
  · decide

/-- A date is written with a digit first. -/
theorem exists_chars (date : Date) : ∃ c rest, date.chars = c :: rest ∧ c.isDigit = true := by
  cases shape : Text.padded 4 date.year.toNat with
  | nil =>
      have size := Text.length_padded 4 date.year.toNat
      rw [shape] at size
      cases size
  | cons c rest =>
      refine ⟨c, rest ++ _, by rw [chars, shape, List.cons_append], ?_⟩
      exact Text.isDigit_padded (shape ▸ List.mem_cons_self)

/-- A month has two digits at most. -/
theorem month_lt (date : Date) : date.month < 10 ^ 2 := by
  have days := Nat.le_trans date.day_pos date.day_le
  unfold daysInMonth at days
  split at days <;> omega

/-- A day has two digits at most. -/
theorem day_lt (date : Date) : date.day < 10 ^ 2 := by
  have days := date.day_le
  unfold daysInMonth at days
  split at days
  all_goals try split at days
  all_goals omega

/-- A date of a year with four digits at most is read back from its characters. -/
theorem readDate?_chars (least : 0 ≤ date.year) (most : date.year < 10000) :
    Calendar.readDate? date.chars = some date := by
  obtain ⟨c, rest, shape, digit⟩ := date.exists_chars
  have fits : date.year.toNat < 10 ^ 4 := by omega
  have year : Calendar.readYear? date.chars = some (date.year,
      '-' :: (Text.padded 2 date.month ++ '-' :: Text.padded 2 date.day)) := by
    rw [shape, Calendar.readYear?_of_isDigit digit, ← shape, chars,
      Calendar.readNumber?_padded (by decide) fits, Option.map_some]
    change some ((date.year.toNat : Int), _) = _
    rw [Int.toNat_of_nonneg least]
  have afterYear : ∀ c ∈ Text.padded 2 date.month ++ '-' :: Text.padded 2 date.day,
      Text.isBlank c = false := fun c among =>
    isBlank_of_mem_chars (List.mem_append_right _ (List.mem_cons_of_mem _ among))
  have afterMonth : ∀ c ∈ Text.padded 2 date.day, Text.isBlank c = false := fun c among =>
    afterYear c (List.mem_append_right _ (List.mem_cons_of_mem _ among))
  have month := Calendar.readNumber?_padded (by decide) date.month_lt
    ('-' :: Text.padded 2 date.day)
  have day := Calendar.readNumber?_padded (by decide) date.day_lt []
  have dated : ofParts? date.year date.month date.day = some date :=
    dif_pos ⟨date.day_pos, date.day_le⟩
  rw [← Calendar.trimStart_eq_self fun _ => isBlank_of_mem_chars] at year
  rw [← Calendar.trimStart_eq_self afterYear] at month
  rw [List.append_nil, ← Calendar.trimStart_eq_self afterMonth] at day
  exact Calendar.readDate?_eq_some_iff.mpr ⟨_, _, _, _, _, year, month, day, dated⟩

/-- A date is read back from its text. -/
theorem read?_text (written : date.text? = some text) : read? text = some date := by
  unfold text? at written
  split at written
  · next bounds =>
      cases written
      have ascii : ∀ c ∈ date.chars, c.toNat < 0x80 := fun c among => by
        rcases mem_chars among with digit | rfl
        · exact Text.ascii_of_isDigit digit
        · decide
      rw [read?, Text.utf8ByteSize_ofList ascii, length_chars, if_pos rfl, String.toList_ofList]
      exact readDate?_chars bounds.1 bounds.2
  · cases written

/-- Ten bytes leave no digit of a date out. -/
theorem text?_of_spells {year month day : List Char} (spells : Calendar.Spells date year month day)
    (size : (year ++ '-' :: (month ++ '-' :: day)).length = 10) :
    date.text? = some (String.ofList (year ++ '-' :: (month ++ '-' :: day))) := by
  obtain ⟨yearSize, monthSize, daySize, shown, year_eq, month_eq, day_eq⟩ := spells
  simp only [List.length_append, List.length_cons] at size
  have yearFull : year.length = 4 := by omega
  have monthFull : month.length = 2 := by omega
  have dayFull : day.length = 2 := by omega
  obtain ⟨shown, dayShown⟩ := List.forall_mem_append.mp shown
  obtain ⟨yearShown, monthShown⟩ := List.forall_mem_append.mp shown
  have yearWritten := Text.padded_ofDigitChars yearShown
  have monthWritten := Text.padded_ofDigitChars monthShown
  have dayWritten := Text.padded_ofDigitChars dayShown
  rw [yearFull, ← Int.toNat_natCast (Nat.ofDigitChars 10 year 0), ← year_eq] at yearWritten
  rw [monthFull, ← month_eq] at monthWritten
  rw [dayFull, ← day_eq] at dayWritten
  have bounds : 0 ≤ date.year ∧ date.year < 10000 := by
    have most := Text.ofDigitChars_lt yearShown
    rw [yearFull] at most
    omega
  rw [text?, if_pos bounds, chars, yearWritten, monthWritten, dayWritten]

/-- A date is written as it was spelled exactly where the spelling starts with a digit and has no
blank. -/
theorem text?_eq_iff (read : read? spelled = some date) :
    date.text? = some spelled ↔ (∃ c ∈ spelled.toList.head?, c.isDigit = true) ∧
      ∀ c ∈ spelled.toList, Text.isBlank c = false := by
  constructor
  · intro written
    unfold text? at written
    split at written
    · cases written
      obtain ⟨c, rest, shape, digit⟩ := date.exists_chars
      rw [String.toList_ofList]
      exact ⟨⟨c, by rw [shape]; rfl, digit⟩, fun _ => isBlank_of_mem_chars⟩
    · cases written
  · rintro ⟨⟨c, head, digit⟩, solid⟩
    unfold read? at read
    split at read
    · next bytes =>
        obtain ⟨rest, shape⟩ := List.head?_eq_some_iff.mp head
        rw [shape] at solid read
        obtain ⟨year, month, day, whole, spells⟩ := Calendar.exists_spells digit solid read
        have same : spelled = String.ofList (year ++ '-' :: (month ++ '-' :: day)) := by
          rw [← whole, ← shape, String.ofList_toList]
        subst same
        rw [Text.utf8ByteSize_ofList fun _ => spells.ascii] at bytes
        exact text?_of_spells spells bytes
    · cases read

end Date

end TableGate

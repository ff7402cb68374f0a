import TableGate.Text.Numeral

/-!
# Dates and timestamps

Dates of the proleptic Gregorian calendar and moments of Coordinated Universal Time, with the two
texts they are read from: year, month and day separated by hyphens, and the internet date format
`YYYY-MM-DDThh:mm:ss` with optional fraction and with offset.
-/

namespace TableGate

def isLeapYear (year : Int) : Bool := year % 4 == 0 && (year % 100 != 0 || year % 400 == 0)

/-- The number of days of a month; none for a month that does not exist. -/
def daysInMonth (year : Int) : Nat → Nat
  | 1 | 3 | 5 | 7 | 8 | 10 | 12 => 31
  | 4 | 6 | 9 | 11 => 30
  | 2 => if isLeapYear year then 29 else 28
  | _ => 0

structure Date where
  year : Int
  month : Nat
  day : Nat
  day_pos : 1 ≤ day
  day_le : day ≤ daysInMonth year month
deriving DecidableEq, Repr

/-- A moment: seconds since 1970 and nanoseconds.  In a leap second the seconds stay and the
nanoseconds exceed a second. -/
structure Timestamp where
  seconds : Int
  nanos : Nat
deriving DecidableEq, Repr

namespace Date

def ofParts? (year : Int) (month day : Nat) : Option Date :=
  if fits : 1 ≤ day ∧ day ≤ daysInMonth year month then some ⟨year, month, day, fits.1, fits.2⟩
  else none

/-- Days since the first of March of the year zero; years are counted from March, so that the leap
day comes last. -/
def dayCount (year : Int) (month day : Nat) : Int :=
  let shifted := if month ≤ 2 then year - 1 else year
  let fromMarch := if month ≤ 2 then month + 9 else month - 3
  365 * shifted + shifted / 4 - shifted / 100 + shifted / 400 +
    ((153 * fromMarch + 2) / 5 + day - 1 : Nat)

def daysSince2000 (date : Date) : Int :=
  dayCount date.year date.month date.day - dayCount 2000 1 1

end Date

/-! ### Reading -/

namespace Calendar

/-- A run of one digit up to `most` digits, and what follows it. -/
def readNumber? (most : Nat) (input : List Char) : Option (Nat × List Char) :=
  let digits := (input.take most).takeWhile Char.isDigit
  (Text.natural? digits).map fun value => (value, input.drop digits.length)

/-- Exactly `count` digits, and what follows them. -/
def readFixed? (count : Nat) (input : List Char) : Option (Nat × List Char) :=
  let digits := input.take count
  if digits.length = count then
    (Text.natural? digits).map fun value => (value, input.drop count)
  else none

/-- What follows the given character. -/
def expect? (c : Char) : List Char → Option (List Char)
  | first :: rest => if first = c then some rest else none
  | [] => none

/-- A year: at most four digits, or any number of digits after a sign. -/
def readYear? : List Char → Option (Int × List Char)
  | '-' :: rest => (readNumber? rest.length rest).map fun (value, after) => (-(value : Int), after)
  | '+' :: rest => (readNumber? rest.length rest).map fun (value, after) => ((value : Int), after)
  | input => (readNumber? 4 input).map fun (value, after) => ((value : Int), after)

/-- Year, month and day, each of which may have blanks before it. -/
def readDate? (input : List Char) : Option Date := do
  let (year, afterYear) ← readYear? (Text.trimStart input)
  let (month, afterMonth) ← readNumber? 2 (Text.trimStart (← expect? '-' afterYear))
  let (day, rest) ← readNumber? 2 (Text.trimStart (← expect? '-' afterMonth))
  if rest.isEmpty then Date.ofParts? year month day else none

/-- The nanoseconds of a fraction of a second, if there is one; digits after the ninth do not
count. -/
def readFraction? : List Char → Option (Nat × List Char)
  | '.' :: rest =>
      let digits := rest.takeWhile Char.isDigit
      let kept := digits.take 9
      (Text.natural? kept).map fun value =>
        (value * Nat.pow 10 (9 - kept.length), rest.drop digits.length)
  | input => some (0, input)

/-- A minus sign, of ASCII or of typography. -/
def isMinus (c : Char) : Bool := c == '-' || c.toNat == 0x2212

/-- The offset from universal time, in minutes. -/
def readOffset? : List Char → Option (Int × List Char)
  | [] => none
  | c :: rest =>
      if c = 'Z' ∨ c = 'z' then some (0, rest)
      else if c = '+' ∨ isMinus c = true then do
        let (hours, afterHours) ← readFixed? 2 rest
        let (minutes, after) ← readFixed? 2 (← expect? ':' afterHours)
        if hours < 24 ∧ minutes < 60 then
          let total : Int := hours * 60 + minutes
          return (if c = '+' then total else -total, after)
        else none
      else none

/-- The days from 1970 to 2000. -/
def daysTo2000 : Int := 10957

/-- A date and a time of day with an offset.  Second sixty is a leap second. -/
def readTimestamp? (input : List Char) : Option Timestamp := do
  let (year, afterYear) ← readFixed? 4 input
  let (month, afterMonth) ← readFixed? 2 (← expect? '-' afterYear)
  let (day, afterDay) ← readFixed? 2 (← expect? '-' afterMonth)
  let afterMark ← match afterDay with
    | 'T' :: rest | 't' :: rest | ' ' :: rest => some rest
    | _ => none
  let (hour, afterHour) ← readFixed? 2 afterMark
  let (minute, afterMinute) ← readFixed? 2 (← expect? ':' afterHour)
  let (second, afterSecond) ← readFixed? 2 (← expect? ':' afterMinute)
  let (nanos, afterFraction) ← readFraction? afterSecond
  let (offset, rest) ← readOffset? afterFraction
  let date ← Date.ofParts? year month day
  if rest.isEmpty ∧ hour < 24 ∧ minute < 60 ∧ second ≤ 60 then
    let days := date.daysSince2000 + daysTo2000
    let inDay : Int := hour * 3600 + minute * 60 + min second 59
    return ⟨days * 86400 + inDay - offset * 60, nanos + if second = 60 then 1000000000 else 0⟩
  else none

end Calendar

/-- The date that a text of ten bytes spells. -/
def Date.read? (text : String) : Option Date :=
  if text.utf8ByteSize = 10 then Calendar.readDate? text.toList else none

/-- The moment that a text spells in the internet date format. -/
def Timestamp.read? (text : String) : Option Timestamp := Calendar.readTimestamp? text.toList

/-- Microseconds since 2000, truncated toward zero. -/
def Timestamp.microsSince2000 (moment : Timestamp) : Int :=
  ((moment.seconds - Calendar.daysTo2000 * 86400) * 1000000000 + moment.nanos).tdiv 1000

end TableGate

import ApiDouble.Text.Search

/-!
# Moments and date patterns

A moment is a number of nanoseconds since the first of January 1970. Its date is that of the
Gregorian calendar, at no offset from universal time. Days are counted from the first of March of
the year 0, so that a leap day is the last day of its year.

A date pattern such as `dd/MM/yyyy HH:mm` has runs of letters for the parts of a date, text in
single quotes, and other characters that stand for themselves. Outside quoted text two quotes stand
for one. `read` gives the items of a pattern, which can be written as a percent format
(`percentFormat`) or filled in for a moment (`format`).
-/

namespace ApiDouble.Time

/-! ## Moments and dates -/

/-- A point in time. -/
structure Moment where
  nanos : Nat
deriving DecidableEq, Inhabited, Repr

/-- A moment as a calendar and a clock show it. Months and days of the month count from 1, weekdays
from Sunday as 0, days of the year from 1. -/
structure Reading where
  year : Nat
  month : Nat
  day : Nat
  weekday : Nat
  dayOfYear : Nat
  hour : Nat
  minute : Nat
  second : Nat
  nanos : Nat
deriving DecidableEq, Inhabited, Repr

def isLeap (year : Nat) : Bool := year % 4 == 0 && (year % 100 != 0 || year % 400 == 0)

/-- The days of a year before a month. -/
def daysBefore (year month : Nat) : Nat :=
  let plain := [0, 31, 59, 90, 120, 151, 181, 212, 243, 273, 304, 334].getD (month - 1) 0
  if 2 < month ∧ isLeap year then plain + 1 else plain

/-- Year, month and day of a day counted from the first of March of the year 0. -/
def civil (days : Nat) : Nat × Nat × Nat :=
  let era := days / 146097
  let dayOfEra := days % 146097
  let yearOfEra := (dayOfEra - dayOfEra / 1460 + dayOfEra / 36524 - dayOfEra / 146096) / 365
  let dayOfYear := dayOfEra - (365 * yearOfEra + yearOfEra / 4 - yearOfEra / 100)
  let month := (5 * dayOfYear + 2) / 153
  let year := yearOfEra + 400 * era
  if month < 10 then (year, month + 3, dayOfYear - (153 * month + 2) / 5 + 1)
  else (year + 1, month - 9, dayOfYear - (153 * month + 2) / 5 + 1)

/-- How many days lie between the first of March of the year 0 and the first of January 1970. -/
def epoch : Nat := 719468

def Moment.reading (m : Moment) : Reading :=
  let seconds := m.nanos / 1000000000
  let days := seconds / 86400
  let (year, month, day) := civil (days + epoch)
  { year, month, day
    weekday := (days + 4) % 7
    dayOfYear := daysBefore year month + day
    hour := seconds / 3600 % 24
    minute := seconds / 60 % 60
    second := seconds % 60
    nanos := m.nanos % 1000000000 }

example : civil (11016 + epoch) = (2000, 2, 29) := by decide

/-! ## Patterns -/

open Text

/-- A part of a date. Where two widths exist, the short one has no padding. -/
inductive Field
  | year | yearOfCentury
  | month | paddedMonth | monthName | fullMonthName
  | day | paddedDay
  | hour | paddedHour | halfHour | paddedHalfHour
  | minute | paddedMinute
  | second | paddedSecond
  | millis | micros | nanos
  | half
  | weekday | fullWeekday
  | dayOfYear
  | offset | colonOffset | zone
deriving DecidableEq, Repr

/-- The field that a run of one letter stands for. -/
def Field.ofRun? (letter : Char) (count : Nat) : Option Field :=
  let narrow (field wide : Field) : Option Field := some (if count = 1 then field else wide)
  match letter with
  | 'y' => some (if count = 2 then yearOfCentury else year)
  | 'M' => some (
    if count = 1 then month
    else if count = 2 then paddedMonth
    else if count = 3 then monthName
    else fullMonthName)
  | 'd' => narrow day paddedDay
  | 'H' => narrow hour paddedHour
  | 'h' => narrow halfHour paddedHalfHour
  | 'm' => narrow minute paddedMinute
  | 's' => narrow second paddedSecond
  | 'S' => some (if count ≤ 3 then millis else if count ≤ 6 then micros else nanos)
  | 'a' => some half
  | 'E' => some (if count ≤ 3 then weekday else fullWeekday)
  | 'D' => some dayOfYear
  | 'Z' => some offset
  | 'X' => some colonOffset
  | 'z' => some zone
  | _ => none

/-- A piece of a pattern: a character that stands for itself, or a field. -/
inductive Item
  | literal (c : Char)
  | field (f : Field)
deriving DecidableEq, Repr

/-- Why a pattern cannot be read. -/
inductive PatternError
  | unterminated (pattern : String)
  | illegal (letter : Char)
deriving DecidableEq, Repr

def PatternError.message : PatternError → String
  | unterminated p => "unterminated quote in '" ++ p ++ "'"
  | illegal c => "illegal pattern letter '" ++ c.toString ++ "'"

/-- The items of a part of `pattern`. -/
def readPart (pattern : String) : List Char → Except PatternError (List Item)
  | [] => .ok []
  | '\'' :: '\'' :: rest => do return .literal '\'' :: (← readPart pattern rest)
  | '\'' :: rest =>
    match h : breakAt? ['\''] rest with
    | none => .error (.unterminated pattern)
    | some (text, rest') =>
      have := length_of_breakAt? h
      do return text.map .literal ++ (← readPart pattern rest')
  | c :: rest =>
    if c.isAlpha then
      match Field.ofRun? c ((rest.takeWhile (· == c)).length + 1) with
      | none => .error (.illegal c)
      | some f => do return .field f :: (← readPart pattern (rest.dropWhile (· == c)))
    else do return .literal c :: (← readPart pattern rest)
termination_by s => s.length
decreasing_by
  · simp only [List.length_cons]; omega
  · simp only [List.length_cons] at *; omega
  · have := (rest.dropWhile_suffix (· == c)).length_le
    simp only [List.length_cons]; omega
  · simp only [List.length_cons]; omega

/-- The items of a pattern. -/
def read (pattern : String) : Except PatternError (List Item) := readPart pattern pattern.toList

/-! ### Percent formats -/

/-- The conversion of a percent format for a field. -/
def Field.conversion : Field → String
  | year => "%Y"
  | yearOfCentury => "%y"
  | month => "%-m"
  | paddedMonth => "%m"
  | monthName => "%b"
  | fullMonthName => "%B"
  | day => "%-d"
  | paddedDay => "%d"
  | hour => "%-H"
  | paddedHour => "%H"
  | halfHour => "%-I"
  | paddedHalfHour => "%I"
  | minute => "%-M"
  | paddedMinute => "%M"
  | second => "%-S"
  | paddedSecond => "%S"
  | millis => "%3f"
  | micros => "%6f"
  | nanos => "%9f"
  | half => "%p"
  | weekday => "%a"
  | fullWeekday => "%A"
  | dayOfYear => "%j"
  | offset => "%z"
  | colonOffset => "%:z"
  | zone => "%Z"

/-- An item in a percent format, in which a percent sign is written twice. -/
def Item.conversion : Item → List Char
  | literal c => if c = '%' then ['%', '%'] else [c]
  | field f => f.conversion.toList

/-- The percent format of a list of items. -/
def percentFormat (items : List Item) : String := String.ofList (items.flatMap Item.conversion)

/-! ### Formatting -/

def monthNames : List String := ["January", "February", "March", "April", "May", "June", "July",
  "August", "September", "October", "November", "December"]

def weekdayNames : List String :=
  ["Sunday", "Monday", "Tuesday", "Wednesday", "Thursday", "Friday", "Saturday"]

def digits (n : Nat) : List Char := Nat.toDigits 10 n

/-- A number with zeros before it up to a width. -/
def padded (width n : Nat) : List Char :=
  List.replicate (width - (digits n).length) '0' ++ digits n

/-- The text of a field. Hours of half a day run from 1 to 12. -/
def Field.text (r : Reading) : Field → List Char
  | year => padded 4 r.year
  | yearOfCentury => padded 2 (r.year % 100)
  | month => digits r.month
  | paddedMonth => padded 2 r.month
  | monthName => (monthNames.getD (r.month - 1) "").toList.take 3
  | fullMonthName => (monthNames.getD (r.month - 1) "").toList
  | day => digits r.day
  | paddedDay => padded 2 r.day
  | hour => digits r.hour
  | paddedHour => padded 2 r.hour
  | halfHour => digits ((r.hour + 11) % 12 + 1)
  | paddedHalfHour => padded 2 ((r.hour + 11) % 12 + 1)
  | minute => digits r.minute
  | paddedMinute => padded 2 r.minute
  | second => digits r.second
  | paddedSecond => padded 2 r.second
  | millis => padded 3 (r.nanos / 1000000)
  | micros => padded 6 (r.nanos / 1000)
  | nanos => padded 9 r.nanos
  | half => if r.hour < 12 then ['A', 'M'] else ['P', 'M']
  | weekday => (weekdayNames.getD r.weekday "").toList.take 3
  | fullWeekday => (weekdayNames.getD r.weekday "").toList
  | dayOfYear => padded 3 r.dayOfYear
  | offset => "+0000".toList
  | colonOffset => "+00:00".toList
  | zone => "+00:00".toList

def Item.text (r : Reading) : Item → List Char
  | literal c => [c]
  | field f => f.text r

/-- The text of a moment in a format. -/
def format (items : List Item) (m : Moment) : String :=
  String.ofList (items.flatMap (Item.text m.reading))

end ApiDouble.Time

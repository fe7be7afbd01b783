/-
  Patterns for writing moments.

  * `Field` is a part of a moment, such as the day of the month or the name of the month.
  * A pattern is written with one letter for each field; `Pattern.parse` reads it, where other
    characters stand for themselves and a backslash takes the meaning from the next one.
  * `Moment.format` writes a moment by a pattern.
  * `Pattern.directives` is the same pattern in the notation with percent signs.
-/
import Letterpress.Date.Calendar
import Letterpress.Decimal.Layout

namespace Letterpress

/-! ## Fields -/

/-- A part of a moment. -/
inductive Field where
  | day
  | dayUnpadded
  | weekdayShort
  | weekdayLong
  /-- From Monday as 1. -/
  | weekdayFromMonday
  /-- From Sunday as 0. -/
  | weekdayFromSunday
  | dayOfYear
  | week
  | monthLong
  | monthShort
  | month
  | monthUnpadded
  | year
  | yearInCentury
  | halfDayLower
  | halfDayUpper
  | hour12Unpadded
  | hour24Unpadded
  | hour12
  | hour24
  | minute
  | second
  | timestamp
deriving DecidableEq, Repr

namespace Field

/-- The fields with their letters and their directives. -/
def table : List (Char × Field × String) :=
  [('d', .day, "%d"), ('j', .dayUnpadded, "%-d"), ('D', .weekdayShort, "%a"),
   ('l', .weekdayLong, "%A"), ('N', .weekdayFromMonday, "%u"), ('w', .weekdayFromSunday, "%w"),
   ('z', .dayOfYear, "%-j"), ('W', .week, "%V"), ('F', .monthLong, "%B"), ('M', .monthShort, "%b"),
   ('m', .month, "%m"), ('n', .monthUnpadded, "%-m"), ('Y', .year, "%Y"),
   ('y', .yearInCentury, "%y"), ('a', .halfDayLower, "%P"), ('A', .halfDayUpper, "%p"),
   ('g', .hour12Unpadded, "%-I"), ('G', .hour24Unpadded, "%-H"), ('h', .hour12, "%I"),
   ('H', .hour24, "%H"), ('i', .minute, "%M"), ('s', .second, "%S"), ('U', .timestamp, "%s")]

/-- The field of a letter. -/
def ofLetter? (c : Char) : Option Field := (table.lookup c).map (·.1)

/-- The directive of a field. -/
def directive (f : Field) : String := ((table.find? fun e => e.2.1 = f).map (·.2.2)).getD ""

end Field

/-- The names of the months. -/
def monthNames : List String :=
  ["January", "February", "March", "April", "May", "June", "July", "August", "September",
   "October", "November", "December"]

/-- The names of the days of the week, from Monday. -/
def weekdayNames : List String :=
  ["Monday", "Tuesday", "Wednesday", "Thursday", "Friday", "Saturday", "Sunday"]

/-! ## Writing a field -/

open Decimal (digitsOf padded)

/-- The first three letters of a name. -/
def abbreviated (name : String) : List Char := name.toList.take 3

/-- A year with at least four digits, and with a sign unless it has exactly four. -/
def yearText (year : Int) : List Char :=
  if year < 0 then '-' :: padded 4 year.natAbs
  else if 9999 < year then '+' :: padded 4 year.natAbs
  else padded 4 year.natAbs

/-- The hour on a clock face. -/
def clockHour (hour : Nat) : Nat := if hour % 12 = 0 then 12 else hour % 12

/-- An integer. -/
def integerDigits (n : Int) : List Char :=
  if n < 0 then '-' :: digitsOf n.natAbs else digitsOf n.natAbs

/-- The text of a field of a moment. -/
def Field.format (m : Moment) : Field → List Char
  | .day => padded 2 m.date.day
  | .dayUnpadded => digitsOf m.date.day
  | .weekdayShort => abbreviated (weekdayNames.getD m.date.weekday "")
  | .weekdayLong => (weekdayNames.getD m.date.weekday "").toList
  | .weekdayFromMonday => digitsOf (m.date.weekday + 1)
  | .weekdayFromSunday => digitsOf ((m.date.weekday + 1) % 7)
  | .dayOfYear => digitsOf m.date.ordinal
  | .week => padded 2 m.date.isoWeek
  | .monthLong => (monthNames.getD (m.date.month - 1) "").toList
  | .monthShort => abbreviated (monthNames.getD (m.date.month - 1) "")
  | .month => padded 2 m.date.month
  | .monthUnpadded => digitsOf m.date.month
  | .year => yearText m.date.year
  | .yearInCentury => padded 2 (m.date.year % 100).toNat
  | .halfDayLower => if m.hour < 12 then ['a', 'm'] else ['p', 'm']
  | .halfDayUpper => if m.hour < 12 then ['A', 'M'] else ['P', 'M']
  | .hour12Unpadded => digitsOf (clockHour m.hour)
  | .hour24Unpadded => digitsOf m.hour
  | .hour12 => padded 2 (clockHour m.hour)
  | .hour24 => padded 2 m.hour
  | .minute => padded 2 m.minute
  | .second => padded 2 m.second
  | .timestamp => integerDigits m.timestamp

/-! ## Patterns -/

/-- A part of a pattern. -/
inductive Pattern.Part where
  | literal (c : Char)
  | field (f : Field)
deriving DecidableEq, Repr

/-- A pattern. -/
abbrev Pattern := List Pattern.Part

namespace Pattern

/-- The pattern of a text with letters for the fields. -/
def parse : List Char → Pattern
  | [] => []
  | ['\\'] => []
  | '\\' :: c :: s => .literal c :: parse s
  | c :: s => ((Field.ofLetter? c).elim (.literal c) .field) :: parse s

/-- The pattern with directives for the fields. -/
def directives (p : Pattern) : List Char :=
  p.flatMap fun
    | .literal c => if c = '%' then ['%', '%'] else [c]
    | .field f => f.directive.toList

end Pattern

/-- The text of a moment. -/
def Moment.format (p : Pattern) (m : Moment) : List Char :=
  p.flatMap fun
    | .literal c => [c]
    | .field f => f.format m

end Letterpress

/-
  Days and times of the Gregorian calendar, extended to all years.

  * `Date` is a year, a month and a day; `Date.make?` accepts those that exist and whose year is
    in the supported range.
  * `Date.number` counts the days since the start of 1970, `Date.ofNumber` is the date of a count.
  * `Date.ordinal`, `Date.weekday` and `Date.isoWeek` are the places of a day in its year and week.
  * `Moment` is a date with a time of day; `Moment.ofTimestamp?` and `Moment.timestamp` convert
    from and to seconds since the start of 1970.
-/

namespace Letterpress

/-! ## Dates -/

/-- A day of the calendar. -/
structure Date where
  year : Int
  month : Nat
  day : Nat
deriving DecidableEq, Repr

namespace Date

/-- The year has a 29th of February. -/
def isLeap (year : Int) : Bool := year % 4 == 0 && (year % 100 != 0 || year % 400 == 0)

/-- The lengths of the months. -/
def monthLengths (leap : Bool) : List Nat :=
  [31, if leap then 29 else 28, 31, 30, 31, 30, 31, 31, 30, 31, 30, 31]

/-- The first supported year. -/
def firstYear : Int := -262143

/-- The last supported year. -/
def lastYear : Int := 262142

/-- The date, if it exists. -/
def make? (year : Int) (month day : Nat) : Option Date := do
  if month = 0 || day = 0 || year < firstYear || lastYear < year then none
  let length ← (monthLengths (isLeap year))[month - 1]?
  if length < day then none else some ⟨year, month, day⟩

/-- The number of the day in its year, from 1. -/
def ordinal (d : Date) : Nat :=
  ((monthLengths (isLeap d.year)).take (d.month - 1)).foldl (· + ·) 0 + d.day

/-- The number of days from the start of the year 0 to the start of a year: the years before it
    have 365 days each, and one more in every leap year. -/
def daysBeforeYear (year : Int) : Int :=
  365 * year + (year - 1) / 4 - (year - 1) / 100 + (year - 1) / 400 + 1

/-- The number of days from the start of 1970 to the date. -/
def number (d : Date) : Int := daysBeforeYear d.year + d.ordinal - 1 - daysBeforeYear 1970

/-- The month and the day of the `n`-th day of a year, where `lengths` are the lengths of the
    months from `month` on. -/
def monthAndDay (month n : Nat) : List Nat → Nat × Nat
  | [] => (month, n)
  | length :: rest => if n ≤ length then (month, n) else monthAndDay (month + 1) (n - length) rest

/-- The year of the `n`-th day after the start of the year 0.  The mean length of a year,
    146097 / 400 days, leads at most one year astray. -/
def yearOf (n : Int) : Int :=
  let guess := n * 400 / 146097
  if n < daysBeforeYear guess then guess - 1
  else if daysBeforeYear (guess + 1) ≤ n then guess + 1
  else guess

/-- The date of a number of days since the start of 1970. -/
def ofNumber (n : Int) : Date :=
  let n := n + daysBeforeYear 1970
  let year := yearOf n
  let (month, day) := monthAndDay 1 (n - daysBeforeYear year + 1).toNat (monthLengths (isLeap year))
  ⟨year, month, day⟩

/-- The day of the week, from Monday as 0. -/
def weekday (d : Date) : Nat := ((d.number + 3) % 7).toNat

/-- The date lies in a year with 53 weeks: one whose first of January is a Thursday, or a leap year
    whose first of January is a Wednesday. -/
def hasLongYear (year : Int) : Bool :=
  let first := weekday ⟨year, 1, 1⟩
  first == 3 || (isLeap year && first == 2)

/-- The number of the week, where weeks start on Monday and belong to the year of their Thursday. -/
def isoWeek (d : Date) : Nat :=
  let week := (d.ordinal + 9 - d.weekday) / 7
  if week = 0 then (if hasLongYear (d.year - 1) then 53 else 52)
  else if week = 53 && !hasLongYear d.year then 1
  else week

end Date

/-! ## Moments -/

/-- A date with a time of day.  The second 60 is a leap second. -/
structure Moment where
  date : Date
  hour : Nat
  minute : Nat
  second : Nat
deriving DecidableEq, Repr

namespace Moment

/-- The start of a day. -/
def midnight (d : Date) : Moment := ⟨d, 0, 0, 0⟩

/-- The moment, if the time of day exists. -/
def make? (d : Date) (hour minute second : Nat) : Option Moment :=
  if hour < 24 && minute < 60 && second ≤ 60 then some ⟨d, hour, minute, second⟩ else none

/-- The moment of a number of seconds since the start of 1970, if its year is supported. -/
def ofTimestamp? (t : Int) : Option Moment :=
  let d := Date.ofNumber (t / 86400)
  let s := (t % 86400).toNat
  if d.year < Date.firstYear || Date.lastYear < d.year then none
  else some ⟨d, s / 3600, s / 60 % 60, s % 60⟩

/-- The number of seconds from the start of 1970.  A leap second counts as the second before it. -/
def timestamp (m : Moment) : Int :=
  m.date.number * 86400 + (m.hour * 3600 + m.minute * 60 + min m.second 59 : Nat)

end Moment

end Letterpress

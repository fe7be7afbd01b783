/-
  Reading moments from text.

  * `Moment.readInternet?` reads the format of internet messages, `2024-01-15T10:30:00.5+02:00`;
    the offset is read and then left out, so that the result is the time on the writer's clock.
  * A `Layout` is a list of parts to read one after the other: numbers may have white space before
    them and fewer digits than usual, and blanks may be absent.
  * `Moment.read?` tries the internet format, then the layouts of a date with a time, then those of
    a date alone, and takes the first that fits the whole text.
-/
import Letterpress.Date.Pattern
import Letterpress.Decimal.Reading
import Letterpress.Text.Blank
import Letterpress.Text.Pieces

namespace Letterpress.Date

open Decimal (natOf)
open Text

/-! ## Parts -/

/-- A number of exactly `width` digits. -/
def readExact? (width : Nat) : Reader Nat := fun s =>
  let ds := s.take width
  if ds.length = width && ds.all Char.isDigit then some (natOf ds, s.drop width) else none

/-- A number of one to `width` digits. -/
def readUpTo? (width : Nat) : Reader Nat := fun s =>
  let ds := (s.take width).takeWhile Char.isDigit
  if ds.isEmpty then none else some (natOf ds, s.drop ds.length)

/-- A year: up to four digits, or a sign and any number of digits. -/
def readYear? : Reader Int
  | '-' :: s => (readUpTo? s.length s).map fun (n, s) => (-(n : Int), s)
  | '+' :: s => (readUpTo? s.length s).map fun (n, s) => ((n : Int), s)
  | s => (readUpTo? 4 s).map fun (n, s) => ((n : Int), s)

/-- What follows `pat` in `s` in any ASCII case. -/
def afterWord? : List Char → List Char → Option (List Char)
  | [], s => some s
  | _ :: _, [] => none
  | p :: pat, c :: s => if p.toLower = c.toLower then afterWord? pat s else none

/-- The name of a month, or its first three letters, in any ASCII case; the month as a number. -/
def readMonthName? : Reader Nat := fun s =>
  (List.range 12).findSome? fun i =>
    let name := (monthNames.getD i "").toList
    (afterWord? (name.take 3) s).map fun rest => (i + 1, (afterWord? (name.drop 3) rest).getD rest)

/-! ## The internet format -/

/-- The fraction of a second, if there is one. -/
def skipFraction? : List Char → Option (List Char)
  | '.' :: s =>
    let (ds, rest) := s.span Char.isDigit
    if ds.isEmpty then none else some rest
  | s => some s

/-- The offset from universal time; nothing may follow it. -/
def isOffset : List Char → Bool
  | ['Z'] | ['z'] => true
  | sign :: s =>
    (sign = '+' || sign = '-' || sign = '−') &&
      (do
        let (hours, s) ← readExact? 2 s
        let s ← afterStart? [':'] s
        let (minutes, s) ← readExact? 2 s
        return decide (hours < 24) && decide (minutes < 60) && s.isEmpty).getD false
  | [] => false

/-- A moment in the format of internet messages. -/
def readInternet? (s : List Char) : Option Moment := do
  let (year, s) ← readExact? 4 s
  let s ← afterStart? ['-'] s
  let (month, s) ← readExact? 2 s
  let s ← afterStart? ['-'] s
  let (day, s) ← readExact? 2 s
  let s ← match s with
    | 'T' :: s | 't' :: s | ' ' :: s => some s
    | _ => none
  let (hour, s) ← readExact? 2 s
  let s ← afterStart? [':'] s
  let (minute, s) ← readExact? 2 s
  let s ← afterStart? [':'] s
  let (second, s) ← readExact? 2 s
  let s ← skipFraction? s
  if !isOffset s then none
  let date ← make? year month day
  Moment.make? date hour minute second

/-! ## Layouts -/

/-- A part of a layout. -/
inductive Slot where
  | mark (c : Char)
  | blanks
  | year
  | month
  | monthName
  | day
  | hour
  | minute
  | second
deriving DecidableEq, Repr

/-- What the parts of a layout have given so far. -/
structure Parts where
  year : Int
  month : Nat
  day : Nat
  hour : Nat
  minute : Nat
  second : Nat

/-- No part has been read; the time of day is the start of the day. -/
def Parts.none : Parts := ⟨0, 0, 0, 0, 0, 0⟩

/-- One part of a layout. -/
def Slot.read? (p : Parts) : Slot → List Char → Option (Parts × List Char)
  | .mark c, s => (afterStart? [c] s).map fun s => (p, s)
  | .blanks, s => some (p, trimStart s)
  | .year, s => (readYear? (trimStart s)).map fun (n, s) => ({ p with year := n }, s)
  | .month, s => (readUpTo? 2 (trimStart s)).map fun (n, s) => ({ p with month := n }, s)
  | .monthName, s => (readMonthName? s).map fun (n, s) => ({ p with month := n }, s)
  | .day, s => (readUpTo? 2 (trimStart s)).map fun (n, s) => ({ p with day := n }, s)
  | .hour, s => (readUpTo? 2 (trimStart s)).map fun (n, s) => ({ p with hour := n }, s)
  | .minute, s => (readUpTo? 2 (trimStart s)).map fun (n, s) => ({ p with minute := n }, s)
  | .second, s => (readUpTo? 2 (trimStart s)).map fun (n, s) => ({ p with second := n }, s)

/-- The whole text by a layout. -/
def readSlots? (p : Parts) : List Slot → List Char → Option Parts
  | [], s => if s.isEmpty then some p else Option.none
  | slot :: rest, s => (slot.read? p s).bind fun (p, s) => readSlots? p rest s

/-- A moment by a layout. -/
def readLayout? (layout : List Slot) (s : List Char) : Option Moment := do
  let p ← readSlots? .none layout s
  let date ← make? p.year p.month p.day
  Moment.make? date p.hour p.minute p.second

/-- The layout `Y-m-d`. -/
def dashed : List Slot := [.year, .mark '-', .month, .mark '-', .day]

/-- The layouts that are tried, in order. -/
def layouts : List (List Slot) :=
  [dashed ++ [.blanks, .hour, .mark ':', .minute, .mark ':', .second],
   dashed ++ [.mark 'T', .hour, .mark ':', .minute, .mark ':', .second],
   dashed ++ [.blanks, .hour, .mark ':', .minute],
   dashed,
   [.year, .mark '/', .month, .mark '/', .day],
   [.monthName, .blanks, .day, .mark ',', .blanks, .year],
   [.day, .blanks, .monthName, .blanks, .year]]

end Letterpress.Date

namespace Letterpress

/-- The moment that a text describes. -/
def Moment.read? (s : List Char) : Option Moment :=
  let s := Text.trim s
  (Date.readInternet? s).orElse fun _ => Date.layouts.findSome? fun l => Date.readLayout? l s

end Letterpress

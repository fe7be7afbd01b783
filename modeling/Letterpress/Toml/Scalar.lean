/-
  Numbers, truth values and times of TOML.

  * `readScalar?` reads one, as a JSON value: an integer of up to 128 bits, a double, a truth value,
    or a time, which becomes an object with the time in its standard form.
  * Infinities and not-a-number have no JSON value and become `null`; a number that is too large
    for a double is refused.
-/
import Letterpress.Date.Reading
import Letterpress.Decimal.Layout
import Letterpress.Json.Record
import Letterpress.Toml.Lexical

namespace Letterpress.Toml

open Text

/-! ## Numbers -/

/-- The digits without the underscores, which may only stand between two digits. -/
def withoutUnderscores? (isDigit : Char → Bool) (s : List Char) : Option (List Char) :=
  let groups := splitOn '_' s
  if groups.all fun g => !g.isEmpty && g.all isDigit then some groups.flatten else none

/-- A number without a sign in a base below 17. -/
def natInBase? (base : Nat) (s : List Char) : Option Nat := do
  let isDigit (c : Char) : Bool := ((Json.hexValue? c).map fun h => decide (h < base)).getD false
  let ds ← withoutUnderscores? isDigit s
  ds.foldlM (fun n c => (Json.hexValue? c).map fun h => base * n + h) 0

/-- Decimal digits without a zero in front. -/
def decimalDigits? (s : List Char) : Option (List Char) := do
  let ds ← withoutUnderscores? Char.isDigit s
  if 1 < ds.length && ds.head? = some '0' then none else some ds

/-- An integer that fits into 128 bits. -/
def integer? (negative : Bool) (n : Nat) : Option Json :=
  if negative then
    (if n ≤ Decimal.signedBound * Decimal.wordBound then some (Json.int (-(n : Int))) else none)
  else if n < Decimal.wordBound * Decimal.wordBound then some (Json.int n)
  else none

/-- The sign, if there is one, and what follows it. -/
def signOf : List Char → Option Bool × List Char
  | '-' :: s => (some true, s)
  | '+' :: s => (some false, s)
  | s => (none, s)

/-- The exponent of a double. -/
def exponent? (s : List Char) : Option (List Char) := do
  let (sign, ds) := signOf s
  let ds ← withoutUnderscores? Char.isDigit ds
  return (if sign = some true then ['-'] else []) ++ ds

/-- The digits of a double as a plain number: an integer part, a fraction, and an exponent, of which
    the last two may be missing, but not both. -/
def plainDouble? (s : List Char) : Option (List Char) := do
  let (mantissa, e) := match s.span fun c => !(c = 'e' || c = 'E') with
    | (m, _ :: e) => (m, some e)
    | (m, []) => (m, none)
  let (whole, fraction) := match splitOnce '.' mantissa with
    | some (w, f) => (w, some f)
    | none => (mantissa, none)
  if e.isNone && fraction.isNone then none
  let whole ← decimalDigits? whole
  let fraction ← match fraction with
    | some f => (withoutUnderscores? Char.isDigit f).map fun ds => '.' :: ds
    | none => some []
  let e ← match e with
    | some e => (exponent? e).map fun e => 'e' :: e
    | none => some []
  return whole ++ fraction ++ e

/-- A double. -/
def double? (negative : Bool) (s : List Char) : Option Json :=
  if s = ['i', 'n', 'f'] || s = ['n', 'a', 'n'] then some .null
  else do
    let x ← Decimal.double? (← plainDouble? s)
    if x.isFinite then some (Json.real (if negative then -x else x)) else none

/-- A number. -/
def number? (s : List Char) : Option Json :=
  let (sign, body) := signOf s
  match sign, body with
  | none, '0' :: 'x' :: ds => (natInBase? 16 ds).bind (integer? false)
  | none, '0' :: 'o' :: ds => (natInBase? 8 ds).bind (integer? false)
  | none, '0' :: 'b' :: ds => (natInBase? 2 ds).bind (integer? false)
  | sign, body =>
    match decimalDigits? body with
    | some ds => integer? (sign = some true) (Decimal.natOf ds)
    | none => double? (sign = some true) body

/-! ## Times -/

open Date (readExact?)

/-- A date, in the standard form. -/
def readDate? : Reader (List Char) := fun s => do
  let (year, s) ← readExact? 4 s
  let s ← afterStart? ['-'] s
  let (month, s) ← readExact? 2 s
  let s ← afterStart? ['-'] s
  let (day, s) ← readExact? 2 s
  let _ ← Date.make? year month day
  let two := Decimal.padded 2
  return (Decimal.padded 4 year ++ '-' :: two month ++ '-' :: two day, s)

/-- The fraction of a second, in the standard form: at most nine digits without zeros at their end,
    but at least one. -/
def readFraction? : Reader (List Char)
  | '.' :: s => do
    let (ds, s) := s.span Char.isDigit
    if ds.isEmpty then none
    let kept := trimEndOf (· = '0') (ds.take 9)
    return ('.' :: (if kept.isEmpty then ['0'] else kept), s)
  | s => some ([], s)

/-- A time of day, in the standard form; the seconds may be missing. -/
def readTime? : Reader (List Char) := fun s => do
  let (hour, s) ← readExact? 2 s
  let s ← afterStart? [':'] s
  let (minute, s) ← readExact? 2 s
  if 23 < hour || 59 < minute then none
  let two := Decimal.padded 2
  let start := two hour ++ ':' :: two minute
  match s with
  | ':' :: s => do
    let (second, s) ← readExact? 2 s
    if 60 < second then none
    let (fraction, s) ← readFraction? s
    return (start ++ ':' :: two second ++ fraction, s)
  | s => some (start, s)

/-- The offset from universal time, in the standard form, if there is one; zero has a plus sign. -/
def readOffset? : Reader (List Char)
  | 'Z' :: s | 'z' :: s => some (['Z'], s)
  | sign :: s =>
    if sign = '+' || sign = '-' then do
      let (hours, s) ← readExact? 2 s
      let s ← afterStart? [':'] s
      let (minutes, s) ← readExact? 2 s
      if 23 < hours || 59 < minutes then none
      let two := Decimal.padded 2
      let sign := if hours = 0 && minutes = 0 then '+' else sign
      return (sign :: two hours ++ ':' :: two minutes, s)
    else some ([], sign :: s)
  | [] => some ([], [])

/-- A date, a time, or both with an offset, as a whole text. -/
def time? (s : List Char) : Option (List Char) :=
  match readDate? s with
  | some (date, []) => some date
  | some (date, c :: s) =>
    if c = 'T' || c = 't' || c = ' ' then do
      let (time, s) ← readTime? s
      let (offset, s) ← readOffset? s
      if s.isEmpty then some (date ++ 'T' :: time ++ offset) else none
    else none
  | none => do
    let (time, s) ← readTime? s
    if s.isEmpty then some time else none

/-- The name under which a time stands in its object. -/
def timeKey : String := "$__toml_private_datetime"

/-! ## Words -/

/-- A character of a word. -/
def isWordChar (c : Char) : Bool :=
  c.isAlphanum || c = '_' || c = '-' || c = '+' || c = '.' || c = ':'

/-- A word and what follows it.  A date takes a time after one space with it. -/
def splitWord (s : List Char) : List Char × List Char :=
  let (word, rest) := s.span isWordChar
  match rest with
  | ' ' :: d :: more =>
    if d.isDigit && (readDate? word).map (·.2) = some [] then
      let (time, rest) := (d :: more).span isWordChar
      (word ++ ' ' :: time, rest)
    else (word, rest)
  | _ => (word, rest)

/-- The value of a word. -/
def scalar? (word : List Char) : Option Json :=
  if word = ['t', 'r', 'u', 'e'] then some (.bool true)
  else if word = ['f', 'a', 'l', 's', 'e'] then some (.bool false)
  else (number? word).orElse fun _ =>
    (time? word).map fun t => .object [(timeKey, .string (String.ofList t))]

/-- A number, a truth value or a time. -/
def readScalar? : Reader Json := fun s =>
  let (word, rest) := splitWord s
  (scalar? word).map fun v => (v, rest)

end Letterpress.Toml

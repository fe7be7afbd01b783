/-
  Numbers in text.

  * `digitRun` reads a run of ASCII digits, `natOf` is their value.
  * `index?` reads an index or a count: ASCII digits with an optional plus sign, below a bound.
  * `double? s` reads a decimal number with an optional sign, fraction and exponent, or one of the
    words for infinity and not-a-number, and gives the nearest double.
-/

namespace Letterpress.Decimal

/-! ## Bounds -/

/-- `2 ^ 63`: no integer lies below its negative. -/
def signedBound : Nat := 0x8000000000000000

/-- `2 ^ 64`: all counts and integers lie below it. -/
def wordBound : Nat := 0x10000000000000000

/-! ## Digits -/

/-- The value of an ASCII digit. -/
def digitValue (c : Char) : Nat := c.toNat - '0'.toNat

/-- The number written by the digits. -/
def natOf (ds : List Char) : Nat := ds.foldl (fun n c => 10 * n + digitValue c) 0

/-- The leading ASCII digits and the rest. -/
def digitRun (s : List Char) : List Char × List Char := s.span Char.isDigit

/-- A natural number below `bound`, with an optional plus sign in front of its digits. -/
def index? (bound : Nat) (s : List Char) : Option Nat :=
  let ds := match s with
    | '+' :: rest => rest
    | _ => s
  if ds.isEmpty || !ds.all Char.isDigit then none
  else
    let n := natOf ds
    if n < bound then some n else none

/-- The exponent after the digits of a number: nothing, or `e` with a signed integer. -/
def exponent? : List Char → Option Int
  | [] => some 0
  | e :: rest =>
    if e = 'e' || e = 'E' then
      let (negative, ds) := match rest with
        | '-' :: ds => (true, ds)
        | '+' :: ds => (false, ds)
        | ds => (false, ds)
      if ds.isEmpty || !ds.all Char.isDigit then none
      else some (if negative then -(natOf ds : Int) else natOf ds)
    else none

/-- The double nearest to `m * 10 ^ e`.  Exponents so large that the result is zero or infinite
    whatever the digits are cut off first. -/
def nearest (m : Nat) (e : Int) : Float :=
  if m = 0 then 0.0
  else
    let size := ((Nat.toDigits 10 m).length : Int) + e
    if size < -400 then 0.0
    else if 400 < size then 1.0 / 0.0
    else Float.ofScientific m (decide (e < 0)) e.natAbs

/-- An unsigned decimal number: digits with a point anywhere among them, then an exponent. -/
def magnitude? (s : List Char) : Option Float :=
  let (whole, rest) := digitRun s
  let (fraction, rest) := match rest with
    | '.' :: rest => digitRun rest
    | rest => ([], rest)
  if whole.isEmpty && fraction.isEmpty then none
  else
    (exponent? rest).map fun e => nearest (natOf (whole ++ fraction)) (e - fraction.length)

/-- The words for the values that are no numbers, in any ASCII case. -/
def word? (s : List Char) : Option Float :=
  let w := String.ofList (s.map Char.toLower)
  if w = "inf" || w = "infinity" then some (1.0 / 0.0)
  else if w = "nan" then some (0.0 / 0.0)
  else none

/-- A number with an optional sign. -/
def double? (s : List Char) : Option Float :=
  let (negative, body) := match s with
    | '-' :: rest => (true, rest)
    | '+' :: rest => (false, rest)
    | _ => (false, s)
  ((word? body).orElse fun _ => magnitude? body).map fun x => if negative then -x else x

end Letterpress.Decimal

/-
  The text of a number.

  * `Layout` holds the decisions of one format: which magnitudes are written positionally, whether
    integral values keep a `.0`, and how a tie between two shortest decimals is broken.
  * `Layout.render` writes a double in such a format.
  * `fixed places x` writes a double with a fixed number of decimals: the exact binary value
    rounded to nearest, a half to the even digit.
-/
import Letterpress.Decimal.Shortest

namespace Letterpress.Decimal

/-! ## Digits -/

/-- The decimal digits of a natural number. -/
def digitsOf (n : Nat) : List Char := Nat.toDigits 10 n

/-- The digits with zeros in front up to the given width. -/
def padded (width n : Nat) : List Char :=
  let ds := digitsOf n
  List.replicate (width - ds.length) '0' ++ ds

/-- The digits of `n` with a point before the last `places` of them. -/
def withPoint (places n : Nat) : List Char :=
  if places = 0 then digitsOf n
  else
    let ds := padded (places + 1) n
    ds.take (ds.length - places) ++ '.' :: ds.drop (ds.length - places)

/-! ## The shortest form -/

/-- The decisions of a number format. -/
structure Layout where
  /-- The exponents of the leading digit, from and below, that are written positionally;
      `none` writes all numbers so. -/
  positional : Option (Int × Int)
  /-- Integral values end in `.0`. -/
  pointZero : Bool
  tie : Tie

/-- The number without an exponent. -/
def Digits.positionally (pointZero : Bool) (d : Digits) : List Char :=
  if 0 ≤ d.exponent then
    digitsOf d.digits ++ List.replicate d.exponent.toNat '0' ++
      (if pointZero then ['.', '0'] else [])
  else withPoint (-d.exponent).toNat d.digits

/-- The number with one digit before the point and a signed exponent. -/
def Digits.scientifically (d : Digits) : List Char :=
  let ds := digitsOf d.digits
  let e := d.exponent + (ds.length - 1 : Nat)
  ds.take 1 ++ (if ds.length = 1 then [] else '.' :: ds.drop 1) ++
    'e' :: (if e < 0 then '-' else '+') :: digitsOf e.natAbs

/-- A decimal in the given format. -/
def Layout.digits (l : Layout) (d : Digits) : List Char :=
  let lead := d.exponent + ((digitsOf d.digits).length - 1 : Nat)
  match l.positional with
  | none => d.positionally l.pointZero
  | some (least, above) =>
    if d.digits = 0 || (decide (least ≤ lead) && decide (lead < above)) then
      d.positionally l.pointZero
    else d.scientifically

/-- A double in the given format. -/
def Layout.render (l : Layout) (x : Float) : String :=
  if x.isNaN then "NaN"
  else
    let sign := if isNegative x then ['-'] else []
    if x.isInf then String.ofList (sign ++ ['i', 'n', 'f'])
    else String.ofList (sign ++ l.digits (shortest l.tie (.ofFloat x)))

/-- Numbers in running text and in lengths: never an exponent, integral values without a point. -/
def Layout.plain : Layout := ⟨none, false, .up⟩

/-- Numbers in JSON text: an exponent outside of `10^-5 ≤ x < 10^16`, integral values with a
    `.0`, so that they stay apart from integers. -/
def Layout.json : Layout := ⟨some (-5, 16), true, .toEven⟩

/-! ## Fixed places -/

/-- The value times `10 ^ places`, rounded. -/
def Dyadic.scaled (places : Nat) (x : Dyadic) : Nat :=
  roundDiv (x.numerator * Nat.pow 10 places) x.denominator

/-- A double with the given number of decimals. -/
def fixed (places : Nat) (x : Float) : List Char :=
  if x.isNaN then ['N', 'a', 'N']
  else
    let sign := if isNegative x then ['-'] else []
    if x.isInf then sign ++ ['i', 'n', 'f']
    else sign ++ withPoint places ((Dyadic.ofFloat x).scaled places)

end Letterpress.Decimal

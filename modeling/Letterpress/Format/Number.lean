/-
  Numbers and amounts of money.

  * `groupThousands` puts a `,` before every third digit from the right.
  * `formatNumber number places` rounds half away from zero and groups the thousands; there are at
    most `maxPlaces` decimals, and no sign on a number that rounds to zero.
  * `formatMoney amount code` has two decimals after the symbol of the currency, or after its code
    if it has no symbol.
-/
import Letterpress.Decimal.Layout
import Letterpress.Text.Scan

namespace Letterpress.Format

/-! ## Numbers -/

/-- The most decimals of a formatted number. -/
def maxPlaces : Nat := 20

/-- The characters of an integer with a `,` before every third one from the right. -/
def groupThousands : List Char → List Char
  | [] => []
  | c :: s =>
    if s.length % 3 = 0 && !s.isEmpty then c :: ',' :: groupThousands s
    else c :: groupThousands s

/-- The absolute value as a whole number, rounded half away from zero. -/
def wholeAbs (x : Float) : Float :=
  if x.isFinite then
    let exact := Decimal.Dyadic.ofFloat x
    Float.ofNat (Decimal.roundHalfUp exact.numerator exact.denominator)
  else x.abs

/-- The absolute value of a number, rounded half away from zero. -/
def roundedAbs (number : Float) (places : Nat) : Float :=
  let factor := Float.ofNat (Nat.pow 10 places)
  wholeAbs (number.abs * factor) / factor

/-- A number with thousands grouped. -/
def formatNumber (number : Float) (places : Nat) : String :=
  let places := min places maxPlaces
  let rounded := roundedAbs number places
  let fixed := Decimal.fixed places rounded
  let sign := if number < 0.0 && rounded > 0.0 then ['-'] else []
  match Text.splitOnce '.' fixed with
  | some (whole, fraction) => String.ofList (sign ++ groupThousands whole ++ '.' :: fraction)
  | none => String.ofList (sign ++ groupThousands fixed)

/-! ## Money -/

/-- The symbol of a currency. -/
def currencySymbol? (code : String) : Option String :=
  [("USD", "$"), ("EUR", "€"), ("GBP", "£"), ("JPY", "¥"), ("CAD", "CA$"), ("AUD", "A$"),
   ("CHF", "CHF")].lookup code

/-- An amount of money. -/
def formatMoney (amount : Float) (code : String) : String :=
  let amount := formatNumber amount 2
  match currencySymbol? code with
  | some symbol => symbol ++ amount
  | none => code ++ " " ++ amount

end Letterpress.Format

/-
  The fewest digits that identify a double.

  * `Digits` is `digits * 10 ^ exponent`.
  * `Dyadic.identifiedBy x d` says that the decimal `d` lies among the reals that round to `x`.
  * `shortest tie x` is the decimal with the fewest digits that identifies `x`; of two it is the
    closer one, and an exact tie goes as `tie` says.

  The search tries 1, 2, … 17 digits.  On each grid only the two neighbours of the value can be
  closest, so only these are tested.
-/
import Letterpress.Decimal.Dyadic

namespace Letterpress.Decimal

/-- A decimal number, `digits * 10 ^ exponent`. -/
structure Digits where
  digits : Nat
  exponent : Int
deriving DecidableEq, Repr

/-- Which of two equally close decimals is taken. -/
inductive Tie where
  | toEven
  | up
deriving DecidableEq, Repr

/-- The decimal lies among the reals that round to the binary value; the ends of that interval
    belong to it exactly when the mantissa is even. -/
def Dyadic.identifiedBy (x : Dyadic) (d : Digits) : Bool :=
  let low := if x.closerBelow then 4 * x.mantissa - 1 else 4 * x.mantissa - 2
  let high := 4 * x.mantissa + 2
  let closed := x.mantissa % 2 == 0
  let fromLow := scaledCompare d.digits d.exponent low (x.exponent - 2)
  let fromHigh := scaledCompare d.digits d.exponent high (x.exponent - 2)
  (fromLow == .gt || (closed && fromLow == .eq)) && (fromHigh == .lt || (closed && fromHigh == .eq))

/-- The value is below `10 ^ k`. -/
def Dyadic.below (x : Dyadic) (k : Int) : Bool := scaledCompare 1 k x.mantissa x.exponent == .gt

/-- The least `k` with the value below `10 ^ k`, from a first guess that may be short by three. -/
def Dyadic.magnitude (x : Dyadic) : Int :=
  let guess := ((x.mantissa.log2 : Int) + x.exponent) * 30103 / 100000 - 1
  let candidates := (List.range 5).map fun (i : Nat) => guess + i
  (candidates.find? x.below).getD (guess + 5)

/-- The quotient of the value by `10 ^ e`, rounded down. -/
def Dyadic.floorOn (x : Dyadic) (e : Int) : Nat :=
  (x.numerator * Nat.pow 10 (-e).toNat) / (x.denominator * Nat.pow 10 e.toNat)

/-- The neighbour of the value on the grid `10 ^ e` that identifies it, the closer one of two. -/
def Dyadic.onGrid (tie : Tie) (x : Dyadic) (e : Int) : Option Digits :=
  let lower : Digits := ⟨x.floorOn e, e⟩
  let upper : Digits := ⟨lower.digits + 1, e⟩
  match x.identifiedBy lower, x.identifiedBy upper with
  | false, false => none
  | true, false => some lower
  | false, true => some upper
  | true, true =>
    match scaledCompare (lower.digits + upper.digits) e (2 * x.mantissa) x.exponent with
    | .gt => some lower
    | .lt => some upper
    | .eq =>
      match tie with
      | .up => some upper
      | .toEven => some (if lower.digits % 2 = 0 then lower else upper)

/-- The decimal without trailing zeros in its digits; `fuel` bounds their number. -/
def Digits.strip : Nat → Digits → Digits
  | 0, d => d
  | fuel + 1, d =>
    if d.digits ≠ 0 ∧ d.digits % 10 = 0 then strip fuel ⟨d.digits / 10, d.exponent + 1⟩ else d

/-- The binary value as a decimal, digit for digit. -/
def Dyadic.exactDigits (x : Dyadic) : Digits :=
  ⟨x.numerator * Nat.pow 5 (-x.exponent).toNat, -((-x.exponent).toNat : Int)⟩

/-- The decimal with the fewest digits that identifies the value. -/
def shortest (tie : Tie) (x : Dyadic) : Digits :=
  if x.mantissa = 0 then ⟨0, 0⟩
  else
    let k := x.magnitude
    let found := (List.range 17).findSome? fun (i : Nat) => x.onGrid tie (k - 1 - i)
    Digits.strip 400 (found.getD x.exactDigits)

end Letterpress.Decimal

/-
  Binary numbers as exact values.

  * `Dyadic` is `mantissa * 2 ^ exponent`, the absolute value of a finite double.
  * `Dyadic.ofFloat` decodes the bits of a double, `isNegative` reads its sign.
  * `scaledCompare a i n j` compares `a * 10 ^ i` with `n * 2 ^ j` exactly.
  * `roundDiv` rounds a quotient to the nearest natural number, ties to the even one;
    `roundHalfUp` does so with ties to the greater one.
-/

namespace Letterpress.Decimal

/-- The absolute value of a finite double, `mantissa * 2 ^ exponent`. -/
structure Dyadic where
  mantissa : Nat
  exponent : Int
  /-- The double below is half as far away as the double above. -/
  closerBelow : Bool
deriving DecidableEq, Repr

/-- The value of the bits of a finite double; the sign is ignored. -/
def Dyadic.ofBits (bits : UInt64) : Dyadic :=
  let biased := ((bits >>> 52) &&& 0x7FF).toNat
  let fraction := (bits &&& 0xFFFFFFFFFFFFF).toNat
  if biased = 0 then ⟨fraction, -1074, false⟩
  else ⟨0x10000000000000 + fraction, (biased : Int) - 1075, fraction == 0 && decide (1 < biased)⟩

/-- The absolute value of a finite double. -/
def Dyadic.ofFloat (x : Float) : Dyadic := .ofBits x.toBits

/-- The sign bit is set. -/
def isNegative (x : Float) : Bool := x.toBits >>> 63 == 1

/-- The numerator of the value as a fraction of natural numbers. -/
def Dyadic.numerator (x : Dyadic) : Nat := x.mantissa * Nat.pow 2 x.exponent.toNat

/-- Its denominator, a power of two. -/
def Dyadic.denominator (x : Dyadic) : Nat := Nat.pow 2 (-x.exponent).toNat

/-- Compare `a * 10 ^ i` with `n * 2 ^ j`. -/
def scaledCompare (a : Nat) (i : Int) (n : Nat) (j : Int) : Ordering :=
  compare (a * Nat.pow 10 i.toNat * Nat.pow 2 (-j).toNat)
    (n * Nat.pow 2 j.toNat * Nat.pow 10 (-i).toNat)

/-- `num / den` rounded to the nearest natural number; a half goes to the even neighbour. -/
def roundDiv (num den : Nat) : Nat :=
  let q := num / den
  match compare (2 * (num % den)) den with
  | .lt => q
  | .gt => q + 1
  | .eq => if q % 2 = 0 then q else q + 1

/-- `num / den` rounded to the nearest natural number; a half goes up. -/
def roundHalfUp (num den : Nat) : Nat := (2 * num + den) / (2 * den)

end Letterpress.Decimal

/-
  The bounds of integers.

  * `Json.isBounded` says that every integer in a value lies between `-2^63` and `2^64`.  Values
    that come from JSON text are bounded, but a TOML document may hold larger integers.
-/
import Letterpress.Decimal.Reading
import Letterpress.Json.Value

namespace Letterpress.Json

/-- An integer from `-2^63` to below `2^64`, or a double. -/
def Number.isBounded : Number → Bool
  | .integer n => -(Decimal.signedBound : Int) ≤ n && n < (Decimal.wordBound : Int)
  | .real _ => true

mutual

/-- Every integer in the value is bounded. -/
def isBounded : Json → Bool
  | .null | .bool _ | .string _ => true
  | .number n => n.isBounded
  | .array items => itemsBounded items
  | .object ms => membersBounded ms

/-- Every integer in the items is bounded. -/
def itemsBounded : List Json → Bool
  | [] => true
  | v :: vs => v.isBounded && itemsBounded vs

/-- Every integer in the members is bounded. -/
def membersBounded : List (String × Json) → Bool
  | [] => true
  | (_, v) :: ms => v.isBounded && membersBounded ms

end

end Letterpress.Json

/-
  JSON values.

  * `Json.Number` is an integer or a double; the two are never equal, as `1` and `1.0` are written
    differently.
  * `Json` is a value.  The members of an object are a `Dict`.
-/
import Letterpress.Dict

namespace Letterpress

/-! ## Values -/

/-- A JSON number: an integer between `-2^63` and `2^64`, or a finite double. -/
inductive Json.Number where
  | integer (n : Int)
  | real (x : Float)
deriving DecidableEq, Repr, Inhabited

/-- A JSON value. -/
inductive Json where
  | null
  | bool (b : Bool)
  | number (n : Json.Number)
  | string (s : String)
  | array (items : List Json)
  | object (members : List (String × Json))
deriving Repr, Inhabited

/-- The members of an object. -/
abbrev Members := Dict Json

namespace Json

/-- An integer as a value. -/
def int (n : Int) : Json := .number (.integer n)

/-- The value is an object. -/
def isObject : Json → Bool
  | .object _ => true
  | _ => false

/-- The value is an array. -/
def isArray : Json → Bool
  | .array _ => true
  | _ => false

/-- The text of a string value. -/
def text? : Json → Option String
  | .string s => some s
  | _ => none

/-- The truth value of a boolean. -/
def bool? : Json → Option Bool
  | .bool b => some b
  | _ => none

/-- The items of an array. -/
def items? : Json → Option (List Json)
  | .array items => some items
  | _ => none

/-- The members of an object. -/
def members? : Json → Option Members
  | .object ms => some ms
  | _ => none

/-- The number as a double. -/
def Number.toFloat : Number → Float
  | .integer n => Float.ofInt n
  | .real x => x

end Json

end Letterpress

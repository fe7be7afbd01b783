/-
  Records as JSON.

  * `Json.record? fields v` gives the values of the fields of a record, in order; a missing field
    has none.  A record is an object, where unknown members are ignored and a repeated field is
    refused, or an array of the fields by position, which may end early.
  * `absent`, `optional` and `required` say what a missing field means.
  * `double?`, `natBelow?`, `listOf?` and `variant?` read the values of fields.
  * `Json.record` builds an object of fields, without those that are absent.
-/
import Letterpress.Json.Value

namespace Letterpress.Json

/-! ## Reading -/

/-- The number of members with a name. -/
def occurrences (name : String) (ms : Members) : Nat := (ms.filter fun m => m.1 = name).length

/-- The values of the fields of a record. -/
def record? (fields : List String) : Json → Option (List (Option Json))
  | .object ms =>
    if fields.all fun f => occurrences f ms ≤ 1 then some (fields.map fun f => Dict.get? ms f)
    else none
  | .array items =>
    if fields.length < items.length then none
    else some (items.map some ++ List.replicate (fields.length - items.length) none)
  | _ => none

variable {α : Type}

/-- A field that has a value when it is missing. -/
def absent (whenMissing : α) (read : Json → Option α) : Option Json → Option α
  | none => some whenMissing
  | some v => read v

/-- A field that may be missing or `null`. -/
def optional (read : Json → Option α) : Option Json → Option (Option α)
  | none | some .null => some none
  | some v => (read v).map some

/-- A field that must be there. -/
def required (read : Json → Option α) : Option Json → Option α
  | none => none
  | some v => read v

/-- Any value. -/
def any? (v : Json) : Option Json := some v

/-- A number as a double. -/
def double? : Json → Option Float
  | .number n => some n.toFloat
  | _ => none

/-- An integer from zero to below a bound. -/
def natBelow? (bound : Nat) : Json → Option Nat
  | .number (.integer n) => if 0 ≤ n ∧ n < bound then some n.toNat else none
  | _ => none

/-- All items of an array. -/
def listOf? (read : Json → Option α) : Json → Option (List α)
  | .array items => items.mapM read
  | _ => none

/-- The name of a variant: a text, or an object with that name alone and `null`. -/
def variant? : Json → Option String
  | .string s => some s
  | .object [(name, .null)] => some name
  | _ => none

/-! ## Writing -/

/-- A double as a value; there is none for infinities and for not-a-number. -/
def real (x : Float) : Json := if x.isFinite then .number (.real x) else .null

/-- An object of the fields that are present. -/
def record (fields : List (String × Option Json)) : Json :=
  .object (Dict.ofPairs (fields.filterMap fun (k, v) => v.map fun v => (k, v)))

end Letterpress.Json

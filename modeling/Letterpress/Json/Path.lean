/-
  Dot paths into JSON values.

  * `Json.member? segment v` is one step: a key of an object or an index of an array.
  * `Json.follow` takes several steps, and `resolve path data` starts from the members of the
    data and reads the steps off a path such as `order.items.0.name`.
-/
import Letterpress.Decimal.Reading
import Letterpress.Json.Value
import Letterpress.Text.Scan

namespace Letterpress.Json

/-- One step into a value: the segment is a key of an object or an index of an array. -/
def member? (segment : String) : Json → Option Json
  | .object ms => Dict.get? ms segment
  | .array items => (Decimal.index? Decimal.wordBound segment.toList).bind fun i => items[i]?
  | _ => none

/-- Several steps, one after the other. -/
def follow : List String → Json → Option Json
  | [], v => some v
  | segment :: rest, v => (v.member? segment).bind (follow rest)

/-- The segments of a path. -/
def segments (path : String) : List String :=
  (Text.splitOn '.' path.toList).map String.ofList

/-- The value at a path. -/
def resolve (path : String) (data : Members) : Option Json := follow (segments path) (.object data)

end Letterpress.Json

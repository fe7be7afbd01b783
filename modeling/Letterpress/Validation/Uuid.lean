/-
  The forms of a universally unique identifier.

  `isUuid` accepts 32 hexadecimal digits, either alone or in five groups joined by hyphens, and the
  second form also in braces or after `urn:uuid:`.
-/
import Letterpress.Json.Token
import Letterpress.Text.Scan

namespace Letterpress.Validation

/-- A hexadecimal digit. -/
def isHexDigit (c : Char) : Bool := (Json.hexValue? c).isSome

/-- Five groups of hexadecimal digits joined by hyphens. -/
def isGrouped (s : List Char) : Bool :=
  let groups := Text.splitOn '-' s
  groups.map List.length == [8, 4, 4, 4, 12] && groups.all fun g => g.all isHexDigit

/-- One of the forms of an identifier. -/
def isUuid (s : String) : Bool :=
  let cs := s.toList
  let braced := match cs with
    | '{' :: rest => rest.getLast? = some '}' && isGrouped rest.dropLast
    | _ => false
  let named := match Text.afterStart? "urn:uuid:".toList cs with
    | some rest => isGrouped rest
    | none => false
  (cs.length == 32 && cs.all isHexDigit) || isGrouped cs || braced || named

end Letterpress.Validation

/-
  What templates make of a value.

  * `displayText` is the text that replaces a tag: strings as they are, other values as JSON text,
    `null` as nothing.
  * `isBlank` holds of a missing value, `null` and the empty string.
  * `isTruthy` is the condition of a conditional region: a missing value, `null`, `false`, zero,
    the strings ``, `0` and `false` (in any case), and empty containers do not hold.
  * `number?` reads a number, also from a string.
-/
import Letterpress.Decimal.Reading
import Letterpress.Json.Printer
import Letterpress.Text.Blank

namespace Letterpress.Json

/-- The text of a value in running text. -/
def displayText : Json → String
  | .null => ""
  | .string s => s
  | v => v.render

/-- The value is missing, `null` or the empty string. -/
def isBlank : Option Json → Bool
  | none | some .null => true
  | some (.string s) => s.isEmpty
  | some _ => false

/-- The number is at most two doubles away from zero, where negative zero is one of them. -/
def Number.isZero (n : Number) : Bool :=
  decide (-Float.ofBits 1 ≤ n.toFloat) && decide (n.toFloat ≤ Float.ofBits 2)

/-- The text is `false` in any ASCII case. -/
def spellsFalse (s : String) : Bool := s.toList.map Char.toLower == ['f', 'a', 'l', 's', 'e']

/-- The value counts as true. -/
def isTruthy : Option Json → Bool
  | none | some .null => false
  | some (.bool b) => b
  | some (.number n) => !n.isZero
  | some (.string s) => !(s.isEmpty || s == "0" || spellsFalse s)
  | some (.array items) => !items.isEmpty
  | some (.object ms) => !ms.isEmpty

/-- The number of a value: a number, or a string that reads as a finite one. -/
def number? : Json → Option Float
  | .number n => some n.toFloat
  | .string s => (Decimal.double? (Text.trim s.toList)).filter Float.isFinite
  | _ => none

end Letterpress.Json

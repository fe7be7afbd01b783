/-
  JSON text.

  * `Json.render` writes a value without any white space, the members of an object in their order.
  * `Number.render` writes an integer by its digits and a double in the format `Layout.json`.
  * `quoted` writes a string; only the quote, the backslash and the control characters below
    U+0020 are escaped.
-/
import Letterpress.Decimal.Layout
import Letterpress.Json.Value

namespace Letterpress.Json

/-! ## Numbers and strings -/

/-- The digits of an integer, with a sign if it is negative. -/
def integerText (n : Int) : String :=
  String.ofList ((if n < 0 then ['-'] else []) ++ Decimal.digitsOf n.natAbs)

/-- The text of a number. -/
def Number.render : Number → String
  | .integer n => integerText n
  | .real x => Decimal.Layout.json.render x

/-- A hexadecimal digit, in lower case. -/
def hexDigit (n : Nat) : Char := if n < 10 then Char.ofNat (48 + n) else Char.ofNat (87 + n)

/-- A character inside a quoted string. -/
def escaped (c : Char) : List Char :=
  if c = '"' then ['\\', '"']
  else if c = '\\' then ['\\', '\\']
  else if c = '\n' then ['\\', 'n']
  else if c = '\r' then ['\\', 'r']
  else if c = '\t' then ['\\', 't']
  else if c.toNat = 0x8 then ['\\', 'b']
  else if c.toNat = 0xC then ['\\', 'f']
  else if c.toNat < 0x20 then
    ['\\', 'u', '0', '0', hexDigit (c.toNat / 16), hexDigit (c.toNat % 16)]
  else [c]

/-- A quoted string. -/
def quoted (s : String) : String := String.ofList ('"' :: s.toList.flatMap escaped ++ ['"'])

/-! ## Values -/

mutual

/-- The text of a value. -/
def render : Json → String
  | .null => "null"
  | .bool b => if b then "true" else "false"
  | .number n => n.render
  | .string s => quoted s
  | .array items => "[" ++ renderItems items ++ "]"
  | .object members => "\x7b" ++ renderMembers members ++ "\x7d"

/-- The texts of the items, separated by commas. -/
def renderItems : List Json → String
  | [] => ""
  | [v] => v.render
  | v :: rest => v.render ++ "," ++ renderItems rest

/-- The texts of the members, separated by commas. -/
def renderMembers : List (String × Json) → String
  | [] => ""
  | [(k, v)] => quoted k ++ ":" ++ v.render
  | (k, v) :: rest => quoted k ++ ":" ++ v.render ++ "," ++ renderMembers rest

end

end Letterpress.Json

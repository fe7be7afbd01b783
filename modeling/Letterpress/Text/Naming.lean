/-
  Names made from texts.

  * `humanize` turns the key of a tag into a label: `order.shipping_address` into
    `Order Shipping Address`.
  * `slugify` turns a title into a name for addresses: words in lower case joined by `-`.
  * `capitalizeFirst` puts the first character in upper case.
-/
import Letterpress.Text.Case
import Letterpress.Text.Letter
import Letterpress.Text.Scan

namespace Letterpress.Text

/-- The text with its first character in upper case. -/
def capitalizeFirst : List Char → List Char
  | [] => []
  | c :: s => upperOf c ++ s

/-- The words of a key, with their first characters in upper case. -/
def humanize (key : String) : String :=
  let spaced := key.toList.map fun c => if c = '.' || c = '_' || c = '-' then ' ' else c
  String.ofList (joinWith [' '] ((splitOn ' ' spaced).map capitalizeFirst))

/-- The characters of a slug; `started` once a word has begun, `gap` after other characters. -/
def slugFrom (started gap : Bool) : List Char → List Char
  | [] => []
  | c :: s =>
    if isAlphanumeric c then
      (if gap && started then ['-'] else []) ++ lowerOf c ++ slugFrom true false s
    else slugFrom started true s

/-- The words of a text in lower case, joined by `-`. -/
def slugify (text : String) : String := String.ofList (slugFrom false false text.toList)

end Letterpress.Text

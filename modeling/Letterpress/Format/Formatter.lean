/-
  Formatters: the named functions that a tag can apply to its value.

  * A `Formatter` makes a text of a value and the argument of its pipe.
  * `Formatters` are the known ones by name, `Formatters.builtin` those that are always there.
  * `Formatters.apply` applies one by name; without it, simple values are written as they are.

  An empty value gives an empty date, amount or number, whatever the argument.
-/
import Letterpress.Date.Reading
import Letterpress.Format.Number
import Letterpress.Json.Reading
import Letterpress.Text.Case
import Letterpress.Text.Letter

namespace Letterpress

/-! ## Formatters -/

/-- A function from a value and the argument of the pipe. -/
abbrev Formatter := Json → Option String → String

/-- The formatters by name. -/
abbrev Formatters := Dict Formatter

namespace Format

open Text

/-- The argument in place of an empty value. -/
def substituteDefault : Formatter := fun v argument =>
  if Json.isBlank v then argument.getD "" else v.displayText

/-- The moment that a value stands for: a number is a timestamp, a text is read. -/
def moment? (v : Json) : Option Moment :=
  match v.number? with
  | some t => Moment.ofTimestamp? t.toInt64.toInt
  | none => v.text?.bind fun s => Moment.read? s.toList

/-- A date by the pattern in the argument. -/
def date : Formatter := fun v argument =>
  if Json.isBlank v then ""
  else
    match moment? v with
    | some m => String.ofList (m.format (Pattern.parse (argument.getD "Y-m-d").toList))
    | none => v.displayText

/-- An amount in the currency of the argument. -/
def money : Formatter := fun v argument =>
  if Json.isBlank v then ""
  else formatMoney (v.number?.getD 0.0) ((argument.map trimText).getD "USD")

/-- The text in upper case. -/
def upper : Formatter := fun v _ => String.ofList (uppercase v.displayText.toList)

/-- The text in lower case. -/
def lower : Formatter := fun v _ => String.ofList (lowercase v.displayText.toList)

/-- The words of a text with a capital first letter; an apostrophe does not end a word. -/
def capitalizeWords (atStart : Bool) : List Char → List Char
  | [] => []
  | c :: s =>
    if isAlphanumeric c then (if atStart then upperOf c else lowerOf c) ++ capitalizeWords false s
    else c :: capitalizeWords (c ≠ '\'') s

/-- The text with capital first letters. -/
def capitalize : Formatter := fun v _ => String.ofList (capitalizeWords true v.displayText.toList)

/-- The characters that are kept without an argument. -/
def defaultLength : Nat := 100

/-- The first characters of the text, as many as the argument says, and dots if any are left. -/
def truncate : Formatter := fun v argument =>
  let text := v.displayText
  let given := argument.bind fun a => Decimal.index? Decimal.wordBound (trim a.toList)
  let length := given.getD defaultLength
  if text.length ≤ length then text else String.ofList (text.toList.take length) ++ "..."

/-- The number of items of a container or of characters of a text. -/
def size : Json → Nat
  | .null => 0
  | .array items => items.length
  | .object ms => ms.length
  | .string s => s.length
  | .bool _ | .number _ => 1

/-- The size of the value. -/
def count : Formatter := fun v _ => toString (size v)

/-- A number with as many decimals as the argument says. -/
def number : Formatter := fun v argument =>
  if Json.isBlank v then ""
  else
    let places := (argument.bind fun a => Decimal.index? 256 (trim a.toList)).getD 0
    formatNumber (v.number?.getD 0.0) places

end Format

/-! ## Registries -/

namespace Formatters

/-- The formatters that are always there. -/
def builtin : Formatters := Dict.ofPairs
  [("default", Format.substituteDefault), ("date", Format.date), ("currency", Format.money),
   ("uppercase", Format.upper), ("lowercase", Format.lower), ("capitalize", Format.capitalize),
   ("truncate", Format.truncate), ("count", Format.count), ("number", Format.number)]

/-- The value by the named formatter.  Without it, containers give nothing. -/
def apply (fs : Formatters) (name : String) (v : Json) (argument : Option String) : String :=
  match fs.get? name with
  | some f => f v argument
  | none =>
    match v with
    | .array _ | .object _ => ""
    | v => v.displayText

end Formatters

end Letterpress

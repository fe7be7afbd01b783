/-
  Reading the props of a block.

  Props are loosely typed: numbers may be texts and texts numbers.  `Props.text?`, `Props.number?`,
  `Props.flag?` and `Props.padding` give the sense that a renderer needs, and nothing for values
  that have none.
-/
import Letterpress.Block.Style
import Letterpress.Json.Reading

namespace Letterpress.Props

/-- A prop as text, unless it is `null` or a container. -/
def text? (props : Members) (key : String) : Option String :=
  match props.get? key with
  | none | some .null | some (.array _) | some (.object _) => none
  | some v => some v.displayText

/-- A prop as text, with a default. -/
def textOr (props : Members) (key whenMissing : String) : String :=
  (text? props key).getD whenMissing

/-- A prop as text that is not empty. -/
def nonEmpty? (props : Members) (key : String) : Option String :=
  (text? props key).filter fun s => !s.isEmpty

/-- A prop as a number. -/
def number? (props : Members) (key : String) : Option Float :=
  (props.get? key).bind Json.number?

/-- A prop as a truth value. -/
def flag? (props : Members) (key : String) : Option Bool :=
  (props.get? key).map fun v => Json.isTruthy (some v)

/-- A prop as a padding: a text is taken as it is, and missing sides are zero. -/
def padding (props : Members) (key : String) : String :=
  match props.get? key with
  | some (.string s) => s
  | some (.object sides) =>
    let side (name : String) : Float := (number? sides name).getD 0.0
    Padding.text ⟨side "top", side "right", side "bottom", side "left"⟩
  | _ => Padding.zero.text

end Letterpress.Props

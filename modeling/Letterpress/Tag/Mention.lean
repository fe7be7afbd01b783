/-
  Tags that a piece of content mentions.

  * `mentionsIn` lists what follows `{{` in a text, up to the next `}` or `|`: it also finds tags
    that are not well formed, so that an author can be told of them.  Markers of conditional
    regions are left out.
  * `mentions` lists those of all texts inside a JSON value.
-/
import Letterpress.Json.Value
import Letterpress.Tag.Occurrence

namespace Letterpress.Tag

open Text

/-- What follows the opening braces, up to the next `}` or `|`. -/
def readMention? : Reader String := fun s => do
  let s ← afterStart? opening s
  let (body, s) := s.span fun c => c ≠ '}' && c ≠ '|'
  if body.isEmpty then none else some (String.ofList body, s)

/-- The mention is a tag and not a marker of a conditional region. -/
def isTagMention (m : String) : Bool :=
  match m.toList with
  | [] | '#' :: _ | '/' :: _ => false
  | _ => m ≠ "else"

/-- The tags that a text mentions. -/
def mentionsIn (s : String) : List String :=
  ((items (pieces readMention? s.toList)).map trimText).filter isTagMention

mutual

/-- The tags that the texts of a value mention, with repetitions. -/
def allMentions : Json → List String
  | .string s => mentionsIn s
  | .array vs => itemMentions vs
  | .object ms => memberMentions ms
  | _ => []

/-- The mentions of the items. -/
def itemMentions : List Json → List String
  | [] => []
  | v :: vs => allMentions v ++ itemMentions vs

/-- The mentions of the members. -/
def memberMentions : List (String × Json) → List String
  | [] => []
  | (_, v) :: ms => allMentions v ++ memberMentions ms

end

/-- The distinct tags that the texts of a value mention, in order of their first appearance. -/
def mentions (v : Json) : List String := distinct (allMentions v)

end Letterpress.Tag

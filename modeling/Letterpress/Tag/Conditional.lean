/-
  Conditional regions.

  * `Conditional` is a region `{{#if path}}…{{else}}…{{/if}}` or `{{#unless path}}…{{/unless}}`.
  * `Conditional.read?` reads one at the start of a text, `Conditional.text` writes it.
  * `conditionalsIn` finds the regions of a text with their offsets.
  * `Conditional.branch` is the part that the data selects, and `selectBranches` puts the selected
    part in place of every region of a text.

  Regions do not nest: a region ends at the first closing marker of its kind, and its alternative
  starts at the first `{{else}}`.  An opening without a closing marker is plain text.  The selected
  parts are not read again.
-/
import Letterpress.Json.Path
import Letterpress.Json.Reading
import Letterpress.Tag.Occurrence

namespace Letterpress.Tag

open Text

/-! ## Regions -/

/-- When a region shows its first part. -/
inductive Polarity where
  /-- When the condition holds. -/
  | whenTrue
  /-- When the condition does not hold. -/
  | whenFalse
deriving DecidableEq, Repr

/-- The word of the markers. -/
def Polarity.word : Polarity → String
  | .whenTrue => "if"
  | .whenFalse => "unless"

/-- A conditional region. -/
structure Conditional where
  polarity : Polarity
  /-- The white space before the condition. -/
  gap : String
  /-- The path whose value decides. -/
  condition : String
  first : String
  /-- The part after `{{else}}`, if there is one. -/
  alternative : Option String
deriving DecidableEq, Repr

namespace Conditional

/-- The marker between the two parts. -/
def elseMarker : List Char := opening ++ ['e', 'l', 's', 'e'] ++ closing

/-- The start of the opening marker. -/
def openingOf (p : Polarity) : List Char := opening ++ '#' :: p.word.toList

/-- The closing marker. -/
def closingOf (p : Polarity) : List Char := opening ++ '/' :: p.word.toList ++ closing

/-- The region as it is written. -/
def text (c : Conditional) : List Char :=
  openingOf c.polarity ++ c.gap.toList ++ c.condition.toList ++ closing ++ c.first.toList ++
    (c.alternative.elim [] fun a => elseMarker ++ a.toList) ++ closingOf c.polarity

/-! ## Reading -/

/-- A region of one polarity at the start of the text. -/
def readAs? (p : Polarity) : Reader Conditional := fun s => do
  let s ← afterStart? (openingOf p) s
  let (gap, s) := s.span Text.isBlank
  if gap.isEmpty then none
  let (condition, s) ← readKey? s
  let s ← afterStart? closing s
  let (body, s) ← breakOn (closingOf p) s
  let (first, alternative) := match breakOn elseMarker body with
    | some (first, alternative) => (first, some (String.ofList alternative))
    | none => (body, none)
  return (⟨p, String.ofList gap, condition, String.ofList first, alternative⟩, s)

/-- A region at the start of the text. -/
def read? : Reader Conditional := fun s =>
  (readAs? .whenTrue s).orElse fun _ => readAs? .whenFalse s

/-- The regions of a text. -/
def conditionalsIn (s : String) : List (Located Conditional) :=
  located text 0 (pieces read? s.toList)

/-! ## Deciding -/

/-- The part of the region that the data selects; a missing alternative is empty. -/
def branch (data : Members) (c : Conditional) : String :=
  let holds := Json.isTruthy (Json.resolve c.condition data)
  if holds == (c.polarity == .whenTrue) then c.first else c.alternative.getD ""

/-- The text with the selected part in place of every region. -/
def selectBranches (data : Members) (s : List Char) : List Char :=
  substitute (fun c => (branch data c).toList) (pieces read? s)

end Conditional

end Letterpress.Tag

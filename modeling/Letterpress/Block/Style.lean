/-
  The look of rows and columns.

  * `Padding` is the spacing on four sides, in pixels.
  * `Preset` names a column layout, `Preset.widths` are the widths of its columns.
  * `ColumnStyle` and `RowStyle` are optional decisions; `RowStyle.initial` are those of a new row.

  Each type comes with its JSON form.
-/
import Letterpress.Decimal.Layout
import Letterpress.Json.Record

namespace Letterpress

open Json (optional absent)

/-! ## Padding -/

/-- Spacing on four sides, in pixels. -/
structure Padding where
  top : Float
  right : Float
  bottom : Float
  left : Float
deriving Repr

namespace Padding

/-- No spacing. -/
def zero : Padding := ⟨0.0, 0.0, 0.0, 0.0⟩

/-- The same spacing on all sides. -/
def uniform (x : Float) : Padding := ⟨x, x, x, x⟩

/-- The sides in order. -/
def sides (p : Padding) : List Float := [p.top, p.right, p.bottom, p.left]

/-- The least double above one, minus one. -/
def epsilon : Float := Float.ofBits 0x3CB0000000000000

/-- All sides are zero, up to rounding. -/
def isZero (p : Padding) : Bool := p.sides.all fun x => x.abs < epsilon

/-- A length in pixels. -/
def pixels (x : Float) : String := Decimal.Layout.plain.render x ++ "px"

/-- The sides in pixels. -/
def text (p : Padding) : String := String.intercalate " " (p.sides.map pixels)

/-- The padding of a record; missing sides are zero. -/
def ofJson? (v : Json) : Option Padding := do
  match ← v.record? ["top", "right", "bottom", "left"] with
  | [top, right, bottom, left] =>
    let side := absent (0.0 : Float) Json.double?
    return ⟨← side top, ← side right, ← side bottom, ← side left⟩
  | _ => none

/-- The padding as a record. -/
def toJson (p : Padding) : Json := Json.record
  [("top", some (Json.real p.top)), ("right", some (Json.real p.right)),
   ("bottom", some (Json.real p.bottom)), ("left", some (Json.real p.left))]

end Padding

/-! ## Column layouts -/

/-- The named column layouts of a row. -/
inductive Preset where
  | oneColumn
  | twoEqual
  | twoLeftHeavy
  | twoRightHeavy
  | threeEqual
  | custom
deriving DecidableEq, Repr

namespace Preset

/-- The presets in the order in which an editor shows them. -/
def all : List Preset :=
  [.oneColumn, .twoEqual, .twoLeftHeavy, .twoRightHeavy, .threeEqual, .custom]

/-- The name of a preset. -/
def name : Preset → String
  | .oneColumn => "1-column"
  | .twoEqual => "2-equal"
  | .twoLeftHeavy => "2-left-heavy"
  | .twoRightHeavy => "2-right-heavy"
  | .threeEqual => "3-equal"
  | .custom => "custom"

/-- The widths of the columns; a custom layout keeps those that it has. -/
def widths? : Preset → Option (List String)
  | .oneColumn => some ["100%"]
  | .twoEqual => some ["50%", "50%"]
  | .twoLeftHeavy => some ["66%", "34%"]
  | .twoRightHeavy => some ["34%", "66%"]
  | .threeEqual => some ["33.33%", "33.34%", "33.33%"]
  | .custom => none

/-- The widths of the columns of a new row; a custom layout starts with two equal columns. -/
def initialWidths (p : Preset) : List String := p.widths?.getD ["50%", "50%"]

/-- A preset by its name. -/
def ofJson? (v : Json) : Option Preset := v.variant?.bind fun s => all.find? fun p => p.name = s

end Preset

/-! ## Columns -/

/-- The look of a column. -/
structure ColumnStyle where
  backgroundColor : Option String
  backgroundImage : Option String
  backgroundSize : Option String
  backgroundPosition : Option String
  overlayColor : Option String
  /-- In percent. -/
  overlayOpacity : Option Float
  verticalAlign : Option String
  padding : Option Padding
  borderRadius : Option Float
deriving Repr

namespace ColumnStyle

/-- No decisions. -/
def plain : ColumnStyle := ⟨none, none, none, none, none, none, none, none, none⟩

/-- The style of a record. -/
def ofJson? (v : Json) : Option ColumnStyle := do
  match ← v.record? ["backgroundColor", "backgroundImage", "backgroundSize", "backgroundPosition",
      "overlayColor", "overlayOpacity", "verticalAlign", "padding", "borderRadius"] with
  | [color, image, size, position, overlay, opacity, align, padding, radius] =>
    let text := optional Json.text?
    return {
      backgroundColor := ← text color
      backgroundImage := ← text image
      backgroundSize := ← text size
      backgroundPosition := ← text position
      overlayColor := ← text overlay
      overlayOpacity := ← optional Json.double? opacity
      verticalAlign := ← text align
      padding := ← optional Padding.ofJson? padding
      borderRadius := ← optional Json.double? radius }
  | _ => none

/-- The style as a record. -/
def toJson (s : ColumnStyle) : Json := Json.record
  [("backgroundColor", s.backgroundColor.map .string),
   ("backgroundImage", s.backgroundImage.map .string),
   ("backgroundSize", s.backgroundSize.map .string),
   ("backgroundPosition", s.backgroundPosition.map .string),
   ("overlayColor", s.overlayColor.map .string),
   ("overlayOpacity", s.overlayOpacity.map Json.real),
   ("verticalAlign", s.verticalAlign.map .string),
   ("padding", s.padding.map Padding.toJson),
   ("borderRadius", s.borderRadius.map Json.real)]

end ColumnStyle

/-! ## Rows -/

/-- The look of a row. -/
structure RowStyle where
  backgroundColor : Option String
  backgroundImage : Option String
  backgroundSize : Option String
  backgroundPosition : Option String
  padding : Option Padding
  borderRadius : Option Float
  textAlign : Option String
deriving Repr

namespace RowStyle

/-- The style of a new row. -/
def initial : RowStyle where
  backgroundColor := none
  backgroundImage := none
  backgroundSize := some "cover"
  backgroundPosition := some "center center"
  padding := some (Padding.uniform 10.0)
  borderRadius := some 0.0
  textAlign := some "left"

/-- The style of a record; a missing field is no decision, and not that of a new row. -/
def ofJson? (v : Json) : Option RowStyle := do
  match ← v.record? ["backgroundColor", "backgroundImage", "backgroundSize", "backgroundPosition",
      "padding", "borderRadius", "textAlign"] with
  | [color, image, size, position, padding, radius, align] =>
    let text := optional Json.text?
    return {
      backgroundColor := ← text color
      backgroundImage := ← text image
      backgroundSize := ← text size
      backgroundPosition := ← text position
      padding := ← optional Padding.ofJson? padding
      borderRadius := ← optional Json.double? radius
      textAlign := ← text align }
  | _ => none

/-- The style as a record. -/
def toJson (s : RowStyle) : Json := Json.record
  [("backgroundColor", s.backgroundColor.map .string),
   ("backgroundImage", s.backgroundImage.map .string),
   ("backgroundSize", s.backgroundSize.map .string),
   ("backgroundPosition", s.backgroundPosition.map .string),
   ("padding", s.padding.map Padding.toJson),
   ("borderRadius", s.borderRadius.map Json.real),
   ("textAlign", s.textAlign.map .string)]

end RowStyle

end Letterpress

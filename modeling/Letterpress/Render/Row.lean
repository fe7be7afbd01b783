/-
  Markup of rows.

  * `row` writes a section with its columns; the blocks in the columns are written by a given
    function, and a block that is itself a row is left out.
  * `columnPadding?` adds the gap of the row to the inner sides of its columns.
  * A background image with a refused address is dropped with all that belongs to it.
-/
import Letterpress.Block.Block
import Letterpress.Markup.Attributes
import Letterpress.Markup.Color
import Letterpress.Markup.Link

namespace Letterpress.Render

open Markup
open Padding (pixels)

/-! ## Parts -/

/-- The address of a background image that is worth writing. -/
def backgroundImage? (address : Option String) : Option String :=
  (address.map Text.trimText).filter fun a => !a.isEmpty && isSafeUrl a

/-- The attributes of a background image. -/
def backgroundAttributes (address size position : Option String) : Attributes :=
  address.elim [] fun a =>
    [("background-url", a), ("background-size", size.getD "cover"),
     ("background-position", position.getD "center center")]

/-- The radius of the corners, if it is positive. -/
def radiusAttribute (radius : Option Float) : Attributes :=
  Attributes.given "border-radius" ((radius.filter fun r => r > 0.0).map pixels)

/-- The padding of a column with half of the gap on its inner sides, unless all sides are zero. -/
def columnPadding? (p : Padding) (gap : Float) (index total : Nat) : Option String :=
  let half := gap / 2.0
  let p :=
    if 1 < total && gap > 0.0 then
      if index = 0 then { p with right := p.right + half }
      else if index = total - 1 then { p with left := p.left + half }
      else { p with left := p.left + half, right := p.right + half }
    else p
  if p.isZero then none else some p.text

/-! ## Columns -/

/-- The background color of a column: the overlay lies over the color if there is an image. -/
def columnBackground (style : ColumnStyle) (image : Option String) : Option String :=
  match style.overlayColor.filter fun c => !c.isEmpty && image.isSome with
  | some overlay =>
    some (blendOver (style.backgroundColor.getD "#ffffff") overlay
      (style.overlayOpacity.getD 50.0 / 100.0))
  | none => style.backgroundColor

/-- The vertical alignment of a column. -/
def verticalAlign (given : Option String) : String :=
  match given with
  | some "middle" => "middle"
  | some "bottom" => "bottom"
  | _ => "top"

/-- The attributes of a column. -/
def columnAttributes (width : String) (style : ColumnStyle) (gap : Float) (index total : Nat) :
    Attributes :=
  let image := backgroundImage? style.backgroundImage
  ("width", width) ::
    Attributes.given "background-color" (columnBackground style image) ++
    [("vertical-align", verticalAlign style.verticalAlign)] ++
    backgroundAttributes image style.backgroundSize style.backgroundPosition ++
    Attributes.given "background-repeat" (image.map fun _ => "no-repeat") ++
    Attributes.given "padding" (columnPadding? (style.padding.getD .zero) gap index total) ++
    radiusAttribute style.borderRadius

/-- A column. -/
def column (child : Kind → Members → String) (gap : Float) (total index : Nat) (c : Column) :
    String :=
  let blocks := c.blocks.filter fun b => !b.kind.isRow
  element "mj-column" (columnAttributes c.width (c.style.getD .plain) gap index total)
    (String.join (blocks.map fun b => child b.kind b.props))

/-! ## Rows -/

/-- The attributes of a section. -/
def sectionAttributes (style : RowStyle) (stackOnMobile : Bool) : Attributes :=
  [("padding", (style.padding.getD .zero).text)] ++
    Attributes.given "background-color" style.backgroundColor ++
    Attributes.given "text-align" style.textAlign ++
    Attributes.given "css-class" (if stackOnMobile then none else some "no-stack") ++
    backgroundAttributes (backgroundImage? style.backgroundImage) style.backgroundSize
      style.backgroundPosition ++
    radiusAttribute style.borderRadius

/-- A row. -/
def rowLayout (child : Kind → Members → String) (l : RowLayout) : String :=
  element "mj-section" (sectionAttributes l.style l.stackOnMobile)
    (String.join (l.columns.mapIdx (column child l.gap l.columns.length)))

/-- A row by its props; nothing if they are not those of a row. -/
def row (child : Kind → Members → String) (props : Members) : String :=
  match RowLayout.ofMembers? props with
  | some l => rowLayout child l
  | none => ""

end Letterpress.Render

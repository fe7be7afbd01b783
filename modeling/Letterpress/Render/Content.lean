/-
  Markup of text, headings, buttons, dividers, spacers and raw markup.

  Each function takes the props of a block, already merged over the defaults of its kind, and
  writes one element.  Rich text is sanitized, plain text is escaped, link targets are checked;
  only raw markup is taken as it is.
-/
import Letterpress.Markup.Attributes
import Letterpress.Markup.Color
import Letterpress.Markup.Sanitizer
import Letterpress.Render.Props

namespace Letterpress.Render

open Markup
open Padding (pixels)

/-- The number without its fraction. -/
def truncated (x : Float) : Float := if x < 0.0 then x.ceil else x.floor

/-! ## Text -/

/-- The weight of a font in a text. -/
def textWeight (weight : String) : String :=
  match weight with
  | "medium" => "500"
  | "semibold" => "600"
  | "bold" => "700"
  | _ => "normal"

/-- The size of a font in a text without a size of its own. -/
def textSize (variant : Option String) : String :=
  if variant = some "caption" then "14px" else "16px"

/-- The attributes of a text. -/
def textAttributes (props : Members) : Attributes :=
  let size := ((Props.number? props "fontSize").map pixels).getD
    (textSize (Props.text? props "variant"))
  [("align", Props.textOr props "align" "left"),
   ("color", Props.textOr props "color" Theme.text),
   ("font-size", size),
   ("font-weight", textWeight (Props.textOr props "fontWeight" "")),
   ("line-height", Props.textOr props "lineHeight" "1.5"),
   ("padding", Props.padding props "padding")]

/-- Rich text. -/
def text (props : Members) : String :=
  element "mj-text" (textAttributes props) (sanitize (Props.textOr props "content" ""))

/-! ## Headings -/

/-- The weight of a font in a heading. -/
def headingWeight (weight : String) : String :=
  match weight with
  | "normal" => "normal"
  | "medium" => "500"
  | "semibold" => "600"
  | _ => "700"

/-- The element of a heading. -/
def headingLevel (level : Option String) : String :=
  (level.filter fun l => ["h2", "h3", "h4", "h5", "h6"].contains l).getD "h1"

/-- The size of a font in a heading without a size of its own. -/
def headingSize (level : String) : String :=
  match level with
  | "h2" => "24px"
  | "h3" => "20px"
  | _ => "28px"

/-- The attributes of a heading with an element of the given level inside. -/
def headingAttributes (level : String) (props : Members) : Attributes :=
  let size := ((Props.number? props "fontSize").map pixels).getD (headingSize level)
  [("align", Props.textOr props "align" "left"),
   ("color", Props.textOr props "color" Theme.text),
   ("font-size", size),
   ("font-weight", headingWeight (Props.textOr props "fontWeight" "")),
   ("line-height", Props.textOr props "lineHeight" "1.2"),
   ("padding", Props.padding props "padding")]

/-- A heading. -/
def heading (props : Members) : String :=
  let level := headingLevel (Props.text? props "level")
  let content := String.ofList (escapeText (Props.textOr props "content" "").toList)
  element "mj-text" (headingAttributes level props) (element level [] content)

/-! ## Buttons -/

/-- The space around the label of a button. -/
def buttonPadding (size : String) : String :=
  match size with
  | "sm" => "8px 16px"
  | "lg" => "16px 32px"
  | _ => "12px 24px"

/-- The size of the font of a button. -/
def buttonFontSize (size : String) : String :=
  match size with
  | "sm" => "14px"
  | "lg" => "18px"
  | _ => "16px"

/-- The attributes of a button. -/
def buttonAttributes (props : Members) : Attributes :=
  let variant := Props.textOr props "variant" "primary"
  let size := Props.textOr props "size" "md"
  let background := Theme.buttonBackground variant (Props.nonEmpty? props "backgroundColor")
  let color := Theme.buttonText variant (Props.nonEmpty? props "textColor")
  let border := if variant = "outline" then some ("2px solid " ++ color) else none
  let fullWidth := (Props.flag? props "fullWidth").getD false
  [("href", safeUrl (Props.textOr props "href" "#")),
   ("background-color", background),
   ("color", color)] ++
    Attributes.given "border" border ++
    [("border-radius", pixels ((Props.number? props "borderRadius").getD 6.0)),
     ("font-weight", "600"),
     ("font-size", buttonFontSize size),
     ("inner-padding", buttonPadding size),
     ("padding", Props.padding props "padding"),
     ("align", Props.textOr props "align" "center")] ++
    Attributes.given "width" (if fullWidth then some "100%" else none)

/-- A button. -/
def button (props : Members) : String :=
  element "mj-button" (buttonAttributes props)
    (String.ofList (escapeText (Props.textOr props "text" "Click Here").toList))

/-! ## Dividers and spacers -/

/-- The height of a divider without a line: the padding above and below. -/
def blankHeight (props : Members) : Float :=
  let side (name : String) : Float :=
    let sides := (props.get? "padding").bind Json.members?
    (sides.bind fun sides => Props.number? sides name).getD 20.0
  side "top" + side "bottom"

/-- The attributes of a divider with a line. -/
def dividerAttributes (props : Members) : Attributes :=
  [("border-style", Props.textOr props "style" "solid"),
   ("border-color", Props.textOr props "color" Theme.divider),
   ("border-width", pixels ((Props.number? props "thickness").getD 1.0)),
   ("width", Props.textOr props "width" ""),
   ("align", Props.textOr props "align" ""),
   ("padding", Props.padding props "padding")]

/-- A horizontal line, or blank space of the same height; the height is not escaped. -/
def divider (props : Members) : String :=
  if Props.textOr props "style" "solid" = "none" then
    "<mj-spacer height=\"" ++ pixels (blankHeight props) ++ "\" />"
  else emptyElement "mj-divider" (dividerAttributes props)

/-- The attributes of a spacer. -/
def spacerAttributes (props : Members) : Attributes :=
  let background := (Props.text? props "backgroundColor").filter fun c => c ≠ Theme.transparent
  ("height", pixels (truncated ((Props.number? props "height").getD 40.0))) ::
    Attributes.given "container-background-color" background

/-- Blank space. -/
def spacer (props : Members) : String := emptyElement "mj-spacer" (spacerAttributes props)

/-! ## Raw markup -/

/-- Raw markup in a section of its own; neither it nor its padding is escaped. -/
def html (props : Members) : String :=
  match Props.nonEmpty? props "content" with
  | none => ""
  | some content =>
    "<mj-section padding=\"" ++ Props.padding props "padding" ++ "\"><mj-column><mj-raw>" ++
      content ++ "</mj-raw></mj-column></mj-section>"

end Letterpress.Render

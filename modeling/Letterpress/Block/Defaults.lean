/-
  The props that a new block starts with.

  `defaultProps` gives them by kind.  Those of a row have two columns with fresh identifiers, and
  those of a custom kind are empty.
-/
import Letterpress.Block.Block
import Letterpress.Markup.Color

namespace Letterpress

open Markup

/-- A padding as it stands in props. -/
def propsPadding (top right bottom left : Int) : Json := Json.record
  [("top", some (Json.int top)), ("right", some (Json.int right)),
   ("bottom", some (Json.int bottom)), ("left", some (Json.int left))]

/-- The padding of most blocks. -/
def contentPadding : Json := propsPadding 10 0 10 0

/-- The platforms of a new block of social links, in order. -/
def socialPlatforms : List String :=
  ["facebook", "twitter", "instagram", "linkedin", "youtube", "tiktok", "pinterest", "email"]

/-- A link of a new block of social links. -/
def socialLink (platform : String) : Json := Json.record
  [("platform", some (.string platform)), ("url", some (.string "")),
   ("enabled", some (.bool false))]

/-- The props of a new block that is not a row. -/
def contentDefaults : Kind → Members
  | .text => Dict.ofPairs
    [("content", .string ""), ("variant", .string "paragraph"), ("align", .string "left"),
     ("color", .string Theme.text), ("fontSize", Json.int 16), ("lineHeight", Json.real 1.5),
     ("fontWeight", .string "normal"), ("padding", contentPadding)]
  | .heading => Dict.ofPairs
    [("content", .string ""), ("level", .string "h1"), ("align", .string "left"),
     ("color", .string Theme.text), ("fontSize", Json.int 28), ("lineHeight", Json.real 1.2),
     ("fontWeight", .string "bold"), ("padding", contentPadding)]
  | .image => Dict.ofPairs
    [("src", .string ""), ("alt", .string ""), ("href", .string ""), ("width", .string "100%"),
     ("align", .string "center"), ("fluidOnMobile", .bool true), ("borderRadius", Json.int 0),
     ("padding", contentPadding)]
  | .button => Dict.ofPairs
    [("text", .string "Click Here"), ("href", .string "#"), ("variant", .string "primary"),
     ("size", .string "md"), ("align", .string "center"), ("borderRadius", Json.int 6),
     ("fullWidth", .bool false), ("padding", contentPadding)]
  | .divider => Dict.ofPairs
    [("style", .string "solid"), ("color", .string Theme.divider), ("width", .string "100%"),
     ("align", .string "center"), ("thickness", Json.int 1), ("padding", propsPadding 20 0 20 0)]
  | .spacer => Dict.ofPairs
    [("height", Json.int 40), ("backgroundColor", .string Theme.transparent)]
  | .html => Dict.ofPairs [("content", .string ""), ("padding", propsPadding 10 20 10 20)]
  | .video => Dict.ofPairs
    [("videoUrl", .string ""), ("thumbnailUrl", .string ""), ("alt", .string "Video"),
     ("width", .string "100%"), ("align", .string "center"), ("borderRadius", Json.int 0),
     ("padding", contentPadding)]
  | .social => Dict.ofPairs
    [("links", .array (socialPlatforms.map socialLink)), ("iconSize", .string "md"),
     ("iconStyle", .string "filled"), ("iconColor", .string ""), ("align", .string "center"),
     ("gap", Json.int 12), ("padding", contentPadding)]
  | .row | .custom _ => []

/-- The props of a new block. -/
def defaultProps (kind : Kind) : Minting Members :=
  match kind with
  | .row => return (← RowLayout.make .twoEqual).toMembers
  | kind => return contentDefaults kind

end Letterpress

/-
  Markup of images, videos and social links.

  * An image without a source and a video without a thumbnail are left out.
  * `thumbnailOf?` derives the thumbnail of a video from the address of the video.
  * `social` writes an icon for every link that is enabled and has an address.
-/
import Letterpress.Markup.Attributes
import Letterpress.Markup.Link
import Letterpress.Render.Props
import Letterpress.Text.Naming
import Letterpress.Text.Pieces

namespace Letterpress.Render

open Markup
open Padding (pixels)
open Text

/-- The radius of the corners, if it is positive. -/
def cornerRadius? (props : Members) : Option String :=
  ((Props.number? props "borderRadius").filter fun r => r > 0.0).map pixels

/-! ## Images -/

/-- The width of an image as an attribute: numbers are pixels, percentages are left to the
    column. -/
def imageWidth? (width : String) : Option String :=
  let s := width.toList
  if s.getLast? = some '%' then none
  else if (Decimal.double? s).isSome then some (width ++ "px")
  else
    let (digits, rest) := s.span isDecimalDigit
    if !digits.isEmpty && rest = ['p', 'x'] then some width else none

/-- The attributes of an image with the given source. -/
def imageAttributes (src : String) (props : Members) : Attributes :=
  let fluid := (Props.flag? props "fluidOnMobile").getD true
  [("src", safeUrl src), ("alt", Props.textOr props "alt" "")] ++
    Attributes.given "href" ((Props.nonEmpty? props "href").map safeUrl) ++
    Attributes.given "width" (imageWidth? (Props.textOr props "width" "100%")) ++
    [("align", Props.textOr props "align" "center")] ++
    Attributes.given "fluid-on-mobile" (if fluid then some "true" else none) ++
    Attributes.given "border-radius" (cornerRadius? props) ++
    [("padding", Props.padding props "padding")]

/-- An image, with a link if it has one. -/
def image (props : Members) : String :=
  match Props.nonEmpty? props "src" with
  | none => ""
  | some src => emptyElement "mj-image" (imageAttributes src props)

/-! ## Videos -/

/-- The addresses before the name of a video on the first platform. -/
def tubePrefixes : List String :=
  ["youtube.com/watch?v=", "youtu.be/", "youtube.com/embed/", "youtube.com/shorts/"]

/-- The name of a video after one of the addresses. -/
def readTube? : Reader String := fun s => do
  let rest ← tubePrefixes.findSome? fun p => afterStart? p.toList s
  let (name, rest) := rest.span fun c => !(c = '&' || c = '\n' || c = '?' || c = '#')
  if name.isEmpty then none else some (String.ofList name, rest)

/-- The number of a video on the second platform. -/
def readNumbered? : Reader String := fun s => do
  let rest ← afterStart? "vimeo.com/".toList s
  let (number, rest) := rest.span isDecimalDigit
  if number.isEmpty then none else some (String.ofList number, rest)

/-- The first item of a text. -/
def firstItem? (read? : Reader String) (s : String) : Option String :=
  (items (pieces read? s.toList)).head?

/-- The thumbnail of a video by its address. -/
def thumbnailOf? (url : String) : Option String :=
  match firstItem? readTube? url with
  | some name => some ("https://img.youtube.com/vi/" ++ name ++ "/maxresdefault.jpg")
  | none => (firstItem? readNumbered? url).map fun n => "https://vumbnail.com/" ++ n ++ ".jpg"

/-- The address of the thumbnail: one that is given, or that of the video. -/
def thumbnail? (props : Members) : Option String :=
  (Props.nonEmpty? props "thumbnailUrl").orElse fun _ =>
    (Props.nonEmpty? props "videoUrl").bind thumbnailOf?

/-- The attributes of a video with the given thumbnail. -/
def videoAttributes (thumbnail : String) (props : Members) : Attributes :=
  [("src", safeUrl thumbnail), ("alt", Props.textOr props "alt" "Video")] ++
    Attributes.given "href" ((Props.nonEmpty? props "videoUrl").map safeUrl) ++
    [("width", Props.textOr props "width" "100%"),
     ("align", Props.textOr props "align" "center")] ++
    Attributes.given "border-radius" (cornerRadius? props) ++
    [("padding", Props.padding props "padding")]

/-- The thumbnail of a video with a link to it. -/
def video (props : Members) : String :=
  match thumbnail? props with
  | none => ""
  | some thumbnail => emptyElement "mj-image" (videoAttributes thumbnail props)

/-! ## Social links -/

/-- The name of the icon of a platform. -/
def iconName (platform : String) : String :=
  match platform with
  | "twitter" => "x"
  | "email" => "gmail"
  | other => other

/-- The color of an icon without a color of its own. -/
def neutralIconColor : String := "#6B7280"

/-- The color of a platform. -/
def platformColor (platform : String) : String :=
  match platform with
  | "facebook" => "#1877F2"
  | "twitter" | "tiktok" => "#000000"
  | "instagram" => "#E4405F"
  | "linkedin" => "#0A66C2"
  | "youtube" => "#FF0000"
  | "pinterest" => "#BD081C"
  | _ => neutralIconColor

/-- The size of the icons. -/
def iconSize (size : String) : String :=
  match size with
  | "sm" => "24px"
  | "lg" => "40px"
  | _ => "32px"

/-- The address of an icon in a color. -/
def iconUrl (platform color : String) : String :=
  "https://cdn.simpleicons.org/" ++ iconName platform ++ "/" ++
    String.ofList (trimStartOf (· = '#') color.toList)

/-- The color of an icon, where a given color wins. -/
def iconColor (platform style given : String) : String :=
  if !given.isEmpty then given
  else if style = "filled" || style = "circle" then platformColor platform
  else neutralIconColor

/-- The attributes of the icon of a link. -/
def socialElementAttributes (style givenColor : String) (link : Members) : Attributes :=
  let platform := Props.textOr link "platform" ""
  let color := iconColor platform style givenColor
  let circle := style = "circle"
  [("name", "custom"),
   ("src", iconUrl platform (if circle then "white" else color)),
   ("href", safeUrl (Props.textOr link "url" "")),
   ("background-color", if circle then color else "transparent"),
   ("alt", String.ofList (capitalizeFirst platform.toList))] ++
    Attributes.given "border-radius" (if circle then some "50%" else none)

/-- The icon of a link. -/
def socialElement (style givenColor : String) (link : Members) : String :=
  emptyElement "mj-social-element" (socialElementAttributes style givenColor link)

/-- The links that are shown. -/
def shownLinks (props : Members) : List Members :=
  ((((props.get? "links").bind Json.items?).getD []).filterMap Json.members?).filter fun link =>
    Json.isTruthy (link.get? "enabled") && (Props.nonEmpty? link "url").isSome

/-- The attributes of a line of icons. -/
def socialAttributes (props : Members) : Attributes :=
  [("align", Props.textOr props "align" "center"),
   ("icon-size", iconSize (Props.textOr props "iconSize" "")),
   ("mode", "horizontal"),
   ("icon-padding", "0 " ++ pixels ((Props.number? props "gap").getD 12.0) ++ " 0 0"),
   ("padding", Props.padding props "padding")]

/-- A line of icons. -/
def social (props : Members) : String :=
  let links := shownLinks props
  if links.isEmpty then ""
  else
    let style := Props.textOr props "iconStyle" "filled"
    let color := Props.textOr props "iconColor" ""
    element "mj-social" (socialAttributes props)
      (String.join (links.map (socialElement style color)))

end Letterpress.Render

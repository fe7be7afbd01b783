/-
  Colors.

  * `Rgb.parse?` reads `#rgb` and `#rrggbb`, `Rgb.text` writes the long form.
  * `blendOver base overlay opacity` lays one color over another.
  * The named colors of the theme, and the colors of a button by its variant.
-/
import Letterpress.Json.Token
import Letterpress.Text.Blank

namespace Letterpress.Markup

/-! ## Channels -/

/-- A color by its three channels, each below 256. -/
structure Rgb where
  red : Nat
  green : Nat
  blue : Nat
deriving DecidableEq, Repr

namespace Rgb

/-- A channel of two hexadecimal digits; a plus sign may stand for the first. -/
def channel? (a b : Char) : Option Nat := do
  let high ← if a = '+' then some 0 else Json.hexValue? a
  let low ← Json.hexValue? b
  return 16 * high + low

/-- The color of a text with three or six digits after any number of hash signs. -/
def parse? (s : List Char) : Option Rgb :=
  let ds := Text.trimStartOf (· = '#') s
  let ds := if ds.length = 3 then ds.flatMap fun d => [d, d] else ds
  match ds with
  | [a, b, c, d, e, f] => do return ⟨← channel? a b, ← channel? c d, ← channel? e f⟩
  | _ => none

/-- Two hexadecimal digits. -/
def channelText (n : Nat) : List Char := [Nat.digitChar (n / 16), Nat.digitChar (n % 16)]

/-- The color with six digits. -/
def text (c : Rgb) : String :=
  String.ofList ('#' :: channelText c.red ++ channelText c.green ++ channelText c.blue)

end Rgb

/-! ## Blending -/

/-- The mean of two channels with a weight, rounded and kept in range. -/
def mixChannel (opacity : Float) (top bottom : Nat) : Nat :=
  let x := (Float.ofNat top * opacity + Float.ofNat bottom * (1.0 - opacity)).round
  if x ≤ 0.0 || x.isNaN then 0 else if 255.0 ≤ x then 255 else x.toUInt64.toNat

/-- The overlay over the base, if both are colors, or else the base. -/
def blendOver (base overlay : String) (opacity : Float) : String :=
  match Rgb.parse? base.toList, Rgb.parse? overlay.toList with
  | some b, some o =>
    Rgb.text ⟨mixChannel opacity o.red b.red, mixChannel opacity o.green b.green,
      mixChannel opacity o.blue b.blue⟩
  | _, _ => base

/-! ## The theme -/

namespace Theme

def primary : String := "#3b82f6"
def secondary : String := "#6b7280"
def success : String := "#10b981"
def danger : String := "#ef4444"
def text : String := "#333333"
def textOnPrimary : String := "#ffffff"
def divider : String := "#e5e7eb"
def transparent : String := "transparent"

/-- The background of a button, where a given color wins. -/
def buttonBackground (variant : String) (given : Option String) : String :=
  match given.filter fun c => !c.isEmpty with
  | some color => color
  | none =>
    match variant with
    | "secondary" => secondary
    | "success" => success
    | "danger" => danger
    | "outline" => transparent
    | _ => primary

/-- The label color of a button, where a given color wins. -/
def buttonText (variant : String) (given : Option String) : String :=
  match given.filter fun c => !c.isEmpty with
  | some color => color
  | none => if variant = "outline" then primary else textOnPrimary

end Theme

end Letterpress.Markup

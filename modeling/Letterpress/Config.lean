/-
  The configuration of a project.

  * `Config` has the settings for templates that do not say otherwise, further global tags, whether
    required tags are checked before a message is sent, and the compiler.
  * `Config.parse?` reads it from TOML text; `Config.initial` is the configuration without a file.
  * `Config.candidates` are the places of the file, the first one that exists counts.
-/
import Letterpress.Block.Document
import Letterpress.Json.Bounds
import Letterpress.Tag.Globals
import Letterpress.Toml.Document

namespace Letterpress

open Json (absent)

/-! ## The parts -/

/-- The values of the fields of a part, which may be an array of them; further items of the array
    are ignored. -/
def partFields? (fields : List String) : Json → Option (List (Option Json))
  | .array items => (Json.array (items.take fields.length)).record? fields
  | v => v.record? fields

/-- A program with its arguments. -/
structure CompilerCommand where
  command : String
  args : List String
deriving DecidableEq, Repr

namespace CompilerCommand

/-- The usual compiler. -/
def initial : CompilerCommand := ⟨"mjml", ["-i", "-s"]⟩

/-- The command of a record. -/
def ofJson? (v : Json) : Option CompilerCommand := do
  match ← partFields? ["command", "args"] v with
  | [command, args] =>
    return ⟨← absent initial.command Json.text? command,
      ← absent initial.args (Json.listOf? Json.text?) args⟩
  | _ => none

/-- The command as a record. -/
def toJson (c : CompilerCommand) : Json := Json.record
  [("command", some (.string c.command)), ("args", some (.array (c.args.map .string)))]

end CompilerCommand

/-- The settings of a record of the configuration, which has names of its own for them. -/
def Settings.ofConfigJson? (v : Json) : Option Settings := do
  match ← partFields? ["font_family", "background_color", "content_background_color",
      "content_width"] v with
  | [font, background, contentBackground, width] =>
    return {
      fontFamily := ← absent initial.fontFamily Json.text? font
      backgroundColor := ← absent initial.backgroundColor Json.text? background
      contentBackgroundColor := ← absent initial.contentBackgroundColor Json.text? contentBackground
      contentWidth := ← absent initial.contentWidth (Json.natBelow? widthBound) width }
  | _ => none

/-- The settings as a record of the configuration. -/
def Settings.toConfigJson (s : Settings) : Json := Json.record
  [("font_family", some (.string s.fontFamily)),
   ("background_color", some (.string s.backgroundColor)),
   ("content_background_color", some (.string s.contentBackgroundColor)),
   ("content_width", some (Json.int s.contentWidth))]

/-! ## The configuration -/

/-- The configuration of a project. -/
structure Config where
  settings : Settings
  /-- Global tags: values, or definitions with a value. -/
  mergeTags : Members
  /-- Required tags are checked before a message is sent. -/
  requiredTags : Bool
  compiler : CompilerCommand
deriving Repr

namespace Config

/-- The configuration without a file. -/
def initial : Config := ⟨.initial, [], true, .initial⟩

/-- Whether required tags are checked, from its record. -/
def validationOfJson? (v : Json) : Option Bool := do
  match ← partFields? ["required_tags"] v with
  | [required] => absent true Json.bool? required
  | _ => none

/-- The global tags, whose integers must be bounded. -/
def tagsOfJson? (v : Json) : Option Members := if v.isBounded then v.members? else none

/-- The configuration of a record. -/
def ofJson? (v : Json) : Option Config := do
  match ← v.record? ["templates", "merge_tags", "validation", "compiler"] with
  | [templates, tags, validation, compiler] =>
    return {
      settings := ← absent .initial Settings.ofConfigJson? templates
      mergeTags := ← absent [] tagsOfJson? tags
      requiredTags := ← absent true validationOfJson? validation
      compiler := ← absent .initial CompilerCommand.ofJson? compiler }
  | _ => none

/-- The configuration as a record. -/
def toJson (c : Config) : Json := Json.record
  [("templates", some c.settings.toConfigJson), ("merge_tags", some (.object c.mergeTags)),
   ("validation", some (Json.record [("required_tags", some (.bool c.requiredTags))])),
   ("compiler", some c.compiler.toJson)]

/-- The configuration that a text holds. -/
def parse? (s : String) : Option Config := (Toml.parse? s).bind ofJson?

/-- The global tags: those that are always there, and those of the configuration over them. -/
def globals (c : Config) (year : String) : Globals :=
  (Globals.withYear year).registerAll c.mergeTags

/-- The places of the configuration file, below the root of the project. -/
def candidates : List String := ["mailsmith.toml", ".mailsmith.toml", ".config/mailsmith.toml"]

end Config

end Letterpress

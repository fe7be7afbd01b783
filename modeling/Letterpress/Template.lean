/-
  Templates.

  * `TagDefinition` is a tag that a template declares.
  * `PartialSettings` are the settings that a template decides; `PartialSettings.withDefaults` fills
    in the others.
  * `Template` is a stored template; `Template.parse?` reads one from text and derives a missing
    slug from the name.
-/
import Letterpress.Block.Document
import Letterpress.Text.Naming

namespace Letterpress

open Json (absent optional)

/-! ## Declared tags -/

/-- The type of the value of a tag. -/
inductive TagType where
  | text
  | number
  | date
  | currency
  | url
  | email
  | boolean
  | list
deriving DecidableEq, Repr

namespace TagType

/-- All types. -/
def all : List TagType := [.text, .number, .date, .currency, .url, .email, .boolean, .list]

/-- The name of a type, with a capital letter. -/
def title : TagType → String
  | .text => "Text"
  | .number => "Number"
  | .date => "Date"
  | .currency => "Currency"
  | .url => "Url"
  | .email => "Email"
  | .boolean => "Boolean"
  | .list => "List"

/-- The name of a type. -/
def name (t : TagType) : String := String.ofList (t.title.toList.map Char.toLower)

/-- A type by its name. -/
def ofJson? (v : Json) : Option TagType := v.variant?.bind fun s => all.find? fun t => t.name = s

end TagType

/-- A tag that a template declares. -/
structure TagDefinition where
  key : String
  label : String
  description : String
  type : TagType
  required : Bool
  default : Option Json
  example? : Option Json
deriving Repr

namespace TagDefinition

/-- A definition with a label derived from the key. -/
def ofKey (key : String) (required : Bool) : TagDefinition where
  key := key
  label := Text.humanize key
  description := ""
  type := .text
  required := required
  default := none
  example? := none

/-- The fields in order. -/
def fields : List String :=
  ["key", "label", "description", "type", "required", "default", "example"]

/-- The definition of a record. -/
def ofJson? (v : Json) : Option TagDefinition := do
  match ← v.record? fields with
  | [key, label, description, type, isRequired, default, shown] =>
    return {
      key := ← Json.required Json.text? key
      label := ← absent "" Json.text? label
      description := ← absent "" Json.text? description
      type := ← absent .text TagType.ofJson? type
      required := ← absent false Json.bool? isRequired
      default := ← optional Json.any? default
      example? := ← optional Json.any? shown }
  | _ => none

/-- The definition as a record. -/
def toJson (d : TagDefinition) : Json := Json.record
  [("key", some (.string d.key)), ("label", some (.string d.label)),
   ("description", some (.string d.description)), ("type", some (.string d.type.name)),
   ("required", some (.bool d.required)), ("default", d.default), ("example", d.example?)]

end TagDefinition

/-! ## Settings -/

/-- The settings that a template decides. -/
structure PartialSettings where
  fontFamily : Option String
  backgroundColor : Option String
  contentBackgroundColor : Option String
  contentWidth : Option Nat
deriving DecidableEq, Repr

namespace PartialSettings

/-- No decisions. -/
def none : PartialSettings := ⟨.none, .none, .none, .none⟩

/-- All decisions. -/
def all (s : Settings) : PartialSettings :=
  ⟨some s.fontFamily, some s.backgroundColor, some s.contentBackgroundColor, some s.contentWidth⟩

/-- The settings, with those of `defaults` for what is not decided. -/
def withDefaults (p : PartialSettings) (defaults : Settings) : Settings where
  fontFamily := p.fontFamily.getD defaults.fontFamily
  backgroundColor := p.backgroundColor.getD defaults.backgroundColor
  contentBackgroundColor := p.contentBackgroundColor.getD defaults.contentBackgroundColor
  contentWidth := p.contentWidth.getD defaults.contentWidth

/-- The fields in order. -/
def fields : List String :=
  ["fontFamily", "backgroundColor", "contentBackgroundColor", "contentWidth"]

/-- The settings of a record. -/
def ofJson? (v : Json) : Option PartialSettings := do
  match ← v.record? fields with
  | [font, background, contentBackground, width] =>
    return {
      fontFamily := ← optional Json.text? font
      backgroundColor := ← optional Json.text? background
      contentBackgroundColor := ← optional Json.text? contentBackground
      contentWidth := ← optional (Json.natBelow? widthBound) width }
  | _ => Option.none

/-- The settings as a record. -/
def toJson (p : PartialSettings) : Json := Json.record
  [("fontFamily", p.fontFamily.map .string), ("backgroundColor", p.backgroundColor.map .string),
   ("contentBackgroundColor", p.contentBackgroundColor.map .string),
   ("contentWidth", p.contentWidth.map fun n : Nat => Json.int n)]

end PartialSettings

/-! ## Templates -/

/-- A stored template. -/
structure Template where
  name : String
  slug : String
  subject : String
  description : Option String
  content : Document
  settings : PartialSettings
  previewText : Option String
  isActive : Bool
  tags : List TagDefinition
deriving Repr

namespace Template

/-- An empty template with a slug derived from its name. -/
def make (name : String) (settings : PartialSettings) : Template where
  name := name
  slug := Text.slugify name
  subject := ""
  description := none
  content := .ofBlocks []
  settings := settings
  previewText := none
  isActive := true
  tags := []

/-- The template with a slug derived from its name, if it has none. -/
def withSlug (t : Template) : Template :=
  if t.slug.isEmpty then { t with slug := Text.slugify t.name } else t

/-- The template of a record. -/
def ofJson? (v : Json) : Option Template := do
  match ← v.record? ["name", "slug", "subject", "description", "content", "settings",
      "previewText", "isActive", "tags"] with
  | [name, slug, subject, description, content, settings, preview, active, tags] =>
    return {
      name := ← Json.required Json.text? name
      slug := ← absent "" Json.text? slug
      subject := ← absent "" Json.text? subject
      description := ← optional Json.text? description
      content := ← absent (.ofBlocks []) Document.ofJson? content
      settings := ← absent .none PartialSettings.ofJson? settings
      previewText := ← optional Json.text? preview
      isActive := ← absent true Json.bool? active
      tags := ← absent [] (Json.listOf? TagDefinition.ofJson?) tags }
  | _ => none

/-- The template as a record. -/
def toJson (t : Template) : Json := Json.record
  [("name", some (.string t.name)), ("slug", some (.string t.slug)),
   ("subject", some (.string t.subject)), ("description", t.description.map .string),
   ("content", some t.content.toJson), ("settings", some t.settings.toJson),
   ("previewText", t.previewText.map .string), ("isActive", some (.bool t.isActive)),
   ("tags", some (.array (t.tags.map TagDefinition.toJson)))]

/-- The fields of a template in text. -/
def shape : Json.Shape :=
  let plain (names : List String) : List (String × Json.Shape) := names.map fun n => (n, .any)
  .record (plain ["name", "slug", "subject", "description"] ++
    [("content", Document.shape), ("settings", .record (plain PartialSettings.fields))] ++
    plain ["previewText", "isActive"] ++ [("tags", .list (.record (plain TagDefinition.fields)))])

/-- The template that a text holds. -/
def parse? (s : String) : Option Template := ((Json.readAs? shape s).bind ofJson?).map withSlug

/-- The keys of the required tags, in the order of their declarations. -/
def requiredKeys (t : Template) : List String := (t.tags.filter (·.required)).map (·.key)

/-- The declaration of a tag. -/
def tag? (t : Template) (key : String) : Option TagDefinition := t.tags.find? fun d => d.key = key

end Template

end Letterpress

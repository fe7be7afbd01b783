/-
  The kinds of blocks.

  * `Kind` is one of the ten built-in kinds or a custom one with its name; `Kind.name` and
    `Kind.ofName` convert, and `ofName_name` says when they agree.
  * `Kind.before` is the order of the palette, with custom kinds at the end by name.
  * `Kind.info` is what an editor shows of a kind and where its blocks may stand.
-/
import Letterpress.Json.Record
import Letterpress.Text.Naming

namespace Letterpress

/-! ## Kinds -/

/-- The kind of a block. -/
inductive Kind where
  | text
  | heading
  | image
  | button
  | divider
  | spacer
  | html
  | video
  | social
  | row
  /-- A kind of a further renderer. -/
  | custom (name : String)
deriving DecidableEq, Repr

namespace Kind

/-- The built-in kinds in the order of the palette. -/
def builtin : List Kind :=
  [.text, .heading, .image, .button, .divider, .spacer, .html, .video, .social, .row]

/-- The name of a kind. -/
def name : Kind → String
  | .text => "text"
  | .heading => "heading"
  | .image => "image"
  | .button => "button"
  | .divider => "divider"
  | .spacer => "spacer"
  | .html => "html"
  | .video => "video"
  | .social => "social"
  | .row => "row"
  | .custom name => name

/-- The kind with a name. -/
def ofName (s : String) : Kind := (builtin.find? fun k => k.name = s).getD (.custom s)

theorem name_ofName (s : String) : (ofName s).name = s := by
  unfold ofName
  cases h : builtin.find? fun k => k.name = s with
  | none => rfl
  | some k => simpa using List.find?_some h

theorem ofName_name {k : Kind} (h : k ∈ builtin) : ofName k.name = k := by
  simp only [builtin, List.mem_cons, List.not_mem_nil, or_false] at h
  rcases h with rfl | rfl | rfl | rfl | rfl | rfl | rfl | rfl | rfl | rfl <;> decide

theorem ofName_eq_iff {s : String} {k : Kind} (h : k ∈ builtin) : ofName s = k ↔ s = k.name := by
  constructor
  · rintro rfl
    exact (name_ofName s).symm
  · rintro rfl
    exact ofName_name h

/-- The place of a kind in the palette. -/
def place (k : Kind) : Nat := builtin.idxOf k

/-- One kind comes before the other. -/
def before (a b : Kind) : Bool :=
  a.place < b.place || (a.place == b.place && decide (a.name < b.name))

/-- The kind is a row. -/
def isRow (k : Kind) : Bool := k == .row

/-- A kind is written as its name. -/
def ofJson? (v : Json) : Option Kind := v.text?.map ofName

end Kind

/-! ## The palette -/

/-- The groups of the palette. -/
inductive Category where
  | content
  | layout
  | interactive
deriving DecidableEq, Repr

namespace Category

/-- The name of a category. -/
def name : Category → String
  | .content => "content"
  | .layout => "layout"
  | .interactive => "interactive"

/-- A category by its name. -/
def ofJson? (v : Json) : Option Category :=
  v.variant?.bind fun s => [content, layout, interactive].find? fun c => c.name = s

end Category

/-- What an editor shows of a kind. -/
structure KindInfo where
  kind : Kind
  label : String
  icon : String
  category : Category

namespace Kind

/-- What an editor shows of a kind. -/
def info (k : Kind) : KindInfo :=
  match k with
  | .text => ⟨k, "Text", "text-align-left", .content⟩
  | .heading => ⟨k, "Heading", "heading", .content⟩
  | .image => ⟨k, "Image", "image-01", .content⟩
  | .button => ⟨k, "Button", "cursor-click-01", .interactive⟩
  | .divider => ⟨k, "Divider", "horizontal-resize", .content⟩
  | .spacer => ⟨k, "Spacer", "distribute-vertical-center", .content⟩
  | .html => ⟨k, "HTML", "source-code", .content⟩
  | .video => ⟨k, "Video", "video-01", .content⟩
  | .social => ⟨k, "Social Icons", "share-01", .content⟩
  | .row => ⟨k, "Row", "layout-grid", .layout⟩
  | .custom name => ⟨k, String.ofList (Text.capitalizeFirst name.toList), "square-01", .content⟩

/-- Blocks of the kind hold other blocks. -/
def isContainer (k : Kind) : Bool := k.isRow

/-- Blocks of the kind may stand in a column. -/
def canNest (k : Kind) : Bool := !k.isRow

/-- The built-in kinds of a category. -/
def inCategory (c : Category) : List Kind := builtin.filter fun k => k.info.category = c

end Kind

/-- The palette entry as JSON. -/
def KindInfo.toJson (i : KindInfo) : Json := Json.record
  [("type", some (.string i.kind.name)), ("label", some (.string i.label)),
   ("icon", some (.string i.icon)), ("category", some (.string i.category.name)),
   ("isContainer", some (.bool i.kind.isContainer)), ("canNest", some (.bool i.kind.canNest))]

end Letterpress

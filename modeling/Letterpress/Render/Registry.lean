/-
  The renderers of all kinds of blocks.

  * A `Renderer` has the props that a block of its kind starts with, and writes the markup of a
    block from its props, the data, and a way to write the blocks inside it.
  * A `Registry` holds renderers in the order of the palette; `Registry.builtin` holds those of the
    built-in kinds.
  * `Registry.render` writes a block of a kind, with its props set over those of a new one.  A kind
    without a renderer gives nothing.
-/
import Letterpress.Block.Defaults
import Letterpress.Json.Parser
import Letterpress.Render.Content
import Letterpress.Render.Media
import Letterpress.Render.Row

namespace Letterpress

/-! ## Renderers -/

/-- Writes the markup of a block inside another one. -/
abbrev ChildRenderer := Kind → Members → String

/-- How blocks of a kind are written. -/
structure Renderer where
  /-- The props of a new block. -/
  defaults : Minting Members
  /-- The markup of a block from the complete props and the data. -/
  write : ChildRenderer → Members → Members → String

namespace Renderer

/-- A renderer that needs nothing but the props. -/
def ofProps (kind : Kind) (write : Members → String) : Renderer where
  defaults := defaultProps kind
  write _ props _ := write props

/-- The renderer of a built-in kind. -/
def builtin? (kind : Kind) : Option Renderer :=
  match kind with
  | .text => some (ofProps kind Render.text)
  | .heading => some (ofProps kind Render.heading)
  | .image => some (ofProps kind Render.image)
  | .button => some (ofProps kind Render.button)
  | .divider => some (ofProps kind Render.divider)
  | .spacer => some (ofProps kind Render.spacer)
  | .html => some (ofProps kind Render.html)
  | .video => some (ofProps kind Render.video)
  | .social => some (ofProps kind Render.social)
  | .row => some ⟨defaultProps .row, fun child props _ => Render.row child props⟩
  | .custom _ => none

end Renderer

/-! ## Registries -/

/-- Renderers by kind, in the order of the palette. -/
abbrev Registry := List (Kind × Renderer)

namespace Registry

/-- The renderers with one more, or with one replaced. -/
def register (kind : Kind) (r : Renderer) : Registry → Registry
  | [] => [(kind, r)]
  | (k, s) :: rest =>
    if kind = k then (kind, r) :: rest
    else if kind.before k then (kind, r) :: (k, s) :: rest
    else (k, s) :: register kind r rest

/-- The renderers of the built-in kinds. -/
def builtin : Registry :=
  Kind.builtin.filterMap fun k => (Renderer.builtin? k).map fun r => (k, r)

/-- The renderer of a kind. -/
def renderer? (reg : Registry) (kind : Kind) : Option Renderer := reg.lookup kind

/-- There is a renderer for the kind. -/
def has (reg : Registry) (kind : Kind) : Bool := (reg.renderer? kind).isSome

/-- A block by a renderer, with its props set over those of a new block.  Identifiers that these
    contain come from `ids`. -/
def renderWith (ids : Supply) (r : Renderer) (child : ChildRenderer) (props data : Members) :
    String :=
  r.write child (((r.defaults.run ids).1).extend props) data

/-- A block with at most `depth` levels of blocks inside it. -/
def renderTo (reg : Registry) (ids : Supply) (data : Members) : Nat → ChildRenderer
  | 0, _, _ => ""
  | depth + 1, kind, props =>
    match reg.renderer? kind with
    | some r => renderWith ids r (renderTo reg ids data depth) props data
    | none => ""

/-- A block by its kind and its props.  A block inside another one is a part of its props, and what
    is read from a text has at most `Json.maxDepth` levels, so that blocks are never cut off here
    that a renderer takes from the props of such a block. -/
def render (reg : Registry) (ids : Supply) (kind : Kind) (props data : Members) : String :=
  renderTo reg ids data (Json.maxDepth + 1) kind props

/-- A block of a document. -/
def renderBlock (reg : Registry) (ids : Supply) (b : Block) (data : Members) : String :=
  reg.render ids b.kind b.props data

/-- A kind as the palette offers it. -/
def paletteEntry (kind : Kind) (defaults : Members) : Json := Json.record
  [("type", some (.string kind.name)), ("label", some (.string kind.info.label)),
   ("icon", some (.string kind.info.icon)), ("defaultProps", some (.object defaults))]

/-- All kinds with a renderer, as the palette offers them. -/
def palette (reg : Registry) : Minting (List Json) :=
  reg.mapM fun (kind, r) => return paletteEntry kind (← r.defaults)

end Registry

end Letterpress

/-
  From a template to the final page.

  * `sections` writes the blocks: rows are sections of their own, and the content blocks between
    them share one.
  * `page` puts the sections into a complete document.
  * `Renderer.Setup` has everything that rendering needs; `markup` is the document of a template,
    and `render` compiles it and then puts the data into the compiled page, and only there.
-/
import Letterpress.Compiler.Command
import Letterpress.Render.Registry
import Letterpress.Tag.Processor
import Letterpress.Template

namespace Letterpress.Render

open Markup

/-! ## The document -/

/-- The style sheet of every page: it undoes the defaults of browsers. -/
def styleSheet : String := String.intercalate "\n"
  ["",
   "      /* Email CSS Reset - neutralize browser defaults */",
   "      h1, h2, h3, h4, h5, h6, p, ul, ol, dl, blockquote, figure, pre \x7b",
   "        margin: 0;",
   "        margin-block-start: 0;",
   "        margin-block-end: 0;",
   "        margin-inline-start: 0;",
   "        margin-inline-end: 0;",
   "        padding: 0;",
   "      \x7d",
   "      h1, h2, h3, h4, h5, h6 \x7b",
   "        font-size: inherit;",
   "        font-weight: inherit;",
   "      \x7d",
   "      ul, ol, dl \x7b padding-inline-start: 0; \x7d",
   "      li, dd \x7b margin: 0; padding: 0; \x7d",
   "",
   "      @media only screen and (max-width: 480px) \x7b",
   "        .no-stack table.mj-full-width-mobile \x7b",
   "          width: auto !important;",
   "        \x7d",
   "        .no-stack td.mj-full-width-mobile \x7b",
   "          width: auto !important;",
   "        \x7d",
   "      \x7d",
   "    "]

/-- The text that mail programs show beside the subject. -/
def previewElement (preview : Option String) : String :=
  match preview.filter fun p => !p.isEmpty with
  | some p => "<mj-preview>" ++ String.ofList (escapeText p.toList) ++ "</mj-preview>"
  | none => ""

/-- A complete document around the sections. -/
def page (body : String) (settings : Settings) (preview : Option String) : String :=
  String.intercalate "\n"
    ["<mjml>",
     "  <mj-head>",
     "    <mj-attributes>",
     "      <mj-all font-family=\"" ++ settings.fontFamily ++ "\" />",
     "      <mj-text font-size=\"16px\" color=\"#333333\" line-height=\"1.5\" />",
     "      <mj-section padding=\"0\" />",
     "    </mj-attributes>",
     "    <mj-style>" ++ styleSheet ++ "</mj-style>",
     "    " ++ previewElement preview,
     "  </mj-head>",
     "  <mj-body background-color=\"" ++ settings.backgroundColor ++ "\" width=\"" ++
       toString settings.contentWidth ++ "px\">",
     "    " ++ body,
     "  </mj-body>",
     "</mjml>"]

/-! ## Sections -/

/-- The section of content blocks that are written already, unless there is nothing in it. -/
def contentSection (background content : String) : String :=
  if content.isEmpty then ""
  else
    "<mj-section background-color=\"" ++ background ++ "\" padding=\"0\"><mj-column>" ++ content ++
      "</mj-column></mj-section>"

/-- The sections of blocks, where `pending` are the content blocks before them that still lack a
    section. -/
def sectionsAfter (write : Block → String) (background pending : String) : List Block → String
  | [] => contentSection background pending
  | b :: rest =>
    if b.isRow then
      contentSection background pending ++ write b ++ sectionsAfter write background "" rest
    else sectionsAfter write background (pending ++ write b) rest

/-- The sections of blocks. -/
def sections (write : Block → String) (background : String) (blocks : List Block) : String :=
  sectionsAfter write background "" blocks

/-! ## Rendering -/

/-- Everything that rendering needs. -/
structure Setup where
  registry : Registry
  processor : Processor
  compiler : Compiler
  /-- The settings of templates that do not decide them. -/
  defaults : Settings
  /-- The identifiers of columns that a row would start with; they never reach the page. -/
  ids : Supply

namespace Setup

/-- The document of blocks. -/
def document (s : Setup) (blocks : List Block) (settings : Settings) (preview : Option String)
    (data : Members) : String :=
  let write (b : Block) : String := s.registry.renderBlock s.ids b data
  page (sections write settings.contentBackgroundColor blocks) settings preview

/-- The document of a template. -/
def markup (s : Setup) (t : Template) (data : Members) : String :=
  s.document t.content.blocks (t.settings.withDefaults s.defaults) t.previewText data

/-- The page of a document: compiled, with the data put in. -/
def finish (s : Setup) (markup : String) (data : Members) : Except Failure String :=
  (s.compiler markup).map fun compiled => s.processor.run compiled data

/-- The page of a template. -/
def render (s : Setup) (t : Template) (data : Members) : Except Failure String :=
  s.finish (s.markup t data) data

/-- The page of blocks that belong to no template. -/
def renderBlocks (s : Setup) (blocks : List Block) (settings : Settings) (data : Members) :
    Except Failure String :=
  s.finish (s.document blocks settings none data) data

end Setup

end Letterpress.Render

/-
  Documents and their settings.

  * `Document` is a list of blocks with a version; `Document.parse?` reads one from text.
  * `Settings` are the decisions for the whole page; `Settings.initial` are the usual ones.
-/
import Letterpress.Block.Block
import Letterpress.Json.Parser

namespace Letterpress

open Json (absent)

/-! ## Documents -/

/-- A block tree. -/
structure Document where
  version : String
  blocks : List Block
deriving Repr

namespace Document

/-- The present version. -/
def currentVersion : String := "1.0"

/-- A document of the present version. -/
def ofBlocks (blocks : List Block) : Document := ⟨currentVersion, blocks⟩

/-- The document of a record. -/
def ofJson? (v : Json) : Option Document := do
  match ← v.record? ["version", "blocks"] with
  | [version, blocks] =>
    return ⟨← absent currentVersion Json.text? version,
      ← absent [] (Json.listOf? Block.ofJson?) blocks⟩
  | _ => none

/-- The document as a record. -/
def toJson (d : Document) : Json := Json.record
  [("version", some (.string d.version)), ("blocks", some (.array (d.blocks.map Block.toJson)))]

/-- The fields of a block in text. -/
def blockShape : Json.Shape := .record [("id", .any), ("type", .any), ("props", .any)]

/-- The fields of a document in text. -/
def shape : Json.Shape := .record [("version", .any), ("blocks", .list blockShape)]

/-- The document that a text holds. -/
def parse? (s : String) : Option Document := (Json.readAs? shape s).bind ofJson?

end Document

/-! ## Settings -/

/-- `2 ^ 32`: all widths lie below it. -/
def widthBound : Nat := 0x100000000

/-- The decisions for the whole page. -/
structure Settings where
  fontFamily : String
  backgroundColor : String
  contentBackgroundColor : String
  /-- In pixels, below `widthBound`. -/
  contentWidth : Nat
deriving DecidableEq, Repr

namespace Settings

/-- The usual settings. -/
def initial : Settings := ⟨"Arial, sans-serif", "#f5f5f5", "#ffffff", 600⟩

/-- The settings of a record; missing fields are as usual. -/
def ofJson? (v : Json) : Option Settings := do
  match ← v.record? ["fontFamily", "backgroundColor", "contentBackgroundColor", "contentWidth"] with
  | [font, background, contentBackground, width] =>
    return {
      fontFamily := ← absent initial.fontFamily Json.text? font
      backgroundColor := ← absent initial.backgroundColor Json.text? background
      contentBackgroundColor := ← absent initial.contentBackgroundColor Json.text? contentBackground
      contentWidth := ← absent initial.contentWidth (Json.natBelow? widthBound) width }
  | _ => none

/-- The settings as a record. -/
def toJson (s : Settings) : Json := Json.record
  [("fontFamily", some (.string s.fontFamily)),
   ("backgroundColor", some (.string s.backgroundColor)),
   ("contentBackgroundColor", some (.string s.contentBackgroundColor)),
   ("contentWidth", some (Json.int s.contentWidth))]

end Settings

end Letterpress

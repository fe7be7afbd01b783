/-
  Blocks: the tree that a template is made of.

  * `ContentBlock` is a leaf: an identifier, a kind and loosely typed props.
  * `Column` holds content blocks, `RowLayout` holds columns, and `Block` is a content block or a
    row.  So there are no rows inside rows by construction, but a content block could still have
    the kind of a row; `ContentBlock.make?` and `ContentBlock.ofRaw` are the two ways in, and both
    refuse it.
  * `RawBlock` is the common JSON form `{id, type, props}`; `Block.ofRaw` and `Block.toRaw`
    convert.  `BlockFault` says why a block is refused.
  * `duplicate` copies a block with fresh identifiers throughout, `mergeProps?` sets props over
    those that a block has.
-/
import Letterpress.Block.Kind
import Letterpress.Block.Style
import Letterpress.Block.Supply

namespace Letterpress

open Json (optional absent required)

/-! ## The tree -/

/-- A leaf. -/
structure ContentBlock where
  id : String
  kind : Kind
  props : Members
deriving Repr

/-- A column of a row. -/
structure Column where
  id : String
  width : String
  blocks : List ContentBlock
  style : Option ColumnStyle
deriving Repr

/-- The content of a row. -/
structure RowLayout where
  preset : Preset
  columns : List Column
  /-- The space between the columns, in pixels. -/
  gap : Float
  stackOnMobile : Bool
  style : RowStyle
deriving Repr

/-- A block at the top level. -/
inductive Block where
  | content (b : ContentBlock)
  | row (id : String) (layout : RowLayout)
deriving Repr

/-- The common form of all blocks. -/
structure RawBlock where
  id : String
  kind : Kind
  props : Members
deriving Repr

/-! ## The common form -/

/-- The block of a record. -/
def RawBlock.ofJson? (v : Json) : Option RawBlock := do
  match ← v.record? ["id", "type", "props"] with
  | [id, kind, props] =>
    return ⟨← required Json.text? id, ← required Kind.ofJson? kind, ← absent [] Json.members? props⟩
  | _ => none

/-- The block as a record. -/
def RawBlock.toJson (r : RawBlock) : Json := Json.record
  [("id", some (.string r.id)), ("type", some (.string r.kind.name)),
   ("props", some (.object r.props))]

/-- Why a block is refused. -/
inductive BlockFault where
  /-- A row inside a column. -/
  | rowInColumn
  /-- A part that is missing or of the wrong type. -/
  | shape
deriving DecidableEq, Repr

/-- The reason that a row inside a column is refused with. -/
def BlockFault.rowInColumnText : String := "rows cannot be placed inside a column"

/-- A value that must be there. -/
def orFault {α : Type} (x : Option α) : Except BlockFault α := x.elim (.error .shape) .ok

/-! ## Content blocks -/

namespace ContentBlock

/-- A block of the common form, unless it is a row. -/
def ofRaw (r : RawBlock) : Except BlockFault ContentBlock :=
  if r.kind.isRow then .error .rowInColumn else .ok ⟨r.id, r.kind, r.props⟩

/-- The common form. -/
def toRaw (b : ContentBlock) : RawBlock := ⟨b.id, b.kind, b.props⟩

/-- The block of a record. -/
def ofJson (v : Json) : Except BlockFault ContentBlock := do
  ofRaw (← orFault (RawBlock.ofJson? v))

/-- The blocks of a column; a missing list is empty. -/
def listOfJson : Option Json → Except BlockFault (List ContentBlock)
  | none => .ok []
  | some (.array items) => items.mapM ofJson
  | some _ => .error .shape

/-- The block as a record. -/
def toJson (b : ContentBlock) : Json := b.toRaw.toJson

/-- A new block, unless the kind is a row. -/
def make? (kind : Kind) (props : Members) : Minting (Option ContentBlock) :=
  if kind.isRow then return none
  else do
    let id ← mint
    return some ⟨id, kind, props⟩

/-- A copy with a fresh identifier. -/
def duplicate (b : ContentBlock) : Minting ContentBlock := do
  let id ← mint
  return { b with id }

end ContentBlock

/-! ## Columns -/

namespace Column

/-- A new column without blocks. -/
def make (width : String) : Minting Column := do
  let id ← mint
  return ⟨id, width, [], none⟩

/-- The column of a record.  The first fault counts: in an object the blocks are looked at first,
    in an array the parts before them. -/
def ofJson (v : Json) : Except BlockFault Column := do
  match ← orFault (v.record? ["id", "width", "blocks", "style"]) with
  | [id, width, blocks, style] =>
    let id := required Json.text? id
    let width := required Json.text? width
    if v.isArray && (id.isNone || width.isNone) then throw .shape
    let blocks ← ContentBlock.listOfJson blocks
    return ⟨← orFault id, ← orFault width, blocks, ← orFault (optional ColumnStyle.ofJson? style)⟩
  | _ => throw .shape

/-- The columns of a row; a missing list is empty. -/
def listOfJson : Option Json → Except BlockFault (List Column)
  | none => .ok []
  | some (.array items) => items.mapM ofJson
  | some _ => .error .shape

/-- The column as a record. -/
def toJson (c : Column) : Json := Json.record
  [("id", some (.string c.id)), ("width", some (.string c.width)),
   ("blocks", some (.array (c.blocks.map ContentBlock.toJson))),
   ("style", c.style.map ColumnStyle.toJson)]

/-- A copy with fresh identifiers for the column and its blocks. -/
def duplicate (c : Column) : Minting Column := do
  let id ← mint
  let blocks ← c.blocks.mapM ContentBlock.duplicate
  return { c with id, blocks }

end Column

/-! ## Rows -/

namespace RowLayout

/-- The space between the columns of a new row. -/
def initialGap : Float := 10.0

/-- A new row with empty columns. -/
def make (preset : Preset) : Minting RowLayout := do
  let columns ← preset.initialWidths.mapM Column.make
  return ⟨preset, columns, initialGap, true, .initial⟩

/-- The row of a record.  Missing fields are those of a new row, except that there are no
    columns. -/
def ofJson (v : Json) : Except BlockFault RowLayout := do
  match ← orFault (v.record? ["preset", "columns", "gap", "stackOnMobile", "style"]) with
  | [preset, columns, gap, stack, style] =>
    return {
      columns := ← Column.listOfJson columns
      preset := ← orFault (absent .twoEqual Preset.ofJson? preset)
      gap := ← orFault (absent initialGap Json.double? gap)
      stackOnMobile := ← orFault (absent true Json.bool? stack)
      style := ← orFault (absent .initial RowStyle.ofJson? style) }
  | _ => throw .shape

/-- The row of props. -/
def ofMembers? (ms : Members) : Option RowLayout := (ofJson (.object ms)).toOption

/-- The fields of the row. -/
def toMembers (l : RowLayout) : Members := Dict.ofPairs
  [("preset", .string l.preset.name), ("columns", .array (l.columns.map Column.toJson)),
   ("gap", Json.real l.gap), ("stackOnMobile", .bool l.stackOnMobile), ("style", l.style.toJson)]

/-- The row as a record. -/
def toJson (l : RowLayout) : Json := .object l.toMembers

/-- The column with an identifier. -/
def column? (l : RowLayout) (id : String) : Option Column := l.columns.find? fun c => c.id = id

/-- The number of blocks in all columns. -/
def blockCount (l : RowLayout) : Nat := (l.columns.flatMap (·.blocks)).length

/-- A copy with fresh identifiers for all columns and blocks. -/
def duplicate (l : RowLayout) : Minting RowLayout := do
  let columns ← l.columns.mapM Column.duplicate
  return { l with columns }

end RowLayout

/-! ## Blocks -/

namespace Block

/-- The identifier. -/
def id : Block → String
  | .content b => b.id
  | .row id _ => id

/-- The kind. -/
def kind : Block → Kind
  | .content b => b.kind
  | .row _ _ => .row

/-- The props. -/
def props : Block → Members
  | .content b => b.props
  | .row _ l => l.toMembers

/-- The content of a row. -/
def row? : Block → Option RowLayout
  | .content _ => none
  | .row _ l => some l

/-- The block is a row. -/
def isRow (b : Block) : Bool := b.row?.isSome

/-- The identifiers of the block and of the blocks in its columns. -/
def ids : Block → List String
  | .content b => [b.id]
  | .row id l => id :: l.columns.flatMap fun c => c.blocks.map (·.id)

/-- The block of the common form; the props of a row must be those of a row. -/
def ofRaw (r : RawBlock) : Except BlockFault Block :=
  if r.kind.isRow then (RowLayout.ofJson (.object r.props)).map (.row r.id)
  else (ContentBlock.ofRaw r).map .content

/-- The common form. -/
def toRaw (b : Block) : RawBlock := ⟨b.id, b.kind, b.props⟩

/-- The block of a record. -/
def ofJson? (v : Json) : Option Block := (RawBlock.ofJson? v).bind fun r => (ofRaw r).toOption

/-- The block as a record. -/
def toJson (b : Block) : Json := b.toRaw.toJson

/-- A copy with fresh identifiers throughout. -/
def duplicate : Block → Minting Block
  | .content b => return .content (← b.duplicate)
  | .row _ l => do
    let layout ← l.duplicate
    let id ← mint
    return .row id layout

/-- The block with props set over those that it has; the props of a row must still be those of a
    row. -/
def mergeProps? (updates : Members) : Block → Option Block
  | .content b => some (.content { b with props := b.props.extend updates })
  | .row id l => (RowLayout.ofMembers? (l.toMembers.extend updates)).map (.row id)

end Block

end Letterpress

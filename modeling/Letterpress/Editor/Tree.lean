/-
  Edits of block trees.

  * `inRow?` and `inColumn?` change the first row with an identifier, and the first column with an
    identifier in it; both may take something out.
  * `take?` takes a block out of a list by its identifier.
  * `updateAnywhere?` sets props over those of a block at the top level or in a column.
  * `applyPreset` gives a row another column layout; blocks of columns that are dropped move to the
    end of the last column that stays.
-/
import Letterpress.Block.Defaults
import Letterpress.Editor.Listing

namespace Letterpress.Editing

variable {β : Type}

/-! ## Rows and columns -/

/-- The block is a row with an identifier. -/
def isRowWith (id : String) (b : Block) : Bool := b.isRow && b.id == id

/-- A change of the layout of a row, as a change of the block. -/
def onLayout (f : RowLayout → Option (β × RowLayout)) : Block → Option (β × Block)
  | .content _ => none
  | .row id l => (f l).map fun (b, l) => (b, .row id l)

/-- The blocks with the first row of an identifier changed. -/
def inRow? (row : String) (f : RowLayout → Option (β × RowLayout)) (blocks : List Block) :
    Option (β × List Block) :=
  modifyFirst? (isRowWith row) (onLayout f) blocks

/-- The layout with the first column of an identifier changed. -/
def inLayout? (column : String) (f : Column → Option (β × Column)) (l : RowLayout) :
    Option (β × RowLayout) :=
  (modifyFirst? (fun c => c.id == column) f l.columns).map fun (b, columns) =>
    (b, { l with columns })

/-- The blocks with the first column of an identifier, in the first row of an identifier,
    changed. -/
def inColumn? (row column : String) (f : Column → Option (β × Column)) (blocks : List Block) :
    Option (β × List Block) :=
  inRow? row (inLayout? column f) blocks

/-- A change of the blocks of a column, as a change of the column. -/
def onBlocks (f : List ContentBlock → Option (β × List ContentBlock)) (c : Column) :
    Option (β × Column) :=
  (f c.blocks).map fun (b, blocks) => (b, { c with blocks })

/-- The first row of an identifier. -/
def findRow? (row : String) (blocks : List Block) : Option RowLayout :=
  (blocks.find? (isRowWith row)).bind Block.row?

/-- The first column of an identifier in the first row of an identifier. -/
def findColumn? (row column : String) (blocks : List Block) : Option Column :=
  (findRow? row blocks).bind fun l => l.column? column

/-! ## Content blocks -/

/-- The first block of an identifier, and the others. -/
def take? (id : String) : List ContentBlock → Option (ContentBlock × List ContentBlock)
  | [] => none
  | b :: rest =>
    if b.id = id then some (b, rest) else (take? id rest).map fun (t, rest) => (t, b :: rest)

/-- The blocks without one of a column, and that one. -/
def takeFromColumn? (row column id : String) (blocks : List Block) :
    Option (ContentBlock × List Block) :=
  inColumn? row column (onBlocks (take? id)) blocks

/-- The blocks with one inserted into a column. -/
def putIntoColumn? (row column : String) (index : Option Nat) (b : ContentBlock)
    (blocks : List Block) : Option (List Block) :=
  (inColumn? row column (onBlocks fun bs => some ((), insertAt index b bs)) blocks).map (·.2)

/-- The blocks with one moved from a column into another one. -/
def moveNested? (row column toRow toColumn id : String) (index : Nat) (blocks : List Block) :
    Option (List Block) := do
  let _ ← findColumn? toRow toColumn blocks
  let (b, rest) ← takeFromColumn? row column id blocks
  putIntoColumn? toRow toColumn (some index) b rest

/-! ## Finding and updating by identifier -/

/-- A block of an identifier in a column. -/
def Column.find? (c : Column) (id : String) : Option ContentBlock :=
  c.blocks.find? fun b => b.id == id

/-- The first block of an identifier in the columns of a row. -/
def findNested? (id : String) (b : Block) : Option ContentBlock :=
  b.row?.bind fun l => l.columns.findSome? fun c => Column.find? c id

/-- A block of the tree and its level. -/
inductive Found where
  | top (b : Block)
  | nested (b : ContentBlock)

/-- The block of an identifier: those at the top level come first, then those in columns. -/
def findAnywhere? (id : String) (blocks : List Block) : Option Found :=
  match blocks.find? fun b => b.id == id with
  | some b => some (.top b)
  | none => (blocks.findSome? (findNested? id)).map .nested

/-- The props set over those of a block in a column. -/
def updateNested? (id : String) (updates : Members) (b : Block) : Option (Unit × Block) :=
  onLayout (fun l =>
    (modifyFirst? (fun c => (Column.find? c id).isSome)
      (onBlocks (modifyFirst? (fun b => b.id == id) fun b =>
        some ((), { b with props := b.props.extend updates }))) l.columns).map fun (u, columns) =>
          (u, { l with columns })) b

/-- The blocks with props set over those of the block of an identifier. -/
def updateAnywhere? (id : String) (updates : Members) (blocks : List Block) : Option (List Block) :=
  let updated :=
    if blocks.any fun b => b.id == id then
      modifyFirst? (fun b => b.id == id) (fun b => (b.mergeProps? updates).map fun b => ((), b))
        blocks
    else modifyFirst? (fun b => (findNested? id b).isSome) (updateNested? id updates) blocks
  updated.map (·.2)

/-! ## Column layouts -/

/-- New columns without a width. -/
def newColumns (count : Nat) : Minting (List Column) := (List.replicate count "").mapM Column.make

/-- The columns with the blocks of others at the end of the last one. -/
def appendToLast (blocks : List ContentBlock) : List Column → List Column
  | [] => []
  | [c] => [{ c with blocks := c.blocks ++ blocks }]
  | c :: rest => c :: appendToLast blocks rest

/-- The columns with widths, in order; further columns keep theirs. -/
def withWidths : List String → List Column → List Column
  | width :: widths, c :: rest => { c with width } :: withWidths widths rest
  | _, columns => columns

/-- The row with another column layout. -/
def applyPreset (preset : Preset) (l : RowLayout) : Minting RowLayout := do
  match preset.widths? with
  | none => return { l with preset }
  | some widths =>
    let overflow := (l.columns.drop widths.length).flatMap (·.blocks)
    let kept := appendToLast overflow (l.columns.take widths.length)
    let added ← newColumns (widths.length - l.columns.length)
    return { l with preset, columns := withWidths widths (kept ++ added) }

end Letterpress.Editing

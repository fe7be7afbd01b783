/-
  The operations of an editing session.

  An operation that can be refused gives the new session or nothing, so that a refused operation
  changes nothing.  Operations that make blocks or columns mint identifiers.  Every operation that
  changes the structure of the tree records it; changes of props and of settings do not.
-/
import Letterpress.Editor.State

namespace Letterpress.Editor

open Editing

/-! ## Adding and removing -/

/-- A new block of a kind. -/
def newBlock (kind : Kind) : Minting Block := do
  let props ← defaultProps kind
  match ← ContentBlock.make? kind props with
  | some b => return .content b
  | none => do
    let layout ← RowLayout.make .twoEqual
    let id ← mint
    return .row id layout

/-- Adds a new block at the top level and selects it; its identifier is the result. -/
def addBlock (kind : Kind) (index : Option Nat) (e : Editor) : Minting (String × Editor) := do
  let b ← newBlock kind
  return (b.id, (e.select b.id).record (insertAt index b e.blocks))

/-- Adds a new block to a column and selects it; its identifier is the result. -/
def addToColumn? (row column : String) (kind : Kind) (index : Option Nat) (e : Editor) :
    Minting (Option (String × Editor)) := do
  if !kind.canNest then return none
  let props ← defaultProps kind
  match ← ContentBlock.make? kind props with
  | none => return none
  | some b =>
    return (putIntoColumn? row column index b e.blocks).map fun blocks =>
      (b.id, (e.select b.id).record blocks)

/-- Removes a block at the top level. -/
def remove? (id : String) (e : Editor) : Option Editor :=
  (e.blocks.findIdx? fun b => b.id == id).map fun i =>
    { e with selection := e.selection.without id }.record (e.blocks.eraseIdx i)

/-- Removes a block from a column. -/
def removeFromColumn? (row column id : String) (e : Editor) : Option Editor :=
  (takeFromColumn? row column id e.blocks).map fun (_, blocks) =>
    { e with selection := e.selection.without id }.record blocks

/-! ## Changing props -/

/-- Sets props over those of a block anywhere in the tree, without a record. -/
def update? (id : String) (updates : Members) (e : Editor) : Option Editor :=
  (updateAnywhere? id updates e.blocks).map fun blocks => { e with blocks, dirty := true }

/-- The members of a record with others set over them. -/
def overRecord (v : Json) (updates : Members) : Json :=
  .object ((v.members?.getD []).extend updates)

/-- Sets fields over those of the settings, without a record. -/
def updateSettings? (updates : Members) (e : Editor) : Option Editor :=
  (Settings.ofJson? (overRecord e.settings.toJson updates)).map fun settings =>
    { e with settings, dirty := true }

/-- Sets fields over those of the style of a row. -/
def updateRowStyle? (row : String) (updates : Members) (e : Editor) : Option Editor :=
  (inRow? row (fun l =>
    (RowStyle.ofJson? (overRecord l.style.toJson updates)).map fun style => ((), { l with style }))
    e.blocks).map fun (_, blocks) => e.record blocks

/-- Sets fields over those of the style of a column. -/
def updateColumnStyle? (row column : String) (updates : Members) (e : Editor) : Option Editor :=
  (inColumn? row column (fun c =>
    (ColumnStyle.ofJson? (overRecord (c.style.getD .plain).toJson updates)).map fun style =>
      ((), { c with style := some style }))
    e.blocks).map fun (_, blocks) => e.record blocks

/-! ## Moving -/

/-- Moves a block at the top level. -/
def move? (origin target : Nat) (e : Editor) : Option Editor :=
  (reorder? origin target e.blocks).map fun blocks => e.record blocks

/-- Moves a block within a column. -/
def moveWithinColumn? (row column : String) (origin target : Nat) (e : Editor) : Option Editor :=
  (inColumn? row column (onBlocks fun bs => (reorder? origin target bs).map fun bs => ((), bs))
    e.blocks).map fun (_, blocks) => e.record blocks

/-- Moves a block between two columns, of the same row or of two. -/
def moveNested? (row column toRow toColumn id : String) (index : Nat) (e : Editor) :
    Option Editor :=
  (Editing.moveNested? row column toRow toColumn id index e.blocks).map fun blocks =>
    e.record blocks

/-- Moves a content block from the top level into a column and selects it. -/
def moveIntoColumn? (id row column : String) (index : Nat) (e : Editor) : Option Editor := do
  let origin ← e.blocks.findIdx? fun b => b.id == id
  match ← e.blocks[origin]? with
  | .row _ _ => none
  | .content b => do
    if !b.kind.canNest then none
    let _ ← findColumn? row column e.blocks
    let blocks ← putIntoColumn? row column (some index) b (e.blocks.eraseIdx origin)
    return (e.select b.id).record blocks

/-- Moves a block from a column to the top level and selects it. -/
def moveToCanvas? (row column id : String) (index : Nat) (e : Editor) : Option Editor :=
  (takeFromColumn? row column id e.blocks).map fun (b, blocks) =>
    (e.select b.id).record (insertUpTo index (.content b) blocks)

/-! ## Duplicating -/

/-- Puts a copy of a block at the top level after it and selects the copy. -/
def duplicate? (id : String) (e : Editor) : Minting (Option (String × Editor)) := do
  match e.blocks.findIdx? fun b => b.id == id with
  | none => return none
  | some i =>
    match e.blocks[i]? with
    | none => return none
    | some b => do
      let copy ← b.duplicate
      return some (copy.id, (e.select copy.id).record (e.blocks.insertIdx (i + 1) copy))

/-- The blocks with a copy of one after it. -/
def withCopy? (id copyId : String) (bs : List ContentBlock) :
    Option (Unit × List ContentBlock) := do
  let i ← bs.findIdx? fun b => b.id == id
  let b ← bs[i]?
  return ((), bs.insertIdx (i + 1) { b with id := copyId })

/-- Puts a copy of a block in a column after it and selects the copy. -/
def duplicateInColumn? (row column id : String) (e : Editor) :
    Minting (Option (String × Editor)) := do
  match (findColumn? row column e.blocks).bind fun c => Column.find? c id with
  | none => return none
  | some _ => do
    let copyId ← mint
    return (inColumn? row column (onBlocks (withCopy? id copyId)) e.blocks).map fun (_, blocks) =>
      (copyId, (e.select copyId).record blocks)

/-! ## Column layouts -/

/-- Gives a row another column layout. -/
def applyPreset? (row : String) (preset : Preset) (e : Editor) : Minting (Option Editor) := do
  match findRow? row e.blocks with
  | none => return none
  | some l => do
    let l ← Editing.applyPreset preset l
    return (inRow? row (fun _ => some ((), l)) e.blocks).map fun (_, blocks) => e.record blocks

/-- Gives the columns of a row other widths, which makes its layout a custom one. -/
def setWidths? (row : String) (widths : List String) (e : Editor) : Option Editor :=
  (inRow? row (fun l =>
    some ((), { l with preset := .custom, columns := withWidths widths l.columns }))
    e.blocks).map fun (_, blocks) => e.record blocks

/-! ## Pasting -/

/-- The blocks after others with the identifiers `taken`; a block with one of these is copied.  The
    identifiers of each block count for those after it. -/
def freshened (taken : List String) : List Block → Minting (List Block)
  | [] => return []
  | b :: rest => do
    let b ← if b.ids.any taken.contains then b.duplicate else pure b
    return b :: (← freshened (taken ++ b.ids) rest)

/-- Adds blocks at the end, or in the place of those that are there, and selects the first one. -/
def paste (added : List Block) (replacing : Bool) (e : Editor) : Minting Editor := do
  let kept := if replacing then [] else e.blocks
  let added ← freshened (kept.flatMap Block.ids) added
  let selection := added.head?.elim e.selection fun b => .block b.id
  return { e with selection }.record (kept ++ added)

/-! ## Selecting -/

/-- Selects a block, or no block. -/
def selectBlock (id : Option String) (e : Editor) : Editor :=
  { e with selection := id.elim e.selection.withoutBlock .block }

/-- Selects a column given by its row and itself, or no column. -/
def selectColumn (column : Option (String × String)) (e : Editor) : Editor :=
  { e with selection := column.elim e.selection.withoutColumn fun (r, c) => .column r c }

/-- Hovers over a block, or over none. -/
def hover (id : Option String) (e : Editor) : Editor := { e with hovered := id }

/-- The selected block. -/
def selectedBlock? (e : Editor) : Option Found :=
  match e.selection with
  | .block id => findAnywhere? id e.blocks
  | _ => none

/-- The selected column. -/
def selectedColumn? (e : Editor) : Option Column :=
  match e.selection with
  | .column row column => findColumn? row column e.blocks
  | _ => none

/-! ## History -/

/-- The session with the tree of another place in its history. -/
def restored (e : Editor) (x : List Block × History) : Editor :=
  { e with blocks := x.1, history := x.2, dirty := true, selection := e.selection.withoutBlock }

/-- Takes back the last recorded change. -/
def undo? (e : Editor) : Option Editor := e.history.undo?.map e.restored

/-- Repeats the change that was taken back last. -/
def redo? (e : Editor) : Option Editor := e.history.redo?.map e.restored

/-- Says that all changes are saved. -/
def markClean (e : Editor) : Editor := { e with dirty := false }

end Letterpress.Editor

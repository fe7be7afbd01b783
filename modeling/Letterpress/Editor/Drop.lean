/-
  Drag and drop.

  * `startDrag`, `aim` and `cancelDrag` change the drag alone.
  * `drop` ends the drag: what was dragged is added or moved to the target, if it can be, and the
    result says whether it was.
-/
import Letterpress.Editor.Edit

namespace Letterpress.Editor

open Editing

/-- Starts a drag. -/
def startDrag (source : DragSource) (e : Editor) : Editor := { e with drag := ⟨some source, none⟩ }

/-- Changes the target of the drag. -/
def aim (target : Option DropTarget) (e : Editor) : Editor :=
  { e with drag := { e.drag with target } }

/-- Ends the drag without a change. -/
def cancelDrag (e : Editor) : Editor := { e with drag := .none }

/-- The session after a block in a column has been dropped on a column. -/
def dropNested? (row column toRow toColumn id : String) (index : Nat) (e : Editor) :
    Option Editor :=
  if row ≠ toRow || column ≠ toColumn then e.moveNested? row column toRow toColumn id index
  else do
    let c ← findColumn? row column e.blocks
    let origin ← c.blocks.findIdx? fun b => b.id == id
    e.moveWithinColumn? row column origin (landingIndex origin index)

/-- The session after something has been dropped on a target. -/
def dropOn? (source : DragSource) (target : DropTarget) (e : Editor) : Minting (Option Editor) :=
  match source, target with
  | .palette kind, .canvas index => do
    let (_, e) ← e.addBlock kind (some index)
    return some e
  | .palette kind, .column row column index =>
    return (← e.addToColumn? row column kind (some index)).map (·.2)
  | .canvas id, .canvas index => return do
    let origin ← e.blocks.findIdx? fun b => b.id == id
    e.move? origin (landingIndex origin index)
  | .canvas id, .column row column index => return e.moveIntoColumn? id row column index
  | .nested row column id, .canvas index => return e.moveToCanvas? row column id index
  | .nested row column id, .column toRow toColumn index =>
    return e.dropNested? row column toRow toColumn id index

/-- Ends the drag on a target; the result says whether the document has changed. -/
def drop (target : DropTarget) (e : Editor) : Minting (Bool × Editor) := do
  let idle := e.cancelDrag
  match e.drag.source with
  | none => return (false, idle)
  | some source =>
    match ← dropOn? source target idle with
    | some e => return (true, e)
    | none => return (false, idle)

end Letterpress.Editor

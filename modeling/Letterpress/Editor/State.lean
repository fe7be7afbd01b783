/-
  The state of an editing session.

  * `History` is the list of the recorded block trees with the index of the present one.
    `History.record` drops what comes after it, `History.undo?` and `History.redo?` move by one.
  * `Editor` is a session: the blocks, the settings, what is selected, hovered and dragged, the
    history, and whether there are changes that are not saved.
  * `Editor.record` ends an operation that changes the structure of the tree.
-/
import Letterpress.Block.Document
import Letterpress.Editor.Tree

namespace Letterpress

/-! ## History -/

/-- The recorded block trees. -/
structure History where
  snapshots : List (List Block)
  index : Nat

namespace History

/-- The history of a new session. -/
def start (blocks : List Block) : History := ⟨[blocks], 0⟩

/-- The history with a new tree after the present one. -/
def record (blocks : List Block) (h : History) : History :=
  let kept := h.snapshots.take (h.index + 1)
  ⟨kept ++ [blocks], kept.length⟩

/-- There is a tree before the present one. -/
def canUndo (h : History) : Bool := 0 < h.index

/-- There is a tree after the present one. -/
def canRedo (h : History) : Bool := h.index + 1 < h.snapshots.length

/-- The tree at an index, and the history with that index. -/
def restore? (index : Nat) (h : History) : Option (List Block × History) :=
  h.snapshots[index]?.map fun blocks => (blocks, { h with index })

/-- One step back. -/
def undo? (h : History) : Option (List Block × History) :=
  if h.canUndo then h.restore? (h.index - 1) else none

/-- One step forward. -/
def redo? (h : History) : Option (List Block × History) :=
  if h.canRedo then h.restore? (h.index + 1) else none

end History

/-! ## Selecting and dragging -/

/-- What is selected: never a block and a column at once. -/
inductive Selection where
  | nothing
  | block (id : String)
  | column (row column : String)
deriving DecidableEq, Repr

namespace Selection

/-- The selection without a block. -/
def withoutBlock : Selection → Selection
  | .block _ => .nothing
  | s => s

/-- The selection without a column. -/
def withoutColumn : Selection → Selection
  | .column _ _ => .nothing
  | s => s

/-- The selection without a certain block. -/
def without (id : String) (s : Selection) : Selection := if s = .block id then .nothing else s

end Selection

/-- What is dragged. -/
inductive DragSource where
  /-- A new block of a kind. -/
  | palette (kind : Kind)
  /-- A block at the top level. -/
  | canvas (id : String)
  /-- A block in a column. -/
  | nested (row column id : String)
deriving DecidableEq, Repr

/-- Where it would land; the index is the one that the user sees, with the dragged item in place. -/
inductive DropTarget where
  | canvas (index : Nat)
  | column (row column : String) (index : Nat)
deriving DecidableEq, Repr

/-- A drag in progress, if there is a source. -/
structure Drag where
  source : Option DragSource
  target : Option DropTarget
deriving DecidableEq, Repr

/-- No drag. -/
def Drag.none : Drag := ⟨.none, .none⟩

/-! ## Sessions -/

/-- An editing session. -/
structure Editor where
  blocks : List Block
  settings : Settings
  selection : Selection
  hovered : Option String
  drag : Drag
  history : History
  /-- There are changes that are not saved. -/
  dirty : Bool

namespace Editor

/-- A new session. -/
def start (blocks : List Block) (settings : Settings) : Editor where
  blocks := blocks
  settings := settings
  selection := .nothing
  hovered := none
  drag := .none
  history := .start blocks
  dirty := false

/-- A session over a document. -/
def ofDocument (d : Document) (settings : Settings) : Editor := start d.blocks settings

/-- The blocks as a document of the present version. -/
def toDocument (e : Editor) : Document := .ofBlocks e.blocks

/-- The session with other blocks and a record of them. -/
def record (blocks : List Block) (e : Editor) : Editor :=
  { e with blocks, history := e.history.record blocks, dirty := true }

/-- The session with a block selected. -/
def select (id : String) (e : Editor) : Editor := { e with selection := .block id }

end Editor

end Letterpress

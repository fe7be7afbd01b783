/-
  Editing sessions as runs of operations.

  * `Operation` lists what can be asked of a session, `Operation.run` does it and gives the answer:
    an operation that makes a block answers with its identifier, one that can be refused says
    whether it was.
  * `Session` is an editor with the supply of identifiers; `Session.next` is the session after an
    operation and `Session.after` the one after several.
  * `Session.records`: the operation adds a snapshot to the history.
-/
import Letterpress.Editor.Drop

namespace Letterpress

/-! ## Operations -/

/-- An operation of an editing session. -/
inductive Operation where
  | addBlock (kind : Kind) (index : Option Nat)
  | addToColumn (row column : String) (kind : Kind) (index : Option Nat)
  | remove (id : String)
  | removeFromColumn (row column id : String)
  | update (id : String) (updates : Members)
  | updateSettings (updates : Members)
  | updateRowStyle (row : String) (updates : Members)
  | updateColumnStyle (row column : String) (updates : Members)
  | move (origin target : Nat)
  | moveWithinColumn (row column : String) (origin target : Nat)
  /-- From a column into one of the same row or of another. -/
  | moveNested (row column toRow toColumn id : String) (index : Nat)
  | moveIntoColumn (id row column : String) (index : Nat)
  | moveToCanvas (row column id : String) (index : Nat)
  | duplicate (id : String)
  | duplicateInColumn (row column id : String)
  | applyPreset (row : String) (preset : Preset)
  | setWidths (row : String) (widths : List String)
  | paste (added : List Block) (replacing : Bool)
  | selectBlock (id : Option String)
  | selectColumn (column : Option (String × String))
  | hover (id : Option String)
  | startDrag (source : DragSource)
  | aim (target : Option DropTarget)
  | cancelDrag
  | drop (target : DropTarget)
  | markClean
  | undo
  | redo

/-- What an operation answers. -/
inductive Answer where
  /-- Of an operation that cannot be refused. -/
  | done
  /-- With the identifier of the new block. -/
  | made (id : String)
  | accepted
  | refused
deriving DecidableEq, Repr

namespace Editor

/-- The answer of an operation that may be refused; a refused one leaves the session as it is. -/
def settle (e : Editor) : Option Editor → Answer × Editor
  | some changed => (.accepted, changed)
  | none => (.refused, e)

/-- The answer of an operation that may be refused, and makes a block. -/
def settleMade (e : Editor) : Option (String × Editor) → Answer × Editor
  | some (id, changed) => (.made id, changed)
  | none => (.refused, e)

end Editor

namespace Operation

/-- The answer of the operation, and the session after it. -/
def run (op : Operation) (e : Editor) : Minting (Answer × Editor) :=
  match op with
  | addBlock kind index => do
    let (id, changed) ← e.addBlock kind index
    return (.made id, changed)
  | addToColumn row column kind index =>
    return e.settleMade (← e.addToColumn? row column kind index)
  | remove id => return e.settle (e.remove? id)
  | removeFromColumn row column id => return e.settle (e.removeFromColumn? row column id)
  | update id updates => return e.settle (e.update? id updates)
  | updateSettings updates => return e.settle (e.updateSettings? updates)
  | updateRowStyle row updates => return e.settle (e.updateRowStyle? row updates)
  | updateColumnStyle row column updates =>
    return e.settle (e.updateColumnStyle? row column updates)
  | move origin target => return e.settle (e.move? origin target)
  | moveWithinColumn row column origin target =>
    return e.settle (e.moveWithinColumn? row column origin target)
  | moveNested row column toRow toColumn id index =>
    return e.settle (e.moveNested? row column toRow toColumn id index)
  | moveIntoColumn id row column index => return e.settle (e.moveIntoColumn? id row column index)
  | moveToCanvas row column id index => return e.settle (e.moveToCanvas? row column id index)
  | duplicate id => return e.settleMade (← e.duplicate? id)
  | duplicateInColumn row column id => return e.settleMade (← e.duplicateInColumn? row column id)
  | applyPreset row preset => return e.settle (← e.applyPreset? row preset)
  | setWidths row widths => return e.settle (e.setWidths? row widths)
  | paste added replacing => return (.done, ← e.paste added replacing)
  | selectBlock id => return (.done, e.selectBlock id)
  | selectColumn column => return (.done, e.selectColumn column)
  | hover id => return (.done, e.hover id)
  | startDrag source => return (.done, e.startDrag source)
  | aim target => return (.done, e.aim target)
  | cancelDrag => return (.done, e.cancelDrag)
  | drop target => do
    let (changed, e) ← e.drop target
    return (if changed then .accepted else .refused, e)
  | markClean => return (.done, e.markClean)
  | undo => return e.settle e.undo?
  | redo => return e.settle e.redo?

/-- The operation moves through the history. -/
def travels : Operation → Bool
  | undo | redo => true
  | _ => false

/-- The operation changes the structure of the tree, and so records it. -/
def isStructural : Operation → Bool
  | addBlock .. | addToColumn .. | remove .. | removeFromColumn .. | updateRowStyle ..
  | updateColumnStyle .. | move .. | moveWithinColumn .. | moveNested .. | moveIntoColumn ..
  | moveToCanvas .. | duplicate .. | duplicateInColumn .. | applyPreset .. | setWidths ..
  | paste .. | drop .. => true
  | _ => false

end Operation

/-! ## Sessions -/

/-- An editor with the identifiers that it takes. -/
structure Session where
  editor : Editor
  supply : Supply

namespace Session

/-- A new session. -/
def start (blocks : List Block) (settings : Settings) (supply : Supply) : Session :=
  ⟨.start blocks settings, supply⟩

/-- What an operation answers. -/
def answer (x : Session) (op : Operation) : Answer := (op.run x.editor x.supply).1.1

/-- The session after an operation. -/
def next (x : Session) (op : Operation) : Session :=
  ⟨(op.run x.editor x.supply).1.2, (op.run x.editor x.supply).2⟩

/-- The session after several operations. -/
def after (x : Session) (ops : List Operation) : Session := ops.foldl next x

/-- The operation adds a snapshot to the history: it is structural and not refused. -/
def records (x : Session) (op : Operation) : Bool := op.isStructural && x.answer op ≠ .refused

@[simp] theorem after_nil (x : Session) : x.after [] = x := rfl

@[simp] theorem after_cons (x : Session) (op : Operation) (ops : List Operation) :
    x.after (op :: ops) = (x.next op).after ops := rfl

theorem after_append (x : Session) (ops later : List Operation) :
    x.after (ops ++ later) = (x.after ops).after later :=
  List.foldl_append

end Session

end Letterpress

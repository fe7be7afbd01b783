/-
  The operations of a session, done in place.

  Here an operation is a program that changes the session step by step: it takes a block out of its
  place before it looks for the new one, and it does not put anything back.  What it has done when
  it answers that it is refused, stays done.

  * `attempt` makes a change in place of one that may refuse; `changeFirst_attempt` does so for the
    first item of a list with a property.
  * `InPlace` are the programs, `InPlace.takeOut` and `InPlace.putIn` the steps of the moves.
  * `Operation.inPlace` is the program of each operation that can be refused.
-/
import Letterpress.Proofs.Editor.Operation
import Letterpress.Proofs.Editor.Tree

namespace Letterpress

open Editing

variable {α β : Type}

/-! ## Changes in place -/

namespace Editing

/-- A change in place: an item that refuses it stays as it is. -/
def attempt (f : α → Option (β × α)) (a : α) : Option β × α :=
  match f a with
  | none => (none, a)
  | some (b, a) => (some b, a)

/-- The first item with a property changed in place. -/
def changeFirst (p : α → Bool) (f : α → Option β × α) : List α → Option β × List α
  | [] => (none, [])
  | a :: rest =>
    if p a then ((f a).1, (f a).2 :: rest)
    else ((changeFirst p f rest).1, a :: (changeFirst p f rest).2)

/-- The first row of an identifier changed in place. -/
def changeRow (row : String) (f : RowLayout → Option β × RowLayout) (blocks : List Block) :
    Option β × List Block :=
  changeFirst (isRowWith row) (fun
    | .content c => (none, .content c)
    | .row id l => ((f l).1, .row id (f l).2)) blocks

/-- The first column of an identifier in a row changed in place. -/
def changeColumn (row column : String) (f : Column → Option β × Column) (blocks : List Block) :
    Option β × List Block :=
  changeRow row (fun l =>
    let (b, columns) := changeFirst (fun c => c.id == column) f l.columns
    (b, { l with columns })) blocks

/-- The blocks of a column changed in place. -/
def changeBlocks (f : List ContentBlock → Option β × List ContentBlock) (c : Column) :
    Option β × Column :=
  ((f c.blocks).1, { c with blocks := (f c.blocks).2 })

/-- The list without its first block of an identifier, which is taken out by its place. -/
def removeNamed (id : String) (bs : List ContentBlock) : Option ContentBlock × List ContentBlock :=
  match bs.findIdx? fun b => b.id == id with
  | none => (none, bs)
  | some i => (bs[i]?, bs.eraseIdx i)

/-- The list with an item taken out and put back at another place. -/
def relocate (origin target : Nat) (l : List α) : Option Unit × List α :=
  if origin = target || l.length ≤ origin || l.length ≤ target then (none, l)
  else match l[origin]? with
    | none => (none, l.eraseIdx origin)
    | some a => (some (), (l.eraseIdx origin).insertIdx target a)

/-- A block with props set over those that it has; a row that does not fit stays as it is. -/
def mergeProps (updates : Members) : Block → Option Unit × Block
  | .content b => (some (), .content { b with props := b.props.extend updates })
  | .row id l =>
    match RowLayout.ofMembers? (l.toMembers.extend updates) with
    | none => (none, .row id l)
    | some l => (some (), .row id l)

/-- A block in a column with props set over those that it has. -/
def mergeNested (id : String) (updates : Members) : Block → Option Unit × Block
  | .content b => (none, .content b)
  | .row rowId l =>
    let (found, columns) := changeFirst (fun c => (Column.find? c id).isSome)
      (changeBlocks (changeFirst (fun b => b.id == id) fun b =>
        (some (), { b with props := b.props.extend updates }))) l.columns
    (found, .row rowId { l with columns })

/-- Props set over those of a block at the top level, or else in a column. -/
def changeAnywhere (id : String) (updates : Members) (blocks : List Block) :
    Option Unit × List Block :=
  if blocks.any fun b => b.id == id then
    changeFirst (fun b => b.id == id) (mergeProps updates) blocks
  else changeFirst (fun b => (findNested? id b).isSome) (mergeNested id updates) blocks

/-- A row with fields set over those of its style, unless they do not fit. -/
def restyleRow (updates : Members) (l : RowLayout) : Option Unit × RowLayout :=
  match RowStyle.ofJson? (Editor.overRecord l.style.toJson updates) with
  | none => (none, l)
  | some style => (some (), { l with style })

/-- A column with fields set over those of its style, unless they do not fit. -/
def restyleColumn (updates : Members) (c : Column) : Option Unit × Column :=
  match ColumnStyle.ofJson? (Editor.overRecord (c.style.getD .plain).toJson updates) with
  | none => (none, c)
  | some style => (some (), { c with style := some style })

/-! ## Attempts -/

theorem changeFirst_attempt (p : α → Bool) (f : α → Option (β × α)) :
    changeFirst p (attempt f) = attempt (modifyFirst? p f) := by
  funext l
  induction l with
  | nil => rfl
  | cons a rest ih =>
    rw [changeFirst, ih, attempt, attempt, attempt, modifyFirst?]
    cases p a with
    | true => cases f a <;> rfl
    | false => cases modifyFirst? p f rest <;> rfl

theorem changeRow_attempt (row : String) (f : RowLayout → Option (β × RowLayout)) :
    changeRow row (attempt f) = attempt (inRow? row f) := by
  have hf : inRow? row f = modifyFirst? (isRowWith row) (onLayout f) := rfl
  rw [hf, ← changeFirst_attempt]
  funext blocks
  rw [changeRow]
  congr 1
  funext x
  cases x with
  | content c => rfl
  | row id l =>
    simp only [attempt, onLayout]
    cases f l <;> rfl

theorem changeColumn_attempt (row column : String) (f : Column → Option (β × Column)) :
    changeColumn row column (attempt f) = attempt (inColumn? row column f) := by
  have hf : inColumn? row column f = inRow? row (inLayout? column f) := rfl
  rw [hf, ← changeRow_attempt]
  funext blocks
  rw [changeColumn]
  congr 1
  funext l
  simp only [changeFirst_attempt, attempt, inLayout?]
  cases modifyFirst? (fun c => c.id == column) f l.columns <;> rfl

theorem changeBlocks_attempt (f : List ContentBlock → Option (β × List ContentBlock)) :
    changeBlocks (attempt f) = attempt (onBlocks f) := by
  funext c
  simp only [changeBlocks, attempt, onBlocks]
  cases f c.blocks <;> rfl

theorem take?_eq_bind (id : String) (bs : List ContentBlock) :
    take? id bs = (bs.findIdx? fun b => b.id == id).bind fun i =>
      bs[i]?.map fun b => (b, bs.eraseIdx i) := by
  induction bs with
  | nil => rfl
  | cons b rest ih =>
    rw [take?, List.findIdx?_cons, ih]
    by_cases hb : b.id = id
    · simp [hb]
    · rw [if_neg hb, if_neg (by simpa using hb)]
      cases rest.findIdx? fun b => b.id == id with
      | none => rfl
      | some i => cases h : rest[i]? <;> simp [h]

theorem removeNamed_eq (id : String) : removeNamed id = attempt (take? id) := by
  funext bs
  rw [removeNamed, attempt, take?_eq_bind]
  cases hi : bs.findIdx? fun b => b.id == id with
  | none => rfl
  | some i =>
    obtain ⟨hlt, -⟩ := List.findIdx?_eq_some_iff_getElem.mp hi
    simp only [Option.bind_some, List.getElem?_eq_getElem hlt]
    rfl

theorem relocate_eq (origin target : Nat) (l : List α) :
    relocate origin target l =
      attempt (fun l => (reorder? origin target l).map fun l => ((), l)) l := by
  rw [relocate, attempt, reorder?]
  by_cases htarget : (origin = target || l.length ≤ target) = true
  · have hall : (origin = target || l.length ≤ origin || l.length ≤ target) = true := by
      simp only [Bool.or_eq_true, decide_eq_true_eq] at htarget ⊢
      omega
    rw [if_pos hall, if_pos htarget]
    rfl
  · rw [if_neg htarget]
    by_cases horigin : l.length ≤ origin
    · rw [if_pos (by simp [horigin]), List.getElem?_eq_none horigin]
      rfl
    · have hall : ¬(origin = target || l.length ≤ origin || l.length ≤ target) = true := by
        simp only [Bool.or_eq_true, decide_eq_true_eq] at htarget ⊢
        omega
      rw [if_neg hall, List.getElem?_eq_getElem (by omega)]
      rfl

theorem restyleRow_eq (updates : Members) : restyleRow updates = attempt fun l =>
    (RowStyle.ofJson? (Editor.overRecord l.style.toJson updates)).map fun style =>
      ((), { l with style }) := by
  funext l
  rw [restyleRow, attempt]
  cases RowStyle.ofJson? (Editor.overRecord l.style.toJson updates) <;> rfl

theorem restyleColumn_eq (updates : Members) : restyleColumn updates = attempt fun c =>
    (ColumnStyle.ofJson? (Editor.overRecord (c.style.getD .plain).toJson updates)).map fun style =>
      ((), { c with style := some style }) := by
  funext c
  rw [restyleColumn, attempt]
  cases ColumnStyle.ofJson? (Editor.overRecord (c.style.getD .plain).toJson updates) <;> rfl

theorem mergeProps_eq (updates : Members) :
    mergeProps updates = attempt fun b => (b.mergeProps? updates).map fun b => ((), b) := by
  funext b
  cases b with
  | content b => rfl
  | row id l =>
    simp only [mergeProps, attempt, Block.mergeProps?]
    cases RowLayout.ofMembers? (l.toMembers.extend updates) <;> rfl

theorem mergeNested_eq (id : String) (updates : Members) :
    mergeNested id updates = attempt (updateNested? id updates) := by
  have hset : (fun b : ContentBlock => (some (), { b with props := b.props.extend updates })) =
      attempt fun b => some ((), { b with props := b.props.extend updates }) := rfl
  funext b
  cases b with
  | content b => rfl
  | row rowId l =>
    simp only [mergeNested, hset, changeFirst_attempt, changeBlocks_attempt]
    simp only [attempt, updateNested?, onLayout]
    cases modifyFirst? (fun c => (Column.find? c id).isSome) _ l.columns <;> rfl

theorem changeAnywhere_eq (id : String) (updates : Members) (blocks : List Block) :
    changeAnywhere id updates blocks =
      attempt (fun l => (updateAnywhere? id updates l).map fun l => ((), l)) blocks := by
  rw [changeAnywhere, mergeProps_eq, mergeNested_eq]
  simp only [changeFirst_attempt, attempt, updateAnywhere?]
  split
  · cases modifyFirst? (fun b => b.id == id) _ blocks <;> rfl
  · cases modifyFirst? (fun b => (findNested? id b).isSome) _ blocks <;> rfl

end Editing

/-! ## Steps -/

/-- A program that changes a session in place, and mints. -/
abbrev InPlace := StateT Editor Minting

namespace InPlace

/-- Changes the tree in place. -/
def change (f : List Block → Option β × List Block) : InPlace (Option β) :=
  modifyGet fun e => ((f e.blocks).1, { e with blocks := (f e.blocks).2 })

/-- Records the tree as it is. -/
def push : InPlace Unit := modify fun e => e.record e.blocks

/-- Says that there are changes. -/
def touch : InPlace Unit := modify fun e => { e with dirty := true }

/-- Selects a block. -/
def select (id : String) : InPlace Unit := modify (Editor.select id)

/-- Selects nothing, if a certain block is selected. -/
def deselect (id : String) : InPlace Unit :=
  modify fun e => { e with selection := e.selection.without id }

/-- The place of a block at the top level. -/
def place? (id : String) : InPlace (Option Nat) :=
  return (← get).blocks.findIdx? fun b => b.id == id

/-- Takes a block at the top level out of its place. -/
def takeTop (i : Nat) : InPlace (Option Block) :=
  change fun blocks => (blocks[i]?, blocks.eraseIdx i)

/-- Puts a block at the top level. -/
def putTop (index : Nat) (b : Block) : InPlace Unit := do
  let _ ← change fun blocks => (some (), insertUpTo index b blocks)

/-- Takes a block out of a column. -/
def takeOut (row column id : String) : InPlace (Option ContentBlock) :=
  change (changeColumn row column (changeBlocks (removeNamed id)))

/-- Puts a block into a column; when there is no such column, the block is lost. -/
def putIn (row column : String) (index : Option Nat) (b : ContentBlock) :
    InPlace (Option Unit) :=
  change (changeColumn row column (changeBlocks fun bs => (some (), insertAt index b bs)))

/-! ## Running the steps -/

section Run

variable {f : List Block → Option (β × List Block)} {e : Editor} {s : Supply}

theorem run_bind (m : InPlace α) (g : α → InPlace β) (e : Editor) (s : Supply) :
    (m >>= g) e s = g (m e s).1.1 (m e s).1.2 (m e s).2 := rfl

theorem run_get (e : Editor) (s : Supply) : (get : InPlace Editor) e s = ((e, e), s) := rfl

theorem run_modify (g : Editor → Editor) (e : Editor) (s : Supply) :
    (modify g : InPlace Unit) e s = (((), g e), s) := rfl

theorem run_lift (m : Minting α) (e : Editor) (s : Supply) :
    (liftM m : InPlace α) e s = (((m s).1, e), (m s).2) := rfl

theorem run_change_none (h : f e.blocks = none) : change (attempt f) e s = ((none, e), s) := by
  have hf : change (attempt f) e s = (((attempt f e.blocks).1,
      { e with blocks := (attempt f e.blocks).2 }), s) := rfl
  rw [hf, attempt, h]

theorem run_change_some {b : β} {blocks : List Block} (h : f e.blocks = some (b, blocks)) :
    change (attempt f) e s = ((some b, { e with blocks }), s) := by
  have hf : change (attempt f) e s = (((attempt f e.blocks).1,
      { e with blocks := (attempt f e.blocks).2 }), s) := rfl
  rw [hf, attempt, h]

/-- A change that is all that an operation can be refused for. -/
theorem run_change_settle {k : Option β → InPlace Answer} {done : β × List Block → Editor}
    (hnone : k none e s = ((.refused, e), s))
    (hsome : ∀ b blocks, k (some b) { e with blocks } s = ((.accepted, done (b, blocks)), s)) :
    (change (attempt f) >>= k) e s = (e.settle ((f e.blocks).map done), s) := by
  rw [run_bind]
  cases h : f e.blocks with
  | none =>
    rw [run_change_none h]
    exact hnone
  | some t =>
    rw [run_change_some h]
    exact hsome t.1 t.2

theorem takeOut_eq (row column id : String) :
    takeOut row column id = change (attempt (takeFromColumn? row column id)) := by
  rw [takeOut, removeNamed_eq, changeBlocks_attempt, changeColumn_attempt]
  rfl

theorem putIn_eq (row column : String) (index : Option Nat) (b : ContentBlock) :
    putIn row column index b = change (attempt fun blocks =>
      (putIntoColumn? row column index b blocks).map fun blocks => ((), blocks)) := by
  have hput : (fun bs => (some (), insertAt index b bs)) =
      attempt fun bs => some ((), insertAt index b bs) := rfl
  rw [putIn, hput, changeBlocks_attempt, changeColumn_attempt]
  congr 2
  funext blocks
  rw [putIntoColumn?]
  cases inColumn? row column (onBlocks fun bs => some ((), insertAt index b bs)) blocks <;> rfl

end Run

/-! ## Programs -/

def addToColumn (row column : String) (kind : Kind) (index : Option Nat) : InPlace Answer := do
  if !kind.canNest then return .refused
  let props ← (defaultProps kind : Minting Members)
  match ← (ContentBlock.make? kind props : Minting (Option ContentBlock)) with
  | none => return .refused
  | some b =>
    match ← putIn row column index b with
    | none => return .refused
    | some () =>
      select b.id
      push
      return .made b.id

def remove (id : String) : InPlace Answer := do
  match ← place? id with
  | none => return .refused
  | some i =>
    let _ ← takeTop i
    deselect id
    push
    return .accepted

def removeFromColumn (row column id : String) : InPlace Answer := do
  match ← takeOut row column id with
  | none => return .refused
  | some _ =>
    deselect id
    push
    return .accepted

def update (id : String) (updates : Members) : InPlace Answer := do
  match ← change (changeAnywhere id updates) with
  | none => return .refused
  | some () =>
    touch
    return .accepted

def updateSettings (updates : Members) : InPlace Answer := do
  match Settings.ofJson? (Editor.overRecord (← get).settings.toJson updates) with
  | none => return .refused
  | some settings =>
    modify fun e => { e with settings }
    touch
    return .accepted

def updateRowStyle (row : String) (updates : Members) : InPlace Answer := do
  match ← change (changeRow row (restyleRow updates)) with
  | none => return .refused
  | some () =>
    push
    return .accepted

def updateColumnStyle (row column : String) (updates : Members) : InPlace Answer := do
  match ← change (changeColumn row column (restyleColumn updates)) with
  | none => return .refused
  | some () =>
    push
    return .accepted

def move (origin target : Nat) : InPlace Answer := do
  match ← change (relocate origin target) with
  | none => return .refused
  | some () =>
    push
    return .accepted

def moveWithinColumn (row column : String) (origin target : Nat) : InPlace Answer := do
  match ← change (changeColumn row column (changeBlocks (relocate origin target))) with
  | none => return .refused
  | some () =>
    push
    return .accepted

def moveNested (row column toRow toColumn id : String) (index : Nat) : InPlace Answer := do
  if (findColumn? toRow toColumn (← get).blocks).isNone then return .refused
  match ← takeOut row column id with
  | none => return .refused
  | some b =>
    let _ ← putIn toRow toColumn (some index) b
    push
    return .accepted

/-- Moves the block of a place at the top level of the tree into a column. -/
def moveTop (origin : Nat) (row column : String) (index : Nat) (blocks : List Block) :
    InPlace Answer := do
  if !(blocks[origin]?.any fun b => !b.isRow && b.kind.canNest) then return .refused
  if (findColumn? row column blocks).isNone then return .refused
  match ← takeTop origin with
  | some (.content b) =>
    let _ ← putIn row column (some index) b
    select b.id
    push
    return .accepted
  | _ => return .refused

def moveIntoColumn (id row column : String) (index : Nat) : InPlace Answer := do
  match ← place? id with
  | none => return .refused
  | some origin => moveTop origin row column index (← get).blocks

def moveToCanvas (row column id : String) (index : Nat) : InPlace Answer := do
  match ← takeOut row column id with
  | none => return .refused
  | some b =>
    select b.id
    putTop index (.content b)
    push
    return .accepted

def duplicate (id : String) : InPlace Answer := do
  match ← place? id with
  | none => return .refused
  | some i =>
    match (← get).blocks[i]? with
    | none => return .refused
    | some b =>
      let copy ← (b.duplicate : Minting Block)
      let _ ← change fun blocks => (some (), blocks.insertIdx (i + 1) copy)
      select copy.id
      push
      return .made copy.id

def duplicateInColumn (row column id : String) : InPlace Answer := do
  match findColumn? row column (← get).blocks with
  | none => return .refused
  | some c =>
    match c.blocks.findIdx? fun b => b.id == id with
    | none => return .refused
    | some i =>
      match c.blocks[i]? with
      | none => return .refused
      | some b =>
        let copy ← (b.duplicate : Minting ContentBlock)
        let _ ← change (changeColumn row column
          (changeBlocks fun bs => (some (), bs.insertIdx (i + 1) copy)))
        select copy.id
        push
        return .made copy.id

def applyPreset (row : String) (preset : Preset) : InPlace Answer := do
  match findRow? row (← get).blocks with
  | none => return .refused
  | some l =>
    let l ← (Editing.applyPreset preset l : Minting RowLayout)
    let _ ← change (changeRow row fun _ => (some (), l))
    push
    return .accepted

def setWidths (row : String) (widths : List String) : InPlace Answer := do
  let changed ← change (changeRow row fun l =>
    (some (), { l with preset := .custom, columns := withWidths widths l.columns }))
  match changed with
  | none => return .refused
  | some () =>
    push
    return .accepted

/-- Makes the tree of a place in the history the present one. -/
def restore (index : Nat) : InPlace Answer := do
  match (← get).history.snapshots[index]? with
  | none => return .refused
  | some blocks =>
    modify fun e => { e with
      blocks, history := { e.history with index }, dirty := true,
      selection := e.selection.withoutBlock }
    return .accepted

def undo : InPlace Answer := do
  if !(← get).history.canUndo then return .refused
  restore ((← get).history.index - 1)

def redo : InPlace Answer := do
  if !(← get).history.canRedo then return .refused
  restore ((← get).history.index + 1)

/-- Puts what is dragged on a target. -/
def dropOn (source : DragSource) (target : DropTarget) : InPlace Answer :=
  match source, target with
  | .palette kind, .canvas index => (Operation.addBlock kind (some index)).run
  | .palette kind, .column row column index => addToColumn row column kind (some index)
  | .canvas id, .canvas index => do
    match ← place? id with
    | none => return .refused
    | some origin => move origin (landingIndex origin index)
  | .canvas id, .column row column index => moveIntoColumn id row column index
  | .nested row column id, .canvas index => moveToCanvas row column id index
  | .nested row column id, .column toRow toColumn index => do
    if row ≠ toRow || column ≠ toColumn then moveNested row column toRow toColumn id index
    else
      match (findColumn? row column (← get).blocks).bind fun c =>
        c.blocks.findIdx? fun b => b.id == id with
      | none => return .refused
      | some origin => moveWithinColumn row column origin (landingIndex origin index)

/-- Ends the drag before anything else. -/
def drop (target : DropTarget) : InPlace Answer := do
  let source := (← get).drag.source
  modify Editor.cancelDrag
  match source with
  | none => return .refused
  | some source =>
    match ← dropOn source target with
    | .refused => return .refused
    | _ => return .accepted

end InPlace

/-- The program of an operation; one that cannot be refused is done at once. -/
def Operation.inPlace : Operation → InPlace Answer
  | addToColumn row column kind index => InPlace.addToColumn row column kind index
  | remove id => InPlace.remove id
  | removeFromColumn row column id => InPlace.removeFromColumn row column id
  | update id updates => InPlace.update id updates
  | updateSettings updates => InPlace.updateSettings updates
  | updateRowStyle row updates => InPlace.updateRowStyle row updates
  | updateColumnStyle row column updates => InPlace.updateColumnStyle row column updates
  | move origin target => InPlace.move origin target
  | moveWithinColumn row column origin target => InPlace.moveWithinColumn row column origin target
  | moveNested row column toRow toColumn id index =>
    InPlace.moveNested row column toRow toColumn id index
  | moveIntoColumn id row column index => InPlace.moveIntoColumn id row column index
  | moveToCanvas row column id index => InPlace.moveToCanvas row column id index
  | duplicate id => InPlace.duplicate id
  | duplicateInColumn row column id => InPlace.duplicateInColumn row column id
  | applyPreset row preset => InPlace.applyPreset row preset
  | setWidths row widths => InPlace.setWidths row widths
  | drop target => InPlace.drop target
  | undo => InPlace.undo
  | redo => InPlace.redo
  | op => op.run

end Letterpress

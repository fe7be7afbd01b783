/-
  Refused operations.

  * There is one lemma for each operation that can be refused: its program does the same as the
    operation.  Those of the moves need that the target is still there when the block is out.
  * `Operation.inPlace_eq_run` puts them together.
  * `refused_leaves_session`: a refused operation changes nothing, and what has no place to go is
    refused.
-/
import Letterpress.Proofs.Editor.History
import Letterpress.Proofs.Editor.InPlace

namespace Letterpress

open Editing InPlace

namespace Operation

/-! ## Adding and removing -/

theorem addToColumn_inPlace (row column : String) (kind : Kind) (index : Option Nat) :
    InPlace.addToColumn row column kind index = (addToColumn row column kind index).run := by
  funext e s
  have hrun : (addToColumn row column kind index).run e s =
    (e.addToColumn? row column kind index >>= fun made => pure (e.settleMade made)) s := rfl
  rw [hrun, InPlace.addToColumn, Editor.addToColumn?]
  cases kind.canNest with
  | false => rfl
  | true =>
    simp only [Bool.not_true, Bool.false_eq_true, if_false, run_bind, run_lift, Minting.bind_run]
    generalize defaultProps kind s = props
    generalize ContentBlock.make? kind props.1 props.2 = made
    obtain ⟨_ | b, s'⟩ := made
    · rfl
    · simp only [putIn_eq]
      cases hput : putIntoColumn? row column index b e.blocks with
      | none =>
        rw [run_bind, run_change_none (by rw [hput]; rfl)]
        rfl
      | some blocks =>
        rw [run_bind, run_change_some (by rw [hput]; rfl)]
        rfl

theorem remove_inPlace (id : String) : InPlace.remove id = (remove id).run := by
  funext e s
  have hrun : (remove id).run e s = (e.settle (e.remove? id), s) := rfl
  have hplace : place? id e s = ((e.blocks.findIdx? fun b => b.id == id, e), s) := rfl
  rw [hrun, Editor.remove?, InPlace.remove, run_bind, hplace]
  cases e.blocks.findIdx? fun b => b.id == id <;> rfl

theorem removeFromColumn_inPlace (row column id : String) :
    InPlace.removeFromColumn row column id = (removeFromColumn row column id).run := by
  funext e s
  have hrun : (removeFromColumn row column id).run e s =
    (e.settle (e.removeFromColumn? row column id), s) := rfl
  rw [hrun, Editor.removeFromColumn?, InPlace.removeFromColumn, takeOut_eq]
  exact run_change_settle rfl fun _ _ => rfl

/-! ## Changing props -/

theorem update_inPlace (id : String) (updates : Members) :
    InPlace.update id updates = (update id updates).run := by
  funext e s
  have hrun : (update id updates).run e s = (e.settle (e.update? id updates), s) := rfl
  have hset : e.update? id updates =
      ((updateAnywhere? id updates e.blocks).map fun l => ((), l)).map fun t =>
        { e with blocks := t.2, dirty := true } := by
    rw [Option.map_map]
    rfl
  rw [hrun, hset, InPlace.update, funext (changeAnywhere_eq id updates)]
  exact run_change_settle rfl fun _ _ => rfl

theorem updateSettings_inPlace (updates : Members) :
    InPlace.updateSettings updates = (updateSettings updates).run := by
  funext e s
  have hrun : (updateSettings updates).run e s = (e.settle (e.updateSettings? updates), s) := rfl
  rw [hrun, Editor.updateSettings?, InPlace.updateSettings, run_bind, run_get]
  cases Settings.ofJson? (Editor.overRecord e.settings.toJson updates) <;> rfl

theorem updateRowStyle_inPlace (row : String) (updates : Members) :
    InPlace.updateRowStyle row updates = (updateRowStyle row updates).run := by
  funext e s
  have hrun : (updateRowStyle row updates).run e s =
    (e.settle (e.updateRowStyle? row updates), s) := rfl
  rw [hrun, Editor.updateRowStyle?, InPlace.updateRowStyle, restyleRow_eq, changeRow_attempt]
  exact run_change_settle rfl fun _ _ => rfl

theorem updateColumnStyle_inPlace (row column : String) (updates : Members) :
    InPlace.updateColumnStyle row column updates =
      (updateColumnStyle row column updates).run := by
  funext e s
  have hrun : (updateColumnStyle row column updates).run e s =
    (e.settle (e.updateColumnStyle? row column updates), s) := rfl
  rw [hrun, Editor.updateColumnStyle?, InPlace.updateColumnStyle, restyleColumn_eq,
    changeColumn_attempt]
  exact run_change_settle rfl fun _ _ => rfl

/-! ## Moving -/

theorem move_inPlace (origin target : Nat) :
    InPlace.move origin target = (move origin target).run := by
  funext e s
  have hrun : (move origin target).run e s = (e.settle (e.move? origin target), s) := rfl
  have hmove : e.move? origin target =
      ((reorder? origin target e.blocks).map fun l => ((), l)).map fun t => e.record t.2 := by
    rw [Option.map_map]
    rfl
  rw [hrun, hmove, InPlace.move, funext (relocate_eq origin target)]
  exact run_change_settle rfl fun _ _ => rfl

theorem moveWithinColumn_inPlace (row column : String) (origin target : Nat) :
    InPlace.moveWithinColumn row column origin target =
      (moveWithinColumn row column origin target).run := by
  funext e s
  have hrun : (moveWithinColumn row column origin target).run e s =
    (e.settle (e.moveWithinColumn? row column origin target), s) := rfl
  rw [hrun, Editor.moveWithinColumn?, InPlace.moveWithinColumn,
    funext (relocate_eq origin target), changeBlocks_attempt, changeColumn_attempt]
  exact run_change_settle rfl fun _ _ => rfl

theorem moveNested_inPlace (row column toRow toColumn id : String) (index : Nat) :
    InPlace.moveNested row column toRow toColumn id index =
      (moveNested row column toRow toColumn id index).run := by
  funext e s
  have hrun : (moveNested row column toRow toColumn id index).run e s =
    (e.settle (e.moveNested? row column toRow toColumn id index), s) := rfl
  rw [hrun, Editor.moveNested?, Editing.moveNested?]
  rw [InPlace.moveNested, run_bind, run_get, takeOut_eq]
  cases hfound : findColumn? toRow toColumn e.blocks with
  | none => rfl
  | some c =>
    rw [if_neg (by simp)]
    cases htake : takeFromColumn? row column id e.blocks with
    | none =>
      rw [run_bind, run_change_none htake]
      rfl
    | some t =>
      obtain ⟨b, rest⟩ := t
      -- The target is still there when the block is out.
      have hstill : (putIntoColumn? toRow toColumn (some index) b rest).isSome := by
        rw [isSome_putIntoColumn?, isSome_findColumn?, outline_of_takeFromColumn? htake,
          ← isSome_findColumn?, hfound]
        rfl
      obtain ⟨blocks, hput⟩ := Option.isSome_iff_exists.mp hstill
      rw [run_bind, run_change_some htake]
      simp only [putIn_eq]
      rw [run_bind, run_change_some (by rw [hput]; rfl)]
      simp only [Option.bind_eq_bind, Option.bind_some, hput]
      rfl

theorem moveIntoColumn_inPlace (id row column : String) (index : Nat) :
    InPlace.moveIntoColumn id row column index = (moveIntoColumn id row column index).run := by
  funext e s
  have hrun : (moveIntoColumn id row column index).run e s =
    (e.settle (e.moveIntoColumn? id row column index), s) := rfl
  have hplace : place? id e s = ((e.blocks.findIdx? fun b => b.id == id, e), s) := rfl
  rw [hrun, Editor.moveIntoColumn?, InPlace.moveIntoColumn, run_bind, hplace]
  cases e.blocks.findIdx? fun b => b.id == id with
  | none => rfl
  | some origin =>
    have htop : (get >>= fun e => moveTop origin row column index e.blocks : InPlace Answer) e s =
      moveTop origin row column index e.blocks e s := rfl
    refine htop.trans ?_
    rw [moveTop]
    simp only [Option.bind_eq_bind, Option.bind_some]
    rcases Option.eq_none_or_eq_some e.blocks[origin]? with hget | ⟨b | ⟨rowId, l⟩, hget⟩
    · rw [if_pos (by rw [hget]; rfl), hget]
      rfl
    · cases hkind : b.kind.canNest with
      | false =>
        rw [if_pos (by simp [hget, Block.kind, hkind]), hget]
        simp only [Option.bind_some, hkind]
        rfl
      | true =>
        rw [if_neg (by simp [hget, Block.kind, hkind, Block.isRow, Block.row?])]
        rcases Option.eq_none_or_eq_some (findColumn? row column e.blocks) with hc | ⟨c, hc⟩
        · rw [if_pos (by rw [hc]; rfl), hget]
          simp only [Option.bind_some, hkind, hc]
          rfl
        · -- No row goes out with a content block, so the target is still there.
          have hstill :
              (putIntoColumn? row column (some index) b (e.blocks.eraseIdx origin)).isSome := by
            rw [isSome_putIntoColumn?, isSome_findColumn?, outline_eraseIdx hget,
              ← isSome_findColumn?, hc]
            rfl
          obtain ⟨blocks, hput⟩ := Option.isSome_iff_exists.mp hstill
          have htake : takeTop origin e s =
              ((some (.content b), { e with blocks := e.blocks.eraseIdx origin }), s) := by
            rw [← hget]
            rfl
          rw [if_neg (by simp [hc]), run_bind, htake]
          simp only [putIn_eq]
          rw [run_bind, run_change_some (by rw [hput]; rfl), hget]
          simp only [Option.bind_some, hkind, hc, hput]
          rfl
    · rw [if_pos (by rw [hget]; rfl), hget]
      rfl

theorem moveToCanvas_inPlace (row column id : String) (index : Nat) :
    InPlace.moveToCanvas row column id index = (moveToCanvas row column id index).run := by
  funext e s
  have hrun : (moveToCanvas row column id index).run e s =
    (e.settle (e.moveToCanvas? row column id index), s) := rfl
  rw [hrun, Editor.moveToCanvas?, InPlace.moveToCanvas, takeOut_eq]
  exact run_change_settle rfl fun _ _ => rfl

/-! ## Duplicating -/

theorem duplicate_inPlace (id : String) : InPlace.duplicate id = (duplicate id).run := by
  funext e s
  have hplace : place? id e s = ((e.blocks.findIdx? fun b => b.id == id, e), s) := rfl
  have hrun : (duplicate id).run e s =
    (e.duplicate? id >>= fun made => pure (e.settleMade made)) s := rfl
  rw [hrun, InPlace.duplicate, run_bind, hplace, Editor.duplicate?, Minting.bind_run]
  cases e.blocks.findIdx? fun b => b.id == id with
  | none => rfl
  | some i =>
    simp only [run_bind, run_get]
    cases e.blocks[i]? <;> rfl

theorem duplicateInColumn_inPlace (row column id : String) :
    InPlace.duplicateInColumn row column id = (duplicateInColumn row column id).run := by
  funext e s
  have hrun : (duplicateInColumn row column id).run e s =
    (e.duplicateInColumn? row column id >>= fun made => pure (e.settleMade made)) s := rfl
  rw [hrun, InPlace.duplicateInColumn, run_bind, run_get, Editor.duplicateInColumn?,
    Minting.bind_run]
  rcases Option.eq_none_or_eq_some (findColumn? row column e.blocks) with hc | ⟨c, hc⟩
  · simp only [hc]
    rfl
  · simp only [hc, Option.bind_some, Column.find?, List.find?_eq_bind_findIdx?_getElem?]
    cases hi : c.blocks.findIdx? fun b => b.id == id with
    | none => rfl
    | some i =>
      cases hget : c.blocks[i]? with
      | none => simp only [Option.bind_some, hget]; rfl
      | some b =>
        have hcopy : inColumn? row column (onBlocks (Editor.withCopy? id (mint s).1)) e.blocks =
            inColumn? row column
              (onBlocks fun bs => some ((), bs.insertIdx (i + 1) (b.duplicate s).1)) e.blocks := by
          refine inColumn?_congr fun c' hc' => ?_
          rw [hc] at hc'
          cases hc'
          simp only [onBlocks, Editor.withCopy?, hi, Option.bind_eq_bind, Option.bind_some, hget]
          rfl
        have hset : (fun bs : List ContentBlock =>
            (some (), bs.insertIdx (i + 1) (b.duplicate s).1)) =
          attempt fun bs => some ((), bs.insertIdx (i + 1) (b.duplicate s).1) := rfl
        have hstill : (inColumn? row column
            (onBlocks fun bs => some ((), bs.insertIdx (i + 1) (b.duplicate s).1))
            e.blocks).isSome := by
          rw [isSome_inColumn?, hc]
          rfl
        obtain ⟨t, ht⟩ := Option.isSome_iff_exists.mp hstill
        simp only [Option.bind_some, hget, run_bind, run_lift, Minting.bind_run, hcopy, hset,
          changeBlocks_attempt, changeColumn_attempt, run_change_some ht, ht]
        rfl

/-! ## Column layouts -/

theorem applyPreset_inPlace (row : String) (preset : Preset) :
    InPlace.applyPreset row preset = (applyPreset row preset).run := by
  funext e s
  have hrun : (applyPreset row preset).run e s =
    (e.applyPreset? row preset >>= fun changed => pure (e.settle changed)) s := rfl
  rw [hrun, InPlace.applyPreset, run_bind, run_get, Editor.applyPreset?, Minting.bind_run]
  cases hfound : findRow? row e.blocks with
  | none => rfl
  | some l =>
    simp only [run_bind, run_lift, Minting.bind_run]
    generalize Editing.applyPreset preset l s = made
    have hset : (fun _ : RowLayout => (some (), made.1)) =
        attempt fun _ => some ((), made.1) := rfl
    have hstill : (inRow? row (fun _ => some ((), made.1)) e.blocks).isSome := by
      rw [isSome_inRow?, hfound]
      rfl
    obtain ⟨t, ht⟩ := Option.isSome_iff_exists.mp hstill
    rw [hset, changeRow_attempt, run_change_some ht, ht]
    rfl

theorem setWidths_inPlace (row : String) (widths : List String) :
    InPlace.setWidths row widths = (setWidths row widths).run := by
  funext e s
  have hrun : (setWidths row widths).run e s = (e.settle (e.setWidths? row widths), s) := rfl
  have hset : (fun l : RowLayout =>
      (some (), { l with preset := .custom, columns := withWidths widths l.columns })) =
    attempt fun l =>
      some ((), { l with preset := .custom, columns := withWidths widths l.columns }) := rfl
  rw [hrun, Editor.setWidths?, InPlace.setWidths, hset, changeRow_attempt]
  exact run_change_settle rfl fun _ _ => rfl

/-! ## History -/

theorem restore_eq (index : Nat) (e : Editor) (s : Supply) :
    restore index e s = (e.settle ((e.history.restore? index).map e.restored), s) := by
  rw [restore, run_bind, run_get, History.restore?]
  cases e.history.snapshots[index]? <;> rfl

theorem undo_inPlace : InPlace.undo = undo.run := by
  funext e s
  have hrun : undo.run e s = (e.settle e.undo?, s) := rfl
  rw [hrun, Editor.undo?, History.undo?, InPlace.undo, run_bind, run_get]
  cases e.history.canUndo with
  | false => rfl
  | true => exact restore_eq (e.history.index - 1) e s

theorem redo_inPlace : InPlace.redo = redo.run := by
  funext e s
  have hrun : redo.run e s = (e.settle e.redo?, s) := rfl
  rw [hrun, Editor.redo?, History.redo?, InPlace.redo, run_bind, run_get]
  cases e.history.canRedo with
  | false => rfl
  | true => exact restore_eq (e.history.index + 1) e s

/-! ## Dropping -/

/-- The answer says whether there is a changed session, and the program leaves that one. -/
def Reports (e : Editor) (changed : Option Editor) (r : Answer × Editor) : Prop :=
  (r.1 = .refused ↔ changed = none) ∧ r.2 = changed.getD e

theorem settle_reports (e : Editor) (changed : Option Editor) :
    Reports e changed (e.settle changed) := by
  cases changed with
  | none => exact ⟨by simp [Editor.settle], rfl⟩
  | some e' => exact ⟨by simp [Editor.settle], rfl⟩

theorem settleMade_reports (e : Editor) (made : Option (String × Editor)) :
    Reports e (made.map (·.2)) (e.settleMade made) := by
  cases made with
  | none => exact ⟨by simp [Editor.settleMade], rfl⟩
  | some m => exact ⟨by simp [Editor.settleMade], rfl⟩

theorem dropOn_reports (source : DragSource) (target : DropTarget) (e : Editor) (s : Supply) :
    Reports e (e.dropOn? source target s).1 (dropOn source target e s).1 ∧
      (dropOn source target e s).2 = (e.dropOn? source target s).2 := by
  match source, target with
  | .palette kind, .canvas index =>
    have hanswer : (dropOn (.palette kind) (.canvas index) e s).1.1 =
      .made (e.addBlock kind (some index) s).1.1 := rfl
    have hchanged : (e.dropOn? (.palette kind) (.canvas index) s).1 =
      some (e.addBlock kind (some index) s).1.2 := rfl
    refine ⟨⟨?_, rfl⟩, rfl⟩
    rw [hanswer, hchanged]
    exact iff_of_false nofun nofun
  | .palette kind, .column row column index =>
    rw [dropOn, addToColumn_inPlace]
    exact ⟨settleMade_reports e (e.addToColumn? row column kind (some index) s).1, rfl⟩
  | .canvas id, .canvas index =>
    have hplace : place? id e s = ((e.blocks.findIdx? fun b => b.id == id, e), s) := rfl
    rw [dropOn, run_bind, hplace, Editor.dropOn?]
    cases e.blocks.findIdx? fun b => b.id == id with
    | none => exact ⟨⟨iff_of_true rfl rfl, rfl⟩, rfl⟩
    | some origin =>
      simp only [move_inPlace]
      exact ⟨settle_reports e _, rfl⟩
  | .canvas id, .column row column index =>
    rw [dropOn, moveIntoColumn_inPlace]
    exact ⟨settle_reports e _, rfl⟩
  | .nested row column id, .canvas index =>
    rw [dropOn, moveToCanvas_inPlace]
    exact ⟨settle_reports e _, rfl⟩
  | .nested row column id, .column toRow toColumn index =>
    have hdrop : e.dropOn? (.nested row column id) (.column toRow toColumn index) s =
      (e.dropNested? row column toRow toColumn id index, s) := rfl
    rw [dropOn, hdrop, Editor.dropNested?]
    by_cases hother : (row ≠ toRow || column ≠ toColumn) = true
    · rw [if_pos hother, if_pos hother]
      rw [moveNested_inPlace]
      exact ⟨settle_reports e (e.moveNested? row column toRow toColumn id index), rfl⟩
    · rw [if_neg hother, if_neg hother, run_bind, run_get]
      cases findColumn? row column e.blocks with
      | none => exact ⟨⟨iff_of_true rfl rfl, rfl⟩, rfl⟩
      | some c =>
        simp only [Option.bind_eq_bind, Option.bind_some]
        cases c.blocks.findIdx? fun b => b.id == id with
        | none => exact ⟨⟨iff_of_true rfl rfl, rfl⟩, rfl⟩
        | some origin =>
          simp only [moveWithinColumn_inPlace]
          exact ⟨settle_reports e _, rfl⟩

theorem drop_inPlace (target : DropTarget) : InPlace.drop target = (drop target).run := by
  funext e s
  have hrun : (drop target).run e s = (((if (e.drop target s).1.1 then .accepted else .refused),
    (e.drop target s).1.2), (e.drop target s).2) := rfl
  rw [hrun, InPlace.drop, run_bind, run_get, run_bind, run_modify]
  cases hsource : e.drag.source with
  | none =>
    have hdrop : e.drop target s = ((false, e.cancelDrag), s) := by
      rw [Editor.drop, hsource]
      rfl
    rw [hdrop]
    rfl
  | some source =>
    obtain ⟨⟨hanswer, hleft⟩, hsupply⟩ := dropOn_reports source target e.cancelDrag s
    simp only [run_bind]
    rcases Option.eq_none_or_eq_some (e.cancelDrag.dropOn? source target s).1 with hd | ⟨e', hd⟩
    · have hdrop : e.drop target s =
          ((false, e.cancelDrag), (e.cancelDrag.dropOn? source target s).2) := by
        rw [Editor.drop, hsource]
        simp only [Minting.bind_run, hd]
        rfl
      rw [hdrop, hsupply, hleft, hanswer.mpr hd, hd]
      rfl
    · have hdrop : e.drop target s = ((true, e'), (e.cancelDrag.dropOn? source target s).2) := by
        rw [Editor.drop, hsource]
        simp only [Minting.bind_run, hd]
        rfl
      have hne : (dropOn source target e.cancelDrag s).1.1 ≠ .refused := by
        rw [ne_eq, hanswer, hd]
        exact Option.some_ne_none e'
      rw [hdrop, hsupply, hleft, hd]
      cases h : (dropOn source target e.cancelDrag s).1.1 with
      | refused => exact absurd h hne
      | done => rfl
      | made id => rfl
      | accepted => rfl

end Operation

/-! ## Targets that are not there -/

namespace Editor

variable {e : Editor} {row column toRow toColumn id : String}

theorem addToColumn?_eq_none {kind : Kind} {index : Option Nat} {s : Supply}
    (h : findColumn? row column e.blocks = none) :
    (e.addToColumn? row column kind index s).1 = none := by
  have hput : ∀ b, putIntoColumn? row column index b e.blocks = none := by
    intro b
    rw [← Option.not_isSome_iff_eq_none, isSome_putIntoColumn?, h]
    simp
  rw [Editor.addToColumn?]
  cases kind.canNest with
  | false => rfl
  | true =>
    simp only [Bool.not_true, Bool.false_eq_true, if_false, Minting.bind_run]
    cases (ContentBlock.make? kind (defaultProps kind s).1 (defaultProps kind s).2).1 with
    | none => rfl
    | some b => exact congrArg (Option.map _) (hput b)

theorem moveNested?_eq_none {index : Nat} (h : findColumn? toRow toColumn e.blocks = none) :
    e.moveNested? row column toRow toColumn id index = none := by
  rw [Editor.moveNested?, Editing.moveNested?, h]
  rfl

theorem moveIntoColumn?_eq_none {index : Nat} (h : findColumn? row column e.blocks = none) :
    e.moveIntoColumn? id row column index = none := by
  rw [Option.eq_none_iff_forall_not_mem]
  intro e' he'
  obtain ⟨origin, b, blocks, -, hb, hput, -⟩ := Editor.moveIntoColumn?_eq_some he'
  have hsome := Option.isSome_of_mem hput
  rw [isSome_putIntoColumn?, isSome_findColumn?, outline_eraseIdx hb, ← isSome_findColumn?,
    h] at hsome
  cases hsome

theorem update?_eq_none {updates : Members} {b : Block}
    (hb : (e.blocks.find? fun b => b.id == id) = some b) (h : b.mergeProps? updates = none) :
    e.update? id updates = none := by
  have hid := List.find?_some hb
  have hany : (e.blocks.any fun b => b.id == id) = true :=
    List.any_eq_true.mpr ⟨b, List.mem_of_find?_eq_some hb, hid⟩
  have hfirst : modifyFirst? (fun b => b.id == id)
      (fun b => (b.mergeProps? updates).map fun b => ((), b)) e.blocks = none := by
    rw [← Option.not_isSome_iff_eq_none, isSome_modifyFirst?, hb]
    simp [h]
  rw [Editor.update?, updateAnywhere?, if_pos hany, hfirst]
  rfl

end Editor

/-! ## Refusal -/

namespace Operation

/-- Doing an operation in place and giving the new session are the same. -/
theorem inPlace_eq_run (op : Operation) : op.inPlace = op.run := by
  cases op with
  | addToColumn row column kind index => exact addToColumn_inPlace row column kind index
  | remove id => exact remove_inPlace id
  | removeFromColumn row column id => exact removeFromColumn_inPlace row column id
  | update id updates => exact update_inPlace id updates
  | updateSettings updates => exact updateSettings_inPlace updates
  | updateRowStyle row updates => exact updateRowStyle_inPlace row updates
  | updateColumnStyle row column updates => exact updateColumnStyle_inPlace row column updates
  | move origin target => exact move_inPlace origin target
  | moveWithinColumn row column origin target =>
    exact moveWithinColumn_inPlace row column origin target
  | moveNested row column toRow toColumn id index =>
    exact moveNested_inPlace row column toRow toColumn id index
  | moveIntoColumn id row column index => exact moveIntoColumn_inPlace id row column index
  | moveToCanvas row column id index => exact moveToCanvas_inPlace row column id index
  | duplicate id => exact duplicate_inPlace id
  | duplicateInColumn row column id => exact duplicateInColumn_inPlace row column id
  | applyPreset row preset => exact applyPreset_inPlace row preset
  | setWidths row widths => exact setWidths_inPlace row widths
  | drop target => exact drop_inPlace target
  | undo => exact undo_inPlace
  | redo => exact redo_inPlace
  | _ => rfl

/-- The session as an operation finds it when it looks at the tree: a drop ends the drag first. -/
def opening : Operation → Editor → Editor
  | drop _, e => e.cancelDrag
  | _, e => e

theorem settle_of_refused {e : Editor} {changed : Option Editor}
    (h : (e.settle changed).1 = .refused) : (e.settle changed).2 = e := by
  cases changed with
  | none => rfl
  | some e' => cases h

theorem settleMade_of_refused {e : Editor} {made : Option (String × Editor)}
    (h : (e.settleMade made).1 = .refused) : (e.settleMade made).2 = e := by
  cases made with
  | none => rfl
  | some m => cases h

theorem run_of_refused {op : Operation} {e : Editor} {s : Supply}
    (h : (op.run e s).1.1 = .refused) : (op.run e s).1.2 = op.opening e := by
  cases op with
  | addToColumn row column kind index => exact settleMade_of_refused h
  | duplicate id => exact settleMade_of_refused h
  | duplicateInColumn row column id => exact settleMade_of_refused h
  | drop target =>
    cases hchanged : (e.drop target s).1.1 with
    | false => exact (Editor.drop_recorded target s).2 hchanged
    | true =>
      have hrun : ((drop target).run e s).1.1 =
        if (e.drop target s).1.1 then .accepted else .refused := rfl
      rw [hrun, hchanged] at h
      cases h
  | addBlock kind index => cases h
  | paste added replacing => cases h
  | selectBlock id => cases h
  | selectColumn column => cases h
  | hover id => cases h
  | startDrag source => cases h
  | aim target => cases h
  | cancelDrag => cases h
  | markClean => cases h
  | _ => exact settle_of_refused h

/-- The operation has a target that is not there, or props that do not fit the row. -/
def Misfits : Operation → Editor → Prop
  | addToColumn row column _ _, e => findColumn? row column e.blocks = none
  | moveNested _ _ toRow toColumn _ _, e => findColumn? toRow toColumn e.blocks = none
  | moveIntoColumn _ row column _, e => findColumn? row column e.blocks = none
  | update id updates, e =>
    ∃ b, (e.blocks.find? fun b => b.id == id) = some b ∧ b.mergeProps? updates = none
  | _, _ => False

theorem run_of_misfits {op : Operation} {e : Editor} {s : Supply} (h : op.Misfits e) :
    (op.run e s).1.1 = .refused := by
  cases op with
  | addToColumn row column kind index =>
    show (e.settleMade (e.addToColumn? row column kind index s).1).1 = .refused
    rw [Editor.addToColumn?_eq_none h]
    rfl
  | moveNested row column toRow toColumn id index =>
    show (e.settle (e.moveNested? row column toRow toColumn id index)).1 = .refused
    rw [Editor.moveNested?_eq_none h]
    rfl
  | moveIntoColumn id row column index =>
    show (e.settle (e.moveIntoColumn? id row column index)).1 = .refused
    rw [Editor.moveIntoColumn?_eq_none h]
    rfl
  | update id updates =>
    obtain ⟨b, hb, hmerge⟩ := h
    show (e.settle (e.update? id updates)).1 = .refused
    rw [Editor.update?_eq_none hb hmerge]
    rfl
  | _ => cases h

/-- **A refused operation changes nothing**: even when it is done in place, where a block that has
    been taken out could be lost, it leaves the session as it was, except that a drop ends the drag.
    What has no place to go is refused. -/
theorem refused_leaves_session (op : Operation) (e : Editor) (s : Supply) :
    op.inPlace e s = op.run e s ∧
      (op.Misfits e → (op.inPlace e s).1.1 = .refused) ∧
      ((op.inPlace e s).1.1 = .refused → (op.inPlace e s).1.2 = op.opening e) := by
  rw [inPlace_eq_run]
  exact ⟨rfl, run_of_misfits, run_of_refused⟩

/-- A block that is dragged from its column to a row that is not there stays where it is. -/
theorem refused_leaves_session_of_lost_target :
    let block : ContentBlock := ⟨"a", .text, []⟩
    let columns : List Column := [⟨"c", "100%", [block], none⟩]
    let row : Block := .row "r" ⟨.oneColumn, columns, RowLayout.initialGap, true, .initial⟩
    let e := (Editor.start [row] .initial).startDrag (.nested "r" "c" "a")
    let op := drop (.column "gone" "c" 0)
    (op.inPlace e ⟨Nat.repr, 0⟩).1.1 = .refused ∧
      (op.inPlace e ⟨Nat.repr, 0⟩).1.2 = { e with drag := .none } ∧
      (moveNested "r" "c" "gone" "c" "a" 0).Misfits e ∧
      ((moveNested "r" "c" "gone" "c" "a" 0).inPlace e ⟨Nat.repr, 0⟩).1.1 = .refused :=
  ⟨rfl, (refused_leaves_session _ _ _).2.2 rfl, rfl, (refused_leaves_session _ _ _).2.1 rfl⟩

end Operation

end Letterpress

/-
  What the operations of a session do to its history.

  * `Editor.RecordsTo e e'`: the second session has one more record than the first one, of its own
    tree.  `Editor.Recorded e e'`: besides, it says that this is not saved.  There is one lemma for
    each operation that changes the structure of the tree.
  * `Operation.run_recorded`: such an operation leads to a session of this kind, or is refused.
  * `Operation.run_recordsIf`: an operation that does not travel adds such a record when it is
    structural and not refused, and leaves the history as it is otherwise.
-/
import Letterpress.Proofs.Block.Minting
import Letterpress.Proofs.Editor.Operation

namespace Letterpress

open Minting Editing

/-! ## Records -/

namespace Editor

variable {e e' : Editor} {row column toRow toColumn id : String}

/-- The second session comes from the first one by a single record, of its own tree. -/
def RecordsTo (e e' : Editor) : Prop := e'.history = e.history.record e'.blocks

/-- The second session comes from the first one by a record that is not saved. -/
structure Recorded (e e' : Editor) : Prop where
  history : e.RecordsTo e'
  dirty : e'.dirty = true

theorem recorded_record {blocks : List Block} {e₀ : Editor} (h : e₀.history = e.history) :
    e.Recorded (e₀.record blocks) :=
  ⟨congrArg (History.record blocks) h, rfl⟩

theorem Recorded.of_map {α : Type} {o : Option α} {e₀ : Editor} {blocks : α → List Block}
    (h : o.map (fun a => e₀.record (blocks a)) = some e') (h₀ : e₀.history = e.history) :
    e.Recorded e' := by
  obtain ⟨a, -, rfl⟩ := Option.map_eq_some_iff.mp h
  exact recorded_record h₀

theorem addBlock_recorded (kind : Kind) (index : Option Nat) :
    Ensures (e.addBlock kind index) fun made => e.Recorded made.2 :=
  ensures_bind fun _ => ensures_pure (recorded_record (by rfl))

theorem addToColumn?_recorded (kind : Kind) (index : Option Nat) :
    Ensures (e.addToColumn? row column kind index) fun made => ∀ m ∈ made, e.Recorded m.2 := by
  rw [addToColumn?]
  split
  · exact ensures_pure (by rintro m ⟨⟩)
  · refine ensures_bind fun props => ensures_bind fun b => ?_
    split
    · exact ensures_pure (by rintro m ⟨⟩)
    · refine ensures_pure fun m hm => ?_
      obtain ⟨blocks, -, rfl⟩ := Option.map_eq_some_iff.mp hm
      exact recorded_record (by rfl)

theorem remove?_recorded (h : e.remove? id = some e') : e.Recorded e' :=
  .of_map h (by rfl)

theorem removeFromColumn?_recorded (h : e.removeFromColumn? row column id = some e') :
    e.Recorded e' :=
  .of_map h (by rfl)

theorem updateRowStyle?_recorded {updates : Members} (h : e.updateRowStyle? row updates = some e') :
    e.Recorded e' :=
  .of_map h (by rfl)

theorem updateColumnStyle?_recorded {updates : Members}
    (h : e.updateColumnStyle? row column updates = some e') : e.Recorded e' :=
  .of_map h (by rfl)

theorem move?_recorded {origin target : Nat} (h : e.move? origin target = some e') :
    e.Recorded e' :=
  .of_map h (by rfl)

theorem moveWithinColumn?_recorded {origin target : Nat}
    (h : e.moveWithinColumn? row column origin target = some e') : e.Recorded e' :=
  .of_map h (by rfl)

theorem moveNested?_recorded {index : Nat}
    (h : e.moveNested? row column toRow toColumn id index = some e') : e.Recorded e' :=
  .of_map h (by rfl)

/-- What a block that moves into a column was, and where it goes. -/
theorem moveIntoColumn?_eq_some {index : Nat}
    (h : e.moveIntoColumn? id row column index = some e') :
    ∃ origin b blocks, (e.blocks.findIdx? fun b => b.id == id) = some origin ∧
      e.blocks[origin]? = some (.content b) ∧
      putIntoColumn? row column (some index) b (e.blocks.eraseIdx origin) = some blocks ∧
      e' = (e.select b.id).record blocks := by
  simp only [moveIntoColumn?, Option.bind_eq_bind, Option.bind_eq_some_iff] at h
  obtain ⟨origin, hfind, b, hb, h⟩ := h
  split at h
  · cases h
  · split at h
    · cases h
    · simp only [Option.bind_eq_some_iff] at h
      obtain ⟨_, -, blocks, hblocks, ⟨⟩⟩ := h
      exact ⟨origin, _, blocks, hfind, hb, hblocks, rfl⟩

theorem moveIntoColumn?_recorded {index : Nat}
    (h : e.moveIntoColumn? id row column index = some e') : e.Recorded e' := by
  obtain ⟨_, b, blocks, -, -, -, rfl⟩ := moveIntoColumn?_eq_some h
  exact recorded_record (by rfl)

theorem moveToCanvas?_recorded {index : Nat} (h : e.moveToCanvas? row column id index = some e') :
    e.Recorded e' := by
  obtain ⟨⟨b, blocks⟩, -, rfl⟩ := Option.map_eq_some_iff.mp h
  exact recorded_record (by rfl)

theorem duplicate?_recorded (id : String) :
    Ensures (e.duplicate? id) fun made => ∀ m ∈ made, e.Recorded m.2 := by
  rw [duplicate?]
  split
  · exact ensures_pure (by rintro m ⟨⟩)
  · split
    · exact ensures_pure (by rintro m ⟨⟩)
    · refine ensures_bind fun copy => ensures_pure ?_
      rintro m ⟨⟩
      exact recorded_record (by rfl)

theorem duplicateInColumn?_recorded (row column id : String) :
    Ensures (e.duplicateInColumn? row column id) fun made => ∀ m ∈ made, e.Recorded m.2 := by
  rw [duplicateInColumn?]
  split
  · exact ensures_pure (by rintro m ⟨⟩)
  · refine ensures_bind fun copyId => ensures_pure fun m hm => ?_
    obtain ⟨blocks, -, rfl⟩ := Option.map_eq_some_iff.mp hm
    exact recorded_record (by rfl)

theorem applyPreset?_recorded (row : String) (preset : Preset) :
    Ensures (e.applyPreset? row preset) fun changed => ∀ e' ∈ changed, e.Recorded e' := by
  rw [applyPreset?]
  split
  · exact ensures_pure (by rintro e' ⟨⟩)
  · exact ensures_bind fun l => ensures_pure fun e' he' => .of_map he' (by rfl)

theorem setWidths?_recorded {widths : List String} (h : e.setWidths? row widths = some e') :
    e.Recorded e' :=
  .of_map h (by rfl)

theorem paste_recorded (added : List Block) (replacing : Bool) :
    Ensures (e.paste added replacing) e.Recorded :=
  ensures_bind fun _ => ensures_pure (recorded_record (by rfl))

theorem dropNested?_recorded {index : Nat}
    (h : e.dropNested? row column toRow toColumn id index = some e') : e.Recorded e' := by
  rw [dropNested?] at h
  split at h
  · exact moveNested?_recorded h
  · simp only [Option.bind_eq_bind, Option.bind_eq_some_iff] at h
    obtain ⟨c, -, origin, -, h⟩ := h
    exact moveWithinColumn?_recorded h

theorem dropOn?_recorded (source : DragSource) (target : DropTarget) :
    Ensures (e.dropOn? source target) fun changed => ∀ e' ∈ changed, e.Recorded e' := by
  match source, target with
  | .palette kind, .canvas index =>
    intro s e' he'
    cases he'
    exact addBlock_recorded kind (some index) s
  | .palette kind, .column row column index =>
    intro s e' he'
    obtain ⟨made, hmade, rfl⟩ := Option.map_eq_some_iff.mp he'
    exact addToColumn?_recorded kind (some index) s made hmade
  | .canvas id, .canvas index =>
    refine ensures_pure fun e' he' => ?_
    simp only [Option.bind_eq_bind, Option.mem_def, Option.bind_eq_some_iff] at he'
    obtain ⟨origin, -, h⟩ := he'
    exact move?_recorded h
  | .canvas id, .column row column index =>
    exact ensures_pure fun e' he' => moveIntoColumn?_recorded he'
  | .nested row column id, .canvas index =>
    exact ensures_pure fun e' he' => moveToCanvas?_recorded he'
  | .nested row column id, .column toRow toColumn index =>
    exact ensures_pure fun e' he' => dropNested?_recorded he'

/-- A drop records what it changes; one that changes nothing ends the drag alone. -/
theorem drop_recorded (target : DropTarget) :
    Ensures (e.drop target) fun d =>
      (d.1 = true → e.Recorded d.2) ∧ (d.1 = false → d.2 = e.cancelDrag) := by
  rw [drop]
  split
  · exact ensures_pure ⟨by simp, fun _ => rfl⟩
  · rename_i source _
    refine (@dropOn?_recorded e.cancelDrag source target).bind fun changed hchanged => ?_
    cases changed with
    | none => exact ensures_pure ⟨by simp, fun _ => rfl⟩
    | some e' =>
      obtain ⟨hhistory, hdirty⟩ := hchanged e' rfl
      exact ensures_pure ⟨fun _ => ⟨hhistory, hdirty⟩, by simp⟩

/-! ## Answers -/

/-- A structural operation has added a record, or is refused and leaves the history. -/
structure RecordedUnlessRefused (e : Editor) (r : Answer × Editor) : Prop where
  recorded : r.1 ≠ .refused → e.Recorded r.2
  kept : r.1 = .refused → r.2.history = e.history

theorem Recorded.unlessRefused {a : Answer} (h : e.Recorded e') (ha : a ≠ .refused) :
    e.RecordedUnlessRefused (a, e') :=
  ⟨fun _ => h, fun hrefused => absurd hrefused ha⟩

theorem settle_recorded {changed : Option Editor} (h : ∀ e' ∈ changed, e.Recorded e') :
    e.RecordedUnlessRefused (e.settle changed) := by
  cases changed with
  | none => exact ⟨fun hne => absurd rfl hne, fun _ => rfl⟩
  | some e' => exact (h e' rfl).unlessRefused (by decide)

theorem settleMade_recorded {made : Option (String × Editor)} (h : ∀ m ∈ made, e.Recorded m.2) :
    e.RecordedUnlessRefused (e.settleMade made) := by
  cases made with
  | none => exact ⟨fun hne => absurd rfl hne, fun _ => rfl⟩
  | some m => exact (h m rfl).unlessRefused (by simp)

/-- The history after an operation: a structural one that is not refused has added a record. -/
def RecordsIf (structural : Bool) (e : Editor) (r : Answer × Editor) : Prop :=
  r.2.history = if structural && r.1 ≠ .refused then e.history.record r.2.blocks else e.history

end Editor

namespace Operation

open Editor

/-- **A structural operation adds a record that is not saved**, unless it is refused. -/
theorem run_recorded {op : Operation} (h : op.isStructural = true) (e : Editor) :
    Ensures (op.run e) e.RecordedUnlessRefused := by
  cases op with
  | addBlock kind index =>
    exact (addBlock_recorded kind index).bind fun made hmade =>
      ensures_pure (hmade.unlessRefused (by simp))
  | addToColumn row column kind index =>
    exact (addToColumn?_recorded kind index).bind fun made hmade =>
      ensures_pure (settleMade_recorded hmade)
  | remove id => exact ensures_pure (settle_recorded fun e' => remove?_recorded)
  | removeFromColumn row column id =>
    exact ensures_pure (settle_recorded fun e' => removeFromColumn?_recorded)
  | updateRowStyle row updates =>
    exact ensures_pure (settle_recorded fun e' => updateRowStyle?_recorded)
  | updateColumnStyle row column updates =>
    exact ensures_pure (settle_recorded fun e' => updateColumnStyle?_recorded)
  | move origin target => exact ensures_pure (settle_recorded fun e' => move?_recorded)
  | moveWithinColumn row column origin target =>
    exact ensures_pure (settle_recorded fun e' => moveWithinColumn?_recorded)
  | moveNested row column toRow toColumn id index =>
    exact ensures_pure (settle_recorded fun e' => moveNested?_recorded)
  | moveIntoColumn id row column index =>
    exact ensures_pure (settle_recorded fun e' => moveIntoColumn?_recorded)
  | moveToCanvas row column id index =>
    exact ensures_pure (settle_recorded fun e' => moveToCanvas?_recorded)
  | duplicate id =>
    exact (duplicate?_recorded id).bind fun made hmade => ensures_pure (settleMade_recorded hmade)
  | duplicateInColumn row column id =>
    exact (duplicateInColumn?_recorded row column id).bind fun made hmade =>
      ensures_pure (settleMade_recorded hmade)
  | applyPreset row preset =>
    exact (applyPreset?_recorded row preset).bind fun changed hchanged =>
      ensures_pure (settle_recorded hchanged)
  | setWidths row widths => exact ensures_pure (settle_recorded fun e' => setWidths?_recorded)
  | paste added replacing =>
    exact (paste_recorded added replacing).bind fun e' he' =>
      ensures_pure (he'.unlessRefused (by decide))
  | drop target =>
    refine (drop_recorded target).bind fun d hd => ensures_pure ?_
    obtain ⟨changed, e'⟩ := d
    cases changed with
    | true => exact (hd.1 rfl).unlessRefused (by simp)
    | false =>
      have he' : e' = e.cancelDrag := hd.2 rfl
      subst he'
      exact ⟨fun hne => absurd rfl hne, fun _ => rfl⟩
  | _ => cases h

/-- The history after an operation that does not travel, for each of its answers. -/
theorem run_recordsIf {op : Operation} (h : op.travels = false) (e : Editor) :
    Ensures (op.run e) (e.RecordsIf op.isStructural) := by
  intro s
  cases hop : op.isStructural with
  | true =>
    obtain ⟨hrecorded, hkept⟩ := run_recorded hop e s
    by_cases hrefused : (op.run e s).1.1 = .refused
    · simpa [RecordsIf, hrefused] using hkept hrefused
    · have hhistory : (op.run e s).1.2.history = e.history.record (op.run e s).1.2.blocks :=
        (hrecorded hrefused).history
      simpa [RecordsIf, hrefused] using hhistory
  | false =>
    show (op.run e s).1.2.history = e.history
    cases op with
    | update id updates =>
      show (e.settle (e.update? id updates)).2.history = e.history
      rw [update?]
      cases updateAnywhere? id updates e.blocks <;> rfl
    | updateSettings updates =>
      show (e.settle (e.updateSettings? updates)).2.history = e.history
      rw [updateSettings?]
      cases Settings.ofJson? (overRecord e.settings.toJson updates) <;> rfl
    | undo => cases h
    | redo => cases h
    | selectBlock | selectColumn | hover | startDrag | aim | cancelDrag | markClean => rfl
    | _ => cases hop

end Operation

end Letterpress

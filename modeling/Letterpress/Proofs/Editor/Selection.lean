/-
  What is selected after an operation.

  * `Editor.Shown`: nothing is selected, or what is selected is in the tree.
  * There is one lemma for each operation.  Most of them select a block that is there or carry the
    tree; `Operation.Strands` says of the others when they lose what is selected.
  * `Session.shown_next_iff`: after a structural operation, and after one that travels through the
    history, what is selected is lost in these cases and no others.
  * `Session.shown_throughout`: so a run without them never loses what is selected.
-/
import Letterpress.Proofs.Editor.Finding
import Letterpress.Proofs.Editor.Identifiers

namespace Letterpress

open Minting Editing

/-! ## What is selected -/

/-- What is selected is in a tree. -/
def Selection.In (blocks : List Block) : Selection → Prop
  | .nothing => True
  | .block id => id ∈ blocks.flatMap Block.ids
  | .column r c => (findColumn? r c blocks).isSome = true

/-- What is selected is in a row: a block in one of its columns, or a column. -/
def Selection.Within (row : String) (l : RowLayout) : Selection → Prop
  | .nothing => False
  | .block id => id ∈ (Block.row row l).nestedIds
  | .column r _ => r = row

/-- A tree without a block has what is selected, unless the block is the row that holds it; the
    block itself is selected no more. -/
theorem Selection.in_cut_iff {left right : List Block} {b : Block}
    (hids : ((left ++ b :: right).flatMap Block.ids).Nodup) {s : Selection}
    (hs : s.In (left ++ b :: right)) :
    (s.without b.id).In (left ++ right) ↔ ¬ ∃ l, b = .row b.id l ∧ s.Within b.id l := by
  cases s with
  | nothing => simp [Selection.without, Selection.In, Selection.Within]
  | block id =>
    have hwithin : (∃ l, b = .row b.id l ∧ (Selection.block id).Within b.id l) ↔
        id ∈ b.nestedIds := by
      cases b with
      | content c => simp [Block.nestedIds]
      | row rowId l => simp [Block.id, Selection.Within]
    rw [hwithin, Selection.without]
    by_cases hself : id = b.id
    · have hb : b.ids.Nodup := (List.nodup_flatMap.mp hids).1 b (by simp)
      rw [Block.ids_eq] at hb
      rw [hself, if_pos rfl]
      exact iff_of_true trivial (List.nodup_cons.mp hb).1
    · rw [if_neg fun heq => hself (Selection.block.inj heq), Selection.In,
        mem_ids_cut hids hs, Block.ids_eq, List.mem_cons, not_or, and_iff_right hself]
  | column r c =>
    rw [Selection.without, if_neg (by simp), Selection.In]
    obtain ⟨l, hl, -⟩ := isSome_findColumn?_iff.mp hs
    by_cases hrow : r = b.id
    · subst hrow
      have hb : b = .row b.id l := (row_mem_cut hids).mp (row_mem_of_findRow? hl)
      rw [findColumn?, findRow?_cut_self hids]
      exact iff_of_false (by simp) fun hnot => hnot ⟨l, hb, rfl⟩
    · rw [findColumn?, findRow?_cut hrow]
      exact iff_of_true hs (by simp [Selection.Within, hrow])

namespace Editor

variable {e e' : Editor} {row column toRow toColumn id : String} {blocks : List Block}

/-- Nothing is selected, or what is selected can be found. -/
def Shown (e : Editor) : Prop :=
  e.selection = .nothing ∨ e.selectedBlock?.isSome = true ∨ e.selectedColumn?.isSome = true

instance (e : Editor) : Decidable e.Shown :=
  inferInstanceAs (Decidable (_ ∨ _ ∨ _))

theorem shown_iff : e.Shown ↔ e.selection.In e.blocks := by
  rw [Shown, selectedBlock?, selectedColumn?]
  cases e.selection with
  | nothing => simp [Selection.In]
  | block id =>
    rw [Selection.In, mem_ids_iff]
    simp
  | column row column => simp [Selection.In]

theorem Shown.of_carries (h : e.Shown) (hblocks : Carries e.blocks e'.blocks)
    (hselection : e'.selection = e.selection) : e'.Shown := by
  rw [shown_iff] at h ⊢
  rw [hselection]
  cases hs : e.selection with
  | nothing => trivial
  | block id =>
    rw [hs] at h
    exact hblocks.ids h
  | column row column =>
    rw [hs] at h
    exact hblocks.columns row column h

theorem shown_select (h : id ∈ blocks.flatMap Block.ids) :
    ((e.select id).record blocks).Shown :=
  shown_iff.mpr h

theorem shown_select_of_mem {b : Block} (h : b ∈ blocks) :
    ((e.select b.id).record blocks).Shown :=
  shown_select (List.mem_flatMap.mpr ⟨b, h, b.id_mem_ids⟩)

theorem Shown.settle (h : e.Shown) {changed : Option Editor} (hc : ∀ e' ∈ changed, e'.Shown) :
    (e.settle changed).2.Shown := by
  cases changed with
  | none => exact h
  | some e' => exact hc e' rfl

theorem Shown.settleMade (h : e.Shown) {made : Option (String × Editor)}
    (hm : ∀ m ∈ made, m.2.Shown) : (e.settleMade made).2.Shown := by
  cases made with
  | none => exact h
  | some m => exact hm m rfl

/-- An operation that may be refused, and then leaves the session. -/
theorem settle_shown_iff {P : Prop} (h : e.Shown) {changed : Option Editor}
    (hnone : changed = none → P) (hsome : ∀ e' ∈ changed, (e'.Shown ↔ P)) :
    (e.settle changed).2.Shown ↔ P := by
  cases changed with
  | none => exact iff_of_true h (hnone rfl)
  | some e' => exact hsome e' rfl

/-! ## Operations that select a block -/

theorem addBlock_shown (kind : Kind) (index : Option Nat) :
    Ensures (e.addBlock kind index) fun made => made.2.Shown :=
  ensures_bind fun b => ensures_pure
    (shown_select_of_mem ((insertAt_perm index b e.blocks).symm.subset List.mem_cons_self))

theorem addToColumn?_shown (kind : Kind) (index : Option Nat) :
    Ensures (e.addToColumn? row column kind index) fun made => ∀ m ∈ made, m.2.Shown := by
  rw [addToColumn?]
  split
  · exact ensures_pure (by rintro m ⟨⟩)
  · refine ensures_bind fun props => ensures_bind fun b => ?_
    split
    · exact ensures_pure (by rintro m ⟨⟩)
    · refine ensures_pure fun m hm => ?_
      obtain ⟨blocks, hput, rfl⟩ := Option.map_eq_some_iff.mp hm
      exact shown_select ((ids_of_putIntoColumn? hput).1.subset List.mem_cons_self)

theorem moveIntoColumn?_shown {index : Nat}
    (h : e.moveIntoColumn? id row column index = some e') : e'.Shown := by
  obtain ⟨_, b, blocks, -, -, hput, rfl⟩ := moveIntoColumn?_eq_some h
  exact shown_select ((ids_of_putIntoColumn? hput).1.subset List.mem_cons_self)

theorem moveToCanvas?_shown {index : Nat} (h : e.moveToCanvas? row column id index = some e') :
    e'.Shown := by
  obtain ⟨⟨b, rest⟩, -, rfl⟩ := Option.map_eq_some_iff.mp h
  have hmem := (insertUpTo_perm index (Block.content b) rest).symm.subset List.mem_cons_self
  exact shown_select_of_mem hmem

theorem duplicate?_shown (id : String) :
    Ensures (e.duplicate? id) fun made => ∀ m ∈ made, m.2.Shown := by
  rw [duplicate?]
  split
  · exact ensures_pure (by rintro m ⟨⟩)
  · rename_i i _
    split
    · exact ensures_pure (by rintro m ⟨⟩)
    · rename_i b hb
      obtain ⟨hi, -⟩ := List.getElem?_eq_some_iff.mp hb
      refine ensures_bind fun copy => ensures_pure ?_
      rintro m ⟨⟩
      have hmem := (List.perm_insertIdx copy e.blocks hi).symm.subset List.mem_cons_self
      exact shown_select_of_mem hmem

theorem duplicateInColumn?_shown (row column id : String) :
    Ensures (e.duplicateInColumn? row column id) fun made => ∀ m ∈ made, m.2.Shown := by
  rw [duplicateInColumn?]
  split
  · exact ensures_pure (by rintro m ⟨⟩)
  · refine ensures_bind fun copyId => ensures_pure fun m hm => ?_
    obtain ⟨⟨u, blocks⟩, hcopy, rfl⟩ := Option.map_eq_some_iff.mp hm
    have hids := ids_of_inColumn? [copyId] (fun _ => []) (fun bs u bs' => withCopy?_perm) hcopy
    exact shown_select (hids.subset (List.mem_append_left _ List.mem_cons_self))

/-! ## Operations that carry the tree -/

theorem updateRowStyle?_shown (h : e.Shown) {updates : Members}
    (he : e.updateRowStyle? row updates = some e') : e'.Shown := by
  obtain ⟨⟨u, blocks⟩, hset, rfl⟩ := Option.map_eq_some_iff.mp he
  refine h.of_carries (.of_map_eq (inRow?_map (fun id l _ u l' hl => ?_) hset)) rfl
  obtain ⟨style, -, ⟨⟩⟩ := Option.map_eq_some_iff.mp hl
  rfl

theorem updateColumnStyle?_shown (h : e.Shown) {updates : Members}
    (he : e.updateColumnStyle? row column updates = some e') : e'.Shown := by
  obtain ⟨⟨u, blocks⟩, hset, rfl⟩ := Option.map_eq_some_iff.mp he
  refine h.of_carries (.of_map_eq (map_of_inColumn? outline_of_columns (fun c u c' hc => ?_) hset))
    rfl
  obtain ⟨style, -, ⟨⟩⟩ := Option.map_eq_some_iff.mp hc
  rfl

theorem setWidths?_shown (h : e.Shown) {widths : List String}
    (he : e.setWidths? row widths = some e') : e'.Shown := by
  obtain ⟨⟨u, blocks⟩, hset, rfl⟩ := Option.map_eq_some_iff.mp he
  refine h.of_carries (.of_map_eq (inRow?_map (fun id l _ u l' hl => ?_) hset)) rfl
  cases hl
  exact outline_of_columns id l _ (map_withWidths (fun _ _ => rfl) widths l.columns)

theorem move?_shown (h : e.Shown) (hids : DistinctIds e.blocks) {origin target : Nat}
    (he : e.move? origin target = some e') : e'.Shown := by
  obtain ⟨blocks, hmove, rfl⟩ := Option.map_eq_some_iff.mp he
  exact h.of_carries (.of_perm hids.ids (reorder?_perm hmove)) rfl

theorem moveWithinColumn?_shown (h : e.Shown) {origin target : Nat}
    (he : e.moveWithinColumn? row column origin target = some e') : e'.Shown := by
  obtain ⟨⟨u, blocks⟩, hmove, rfl⟩ := Option.map_eq_some_iff.mp he
  have hids := ids_of_inColumn? [] (fun _ => []) (fun bs u bs' hbs => by
    obtain ⟨moved, hmoved, ⟨⟩⟩ := Option.map_eq_some_iff.mp hbs
    exact ((reorder?_perm hmoved).map (·.id)).symm) hmove
  exact h.of_carries (.of_outline hids.subset (outline_of_onBlocks hmove)) rfl

theorem moveNested?_shown (h : e.Shown) {index : Nat}
    (he : e.moveNested? row column toRow toColumn id index = some e') : e'.Shown := by
  obtain ⟨blocks, hmove, rfl⟩ := Option.map_eq_some_iff.mp he
  simp only [Editing.moveNested?, Option.bind_eq_bind, Option.bind_eq_some_iff] at hmove
  obtain ⟨_, -, ⟨b, rest⟩, htake, hput⟩ := hmove
  have hids := (ids_of_takeFromColumn? htake).trans (ids_of_putIntoColumn? hput).1
  have houtline := (outline_of_putIntoColumn? hput).trans (outline_of_takeFromColumn? htake)
  exact h.of_carries (.of_outline hids.subset houtline) rfl

/-- Other props carry the tree, if they are not other columns. -/
theorem update?_shown (h : e.Shown) {updates : Members}
    (hupdates : (Operation.update id updates).Admitted e) (he : e.update? id updates = some e') :
    e'.Shown := by
  obtain ⟨blocks, hset, rfl⟩ := Option.map_eq_some_iff.mp he
  exact h.of_carries
    (.of_map_eq (map_of_updateAnywhere? (fun _ _ => rfl) outline_of_columns hupdates hset)) rfl

theorem updateSettings?_shown (h : e.Shown) {updates : Members}
    (he : e.updateSettings? updates = some e') : e'.Shown := by
  obtain ⟨settings, -, rfl⟩ := Option.map_eq_some_iff.mp he
  exact h

/-- The block that is taken out of a column is selected no more. -/
theorem removeFromColumn?_shown (h : e.Shown)
    (he : e.removeFromColumn? row column id = some e') : e'.Shown := by
  obtain ⟨⟨b, blocks⟩, htake, rfl⟩ := Option.map_eq_some_iff.mp he
  have hids := ids_of_takeFromColumn? htake
  have hb : b.id = id := id_of_takeFromColumn? htake
  have houtline := outline_of_takeFromColumn? htake
  rw [shown_iff] at h ⊢
  show (e.selection.without id).In blocks
  rw [Selection.without]
  split
  · trivial
  · rename_i hother
    cases hs : e.selection with
    | nothing => trivial
    | block s =>
      rw [hs] at h hother
      cases List.mem_cons.mp (hids.subset h) with
      | inl heq =>
        rw [hb] at heq
        exact absurd (congrArg Selection.block heq) hother
      | inr hrest => exact hrest
    | column r c =>
      rw [hs] at h
      exact (isSome_findColumn?_of_outline houtline).trans h

end Editor

/-! ## Operations that lose what is selected -/

namespace Operation

/-- The operation loses what is selected: it removes the row that holds it, has no place for the
    column, puts nothing in the place of all blocks, or shows a tree without the column. -/
def Strands (op : Operation) (e : Editor) : Prop :=
  match op with
  | remove id => ∃ l, .row id l ∈ e.blocks ∧ e.selection.Within id l
  | applyPreset row preset => ∃ l, findRow? row e.blocks = some l ∧
    ∃ c ∈ droppedIds preset l, e.selection = .column row c
  | paste added replacing => added = [] ∧ replacing = true ∧ e.selection ≠ .nothing
  | undo => ∃ t ∈ e.history.undo?, ∃ r c, e.selection = .column r c ∧ findColumn? r c t.1 = none
  | redo => ∃ t ∈ e.history.redo?, ∃ r c, e.selection = .column r c ∧ findColumn? r c t.1 = none
  | _ => False

end Operation

namespace Editor

variable {e e' : Editor} {row id : String}

/-- Of what is in the tree, the row that is removed loses what it holds, and nothing else is lost. -/
theorem remove?_shown_iff (hids : DistinctIds e.blocks) (h : e.Shown)
    (he : e.remove? id = some e') : e'.Shown ↔ ¬ (Operation.remove id).Strands e := by
  obtain ⟨i, hi, rfl⟩ := Option.map_eq_some_iff.mp he
  obtain ⟨hlt, hid, -⟩ := List.findIdx?_eq_some_iff_getElem.mp hi
  obtain ⟨left, right, hold, herase, -⟩ :=
    exists_cut_of_eraseIdx (List.getElem?_eq_getElem hlt)
  generalize e.blocks[i] = b at hid hold
  obtain rfl : b.id = id := by simpa using hid
  have hnodup := hids.ids
  rw [shown_iff] at h ⊢
  rw [Operation.Strands]
  show (e.selection.without b.id).In (e.blocks.eraseIdx i) ↔ _
  rw [herase]
  rw [hold] at hnodup h ⊢
  simp only [row_mem_cut hnodup]
  exact Selection.in_cut_iff hnodup h

/-- A preset changes the columns of one row, and leaves those of all others. -/
theorem applyPreset?_columns (hids : DistinctIds e.blocks) (row : String) (preset : Preset) :
    Ensures (e.applyPreset? row preset) fun changed => ∀ e' ∈ changed,
      e'.selection = e.selection ∧ ∃ l l', findRow? row e.blocks = some l ∧
        findRow? row e'.blocks = some l' ∧
        (∀ other, other ≠ row → findRow? other e'.blocks = findRow? other e.blocks) ∧
        ∀ c ∈ l.columns.map (·.id), (c ∈ l'.columns.map (·.id) ↔ c ∉ droppedIds preset l) := by
  rw [applyPreset?]
  split
  · exact ensures_pure (by rintro e' ⟨⟩)
  · rename_i l hl
    have hcolumns := hids.columnIds _ (row_mem_of_findRow? hl)
    refine (ensures_columnIds_applyPreset hcolumns).bind fun l' hl' => ensures_pure fun e' he' => ?_
    obtain ⟨⟨u, blocks⟩, hset, rfl⟩ := Option.map_eq_some_iff.mp he'
    obtain ⟨_, _, -, ⟨⟩, hnew, hothers⟩ := findRow?_of_inRow? hset
    exact ⟨rfl, l, l', hl, hnew, hothers, hl'⟩

/-- A row that is found is given the columns of a preset. -/
theorem applyPreset?_ne_none {l : RowLayout} (hl : findRow? row e.blocks = some l)
    (preset : Preset) : Ensures (e.applyPreset? row preset) fun changed => changed ≠ none := by
  rw [applyPreset?, hl]
  refine ensures_bind fun l' => ensures_pure ?_
  rw [← Option.isSome_iff_ne_none, Option.isSome_map, isSome_inRow?, hl]
  rfl

/-- A preset loses the columns that it has no place for. -/
theorem applyPreset?_shown_iff (hids : DistinctIds e.blocks) (h : e.Shown) (row : String)
    (preset : Preset) :
    Ensures (e.applyPreset? row preset) fun changed => ∀ e' ∈ changed,
      (e'.Shown ↔ ¬ (Operation.applyPreset row preset).Strands e) := by
  intro s e' he'
  have hkept := (applyPreset?_sameHoldings row preset s e' he').ids_subset
  obtain ⟨hselection, l, l', hl, hnew, hothers, hcolumns⟩ :=
    applyPreset?_columns hids row preset s e' he'
  rw [shown_iff] at h ⊢
  rw [Operation.Strands, hselection]
  cases hs : e.selection with
  | nothing => simp [Selection.In]
  | block id =>
    rw [hs] at h
    exact iff_of_true (hkept h) (by simp)
  | column r c =>
    rw [hs] at h
    obtain ⟨k, hk, hc⟩ := isSome_findColumn?_iff.mp h
    rw [Selection.In, isSome_findColumn?_iff]
    by_cases hrow : r = row
    · subst hrow
      obtain rfl : k = l := Option.some.inj (hk.symm.trans hl)
      simpa [hnew, hl] using hcolumns c hc
    · rw [hothers r hrow]
      exact iff_of_true ⟨k, hk, hc⟩ (by simp [hrow])

theorem ensures_freshened_nil_iff (taken : List String) (added : List Block) :
    Ensures (freshened taken added) fun blocks => blocks = [] ↔ added = [] := by
  cases added with
  | nil => exact ensures_pure (by simp)
  | cons b added =>
    rw [freshened_cons]
    exact ensures_bind fun b => ensures_bind fun blocks => ensures_pure (by simp)

/-- Pasting nothing in the place of all blocks loses whatever is selected. -/
theorem paste_shown_iff (h : e.Shown) (added : List Block) (replacing : Bool) :
    Ensures (e.paste added replacing) fun e' =>
      e'.Shown ↔ ¬ (Operation.paste added replacing).Strands e := by
  rw [paste]
  refine (ensures_freshened_nil_iff _ added).bind fun blocks hblocks => ensures_pure ?_
  cases blocks with
  | cons b blocks =>
    have hadded : added ≠ [] := fun hnil => List.cons_ne_nil b blocks (hblocks.mpr hnil)
    refine iff_of_true (shown_select_of_mem (e := e) (b := b) (by simp)) ?_
    simp [Operation.Strands, hadded]
  | nil =>
    obtain rfl := hblocks.mp rfl
    rw [shown_iff] at h ⊢
    cases replacing with
    | false =>
      show e.selection.In (e.blocks ++ []) ↔ _
      rw [List.append_nil]
      exact iff_of_true h (by simp [Operation.Strands])
    | true =>
      show e.selection.In [] ↔ _
      cases hs : e.selection <;> simp [Operation.Strands, Selection.In, hs, findColumn?, findRow?]

/-! ## Drops -/

theorem dropNested?_shown (h : e.Shown) {column toRow toColumn : String} {index : Nat}
    (he : e.dropNested? row column toRow toColumn id index = some e') : e'.Shown := by
  rw [dropNested?] at he
  split at he
  · exact moveNested?_shown h he
  · simp only [Option.bind_eq_bind, Option.bind_eq_some_iff] at he
    obtain ⟨c, -, origin, -, he⟩ := he
    exact moveWithinColumn?_shown h he

theorem dropOn?_shown (hids : DistinctIds e.blocks) (h : e.Shown) (source : DragSource)
    (target : DropTarget) :
    Ensures (e.dropOn? source target) fun changed => ∀ e' ∈ changed, e'.Shown := by
  match source, target with
  | .palette kind, .canvas index =>
    intro s e' he'
    cases he'
    exact addBlock_shown kind (some index) s
  | .palette kind, .column row column index =>
    intro s e' he'
    obtain ⟨made, hmade, rfl⟩ := Option.map_eq_some_iff.mp he'
    exact addToColumn?_shown kind (some index) s made hmade
  | .canvas id, .canvas index =>
    refine ensures_pure fun e' he' => ?_
    simp only [Option.bind_eq_bind, Option.mem_def, Option.bind_eq_some_iff] at he'
    obtain ⟨origin, -, he'⟩ := he'
    exact move?_shown h hids he'
  | .canvas id, .column row column index =>
    exact ensures_pure fun e' he' => moveIntoColumn?_shown he'
  | .nested row column id, .canvas index =>
    exact ensures_pure fun e' he' => moveToCanvas?_shown he'
  | .nested row column id, .column toRow toColumn index =>
    exact ensures_pure fun e' he' => dropNested?_shown h he'

theorem drop_shown (hids : DistinctIds e.blocks) (h : e.Shown) (target : DropTarget) :
    Ensures (e.drop target) fun d => d.2.Shown := by
  have hidle : e.cancelDrag.Shown := h
  rw [drop]
  split
  · exact ensures_pure hidle
  · rename_i source _
    refine (@dropOn?_shown e.cancelDrag hids hidle source target).bind fun changed hchanged => ?_
    cases changed with
    | none => exact ensures_pure hidle
    | some e' => exact ensures_pure (hchanged e' rfl)

/-! ## History -/

/-- A tree that is shown again may be one without the selected column. -/
theorem restored_shown_iff {t : List Block × History} : (e.restored t).Shown ↔
    ¬ ∃ r c, e.selection = .column r c ∧ findColumn? r c t.1 = none := by
  rw [shown_iff]
  show e.selection.withoutBlock.In t.1 ↔ _
  cases e.selection with
  | nothing => simp [Selection.withoutBlock, Selection.In]
  | block id => simp [Selection.withoutBlock, Selection.In]
  | column r c => simp [Selection.withoutBlock, Selection.In, Option.isSome_iff_ne_none]

theorem travel_shown_iff (h : e.Shown) (found : Option (List Block × History)) :
    (e.settle (found.map e.restored)).2.Shown ↔
      ¬ ∃ t ∈ found, ∃ r c, e.selection = .column r c ∧ findColumn? r c t.1 = none := by
  refine settle_shown_iff h (fun hnone => ?_) fun e' he' => ?_
  · simp [Option.map_eq_none_iff.mp hnone]
  · obtain ⟨t, rfl, rfl⟩ := Option.map_eq_some_iff.mp he'
    simpa using restored_shown_iff

end Editor

/-! ## Operations -/

namespace Operation

open Editor

variable {op : Operation} {e : Editor}

/-- **What is selected is lost exactly by the operations that strand it.** -/
theorem run_shown_iff (hids : DistinctIds e.blocks) (h : e.Shown)
    (hop : op.isStructural = true ∨ op.travels = true) :
    Ensures (op.run e) fun r => r.2.Shown ↔ ¬ op.Strands e := by
  -- most operations never strand anything
  have hkeeps : ∀ {m : Minting (Answer × Editor)} {P : Prop}, ¬ P →
      Ensures m (fun r => r.2.Shown) → Ensures m fun r => r.2.Shown ↔ ¬ P :=
    fun hP hm s => iff_of_true (hm s) hP
  cases op with
  | addBlock kind index =>
    exact hkeeps not_false ((addBlock_shown kind index).bind fun made hmade => ensures_pure hmade)
  | addToColumn row column kind index =>
    exact hkeeps not_false ((addToColumn?_shown kind index).bind fun made hmade =>
      ensures_pure (h.settleMade hmade))
  | remove id =>
    refine ensures_pure (settle_shown_iff h (fun hnone => ?_) fun e' => remove?_shown_iff hids h)
    rintro ⟨l, hl, -⟩
    have hother := List.findIdx?_eq_none_iff.mp (Option.map_eq_none_iff.mp hnone) _ hl
    simp [Block.id] at hother
  | removeFromColumn row column id =>
    exact hkeeps not_false (ensures_pure (h.settle fun e' => removeFromColumn?_shown h))
  | updateRowStyle row updates =>
    exact hkeeps not_false (ensures_pure (h.settle fun e' => updateRowStyle?_shown h))
  | updateColumnStyle row column updates =>
    exact hkeeps not_false (ensures_pure (h.settle fun e' => updateColumnStyle?_shown h))
  | move origin target =>
    exact hkeeps not_false (ensures_pure (h.settle fun e' => move?_shown h hids))
  | moveWithinColumn row column origin target =>
    exact hkeeps not_false (ensures_pure (h.settle fun e' => moveWithinColumn?_shown h))
  | moveNested row column toRow toColumn id index =>
    exact hkeeps not_false (ensures_pure (h.settle fun e' => moveNested?_shown h))
  | moveIntoColumn id row column index =>
    exact hkeeps not_false (ensures_pure (h.settle fun e' => moveIntoColumn?_shown))
  | moveToCanvas row column id index =>
    exact hkeeps not_false (ensures_pure (h.settle fun e' => moveToCanvas?_shown))
  | duplicate id =>
    exact hkeeps not_false ((duplicate?_shown id).bind fun made hmade =>
      ensures_pure (h.settleMade hmade))
  | duplicateInColumn row column id =>
    exact hkeeps not_false ((duplicateInColumn?_shown row column id).bind fun made hmade =>
      ensures_pure (h.settleMade hmade))
  | applyPreset row preset =>
    intro s
    refine settle_shown_iff h (fun hnone => ?_) (applyPreset?_shown_iff hids h row preset s)
    rintro ⟨l, hl, -⟩
    exact applyPreset?_ne_none hl preset s hnone
  | setWidths row widths =>
    exact hkeeps not_false (ensures_pure (h.settle fun e' => setWidths?_shown h))
  | paste added replacing =>
    exact (paste_shown_iff h added replacing).bind fun e' he' => ensures_pure he'
  | drop target =>
    exact hkeeps not_false ((drop_shown hids h target).bind fun d hd => ensures_pure hd)
  | undo => exact ensures_pure (travel_shown_iff h e.history.undo?)
  | redo => exact ensures_pure (travel_shown_iff h e.history.redo?)
  | _ => rcases hop with hop | hop <;> cases hop

/-- The operation strands nothing, and what it is asked to select is there. -/
def Minds (op : Operation) (e : Editor) : Prop :=
  ¬ op.Strands e ∧ match op with
    | selectBlock (some id) => id ∈ e.blocks.flatMap Block.ids
    | selectColumn (some (r, c)) => (findColumn? r c e.blocks).isSome = true
    | _ => True

/-- An operation of any kind that minds what is selected does not lose it. -/
theorem run_shown (hids : DistinctIds e.blocks) (h : e.Shown) (hop : op.Admitted e)
    (hminds : op.Minds e) : Ensures (op.run e) fun r => r.2.Shown := by
  by_cases hkind : op.isStructural = true ∨ op.travels = true
  · exact fun s => (run_shown_iff hids h hkind s).mpr hminds.1
  · cases op with
    | update id updates => exact ensures_pure (h.settle fun e' => update?_shown h hop)
    | updateSettings updates => exact ensures_pure (h.settle fun e' => updateSettings?_shown h)
    | selectBlock id =>
      cases id with
      | some id => exact ensures_pure (shown_iff.mpr hminds.2)
      | none =>
        refine ensures_pure (shown_iff.mpr ?_)
        rw [shown_iff] at h
        show e.selection.withoutBlock.In e.blocks
        cases hs : e.selection with
        | block => trivial
        | _ => rwa [hs] at h
    | selectColumn column =>
      cases column with
      | some column => exact ensures_pure (shown_iff.mpr hminds.2)
      | none =>
        refine ensures_pure (shown_iff.mpr ?_)
        rw [shown_iff] at h
        show e.selection.withoutColumn.In e.blocks
        cases hs : e.selection with
        | column => trivial
        | _ => rwa [hs] at h
    | hover | startDrag | aim | cancelDrag | markClean => exact ensures_pure h
    | undo | redo => exact absurd (.inr rfl) hkind
    | _ => exact absurd (.inl rfl) hkind

end Operation

namespace Session

variable {x : Session} {op : Operation} {ops : List Operation}

/-- **What is selected is lost in four ways only.**  Of a session with distinct identifiers that
    shows what is selected, a structural operation and one that travels through the history loses it
    exactly if it removes the row that holds it, if it has no place for the column, if it puts
    nothing in the place of all blocks, or if it shows a tree without the column. -/
theorem shown_next_iff (hids : DistinctIds x.editor.blocks) (h : x.editor.Shown)
    (hop : op.isStructural = true ∨ op.travels = true) :
    (x.next op).editor.Shown ↔ ¬ op.Strands x.editor :=
  op.run_shown_iff hids h hop x.supply

/-- Of two columns, the first one is selected and the preset has a place for it. -/
theorem shown_next_iff_of_kept_column :
    let columns : List Column := [⟨"c", "50%", [⟨"a", .text, []⟩], none⟩, ⟨"d", "50%", [], none⟩]
    let row : Block := .row "r" ⟨.twoEqual, columns, RowLayout.initialGap, true, .initial⟩
    let x : Session := (start [row] .initial .tally).next (.selectColumn (some ("r", "c")))
    let op : Operation := .applyPreset "r" .oneColumn
    DistinctIds x.editor.blocks ∧ x.editor.Shown ∧
      (op.isStructural = true ∨ op.travels = true) ∧ ¬ op.Strands x.editor ∧
      (x.next op).editor.Shown ∧ (x.next op).editor.blocks.flatMap Block.columnIds = ["c"] := by
  intro columns row x op
  have hids : DistinctIds x.editor.blocks := by decide +kernel
  have hshown : x.editor.Shown := by decide +kernel
  have hop : op.isStructural = true ∨ op.travels = true := .inl rfl
  have hkept : ¬ op.Strands x.editor := by
    rintro ⟨l, hl, c, hc, hselection⟩
    cases hl
    cases hselection
    exact absurd hc (by decide +kernel)
  exact ⟨hids, hshown, hop, hkept, (shown_next_iff hids hshown hop).mpr hkept, by decide +kernel⟩

/-- A row is removed while a block in it is selected: the block is gone and stays selected. -/
theorem not_shown_next_of_removed_row :
    ¬ ∀ (x : Session) (op : Operation), DistinctIds x.editor.blocks → x.editor.Shown →
      (op.isStructural = true ∨ op.travels = true) → (x.next op).editor.Shown := by
  intro h
  let columns : List Column := [⟨"c", "100%", [⟨"a", .text, []⟩], none⟩]
  let row : Block := .row "r" ⟨.oneColumn, columns, RowLayout.initialGap, true, .initial⟩
  let x : Session := (start [row] .initial .tally).next (.selectBlock (some "a"))
  have hlost : ¬ (x.next (.remove "r")).editor.Shown := by decide +kernel
  exact hlost (h x (.remove "r") (by decide +kernel) (by decide +kernel) (.inl rfl))

/-! ## Runs -/

/-- Each operation of the run minds what is selected where it is done. -/
def MindsAll (x : Session) : List Operation → Prop
  | [] => True
  | op :: ops => op.Minds x.editor ∧ (x.next op).MindsAll ops

/-- **A run that minds what is selected never loses it.** -/
theorem Sound.shown_after {known : List String} (hx : x.Sound known) (h : x.editor.Shown)
    (hops : x.AdmitsAll ops) (hminds : x.MindsAll ops) : (x.after ops).editor.Shown := by
  induction ops generalizing x known with
  | nil => exact h
  | cons op ops ih =>
    obtain ⟨hop, hfresh, hops⟩ := hops
    obtain ⟨minted, hnext⟩ := (hx.append hfresh).next hop (List.subset_append_right _ _)
    exact ih hnext (op.run_shown hx.live.distinct h hop hminds.1 x.supply) hops hminds.2

/-- So it is from the start, where nothing is selected. -/
theorem shown_throughout {blocks : List Block} {supply : Supply} (settings : Settings)
    (hblocks : DistinctIds blocks) (hfresh : supply.Fresh (blocks.flatMap Block.allIds))
    (hops : (start blocks settings supply).AdmitsAll ops)
    (hminds : (start blocks settings supply).MindsAll ops) :
    ((start blocks settings supply).after ops).editor.Shown :=
  (Sound.start settings hblocks hfresh).shown_after (.inl rfl) hops hminds

end Session

end Letterpress

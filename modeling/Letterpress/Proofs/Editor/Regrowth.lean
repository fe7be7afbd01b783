/-
  Where the identifiers of a tree come from when it is edited.

  * `Regrown minted old new`: the new tree has only identifiers of the old one and those in
    `minted`, each at most as often, and none of its rows has columns of two old ones.
  * There is one lemma for each operation that leaves a tree of this kind; pasting does not.
-/
import Mathlib.Data.List.Flatten
import Mathlib.Data.List.Perm.Subperm
import Letterpress.Proofs.Block.Identifiers
import Letterpress.Proofs.Block.Merging
import Letterpress.Proofs.Editor.History
import Letterpress.Proofs.Editor.Tree

namespace Letterpress

open Minting

namespace Editing

/-! ## Regrown trees -/

/-- A tree that has been made of an old one and of new identifiers. -/
structure Regrown (minted : List String) (old new : List Block) : Prop where
  ids : (new.flatMap Block.ids).Subperm (minted ++ old.flatMap Block.ids)
  columnIds : ∀ b ∈ new, ∃ kept ∈ [] :: old.map Block.columnIds,
    b.columnIds.Subperm (minted ++ kept)

section

variable {minted : List String} {old new : List Block}

/-- Nothing new is in the rows: each has columns of an old row, or none. -/
theorem Regrown.of_kept
    (hids : (new.flatMap Block.ids).Subperm (minted ++ old.flatMap Block.ids))
    (hcolumns : ∀ b ∈ new, b.columnIds ∈ [] :: old.map Block.columnIds) :
    Regrown minted old new :=
  ⟨hids, fun b hb => ⟨b.columnIds, hcolumns b hb, (List.sublist_append_right _ _).subperm⟩⟩

theorem Regrown.refl (minted : List String) (blocks : List Block) :
    Regrown minted blocks blocks :=
  .of_kept (List.sublist_append_right _ _).subperm fun _ hb =>
    List.mem_cons_of_mem _ (List.mem_map_of_mem hb)

/-- The blocks are old ones and new ones. -/
theorem Regrown.of_subperm {added : List Block} (hnew : new.Subperm (added ++ old))
    (hadded : (added.flatMap Block.allIds).Subperm minted) : Regrown minted old new where
  ids := by
    have hids : (added.flatMap Block.ids).Sublist (added.flatMap Block.allIds) :=
      List.Sublist.flatMap_right _ fun b _ => List.sublist_append_left _ _
    obtain ⟨l, hl, hsub⟩ := hnew
    have hkept : (new.flatMap Block.ids).Subperm ((added ++ old).flatMap Block.ids) :=
      (hl.symm.flatMap_right Block.ids).subperm.trans (hsub.flatMap Block.ids).subperm
    refine hkept.trans ?_
    rw [List.flatMap_append]
    exact (hids.subperm.trans hadded).append (List.Subperm.refl _)
  columnIds := by
    intro b hb
    cases List.mem_append.mp (hnew.subset hb) with
    | inl hadd =>
      refine ⟨[], List.mem_cons_self, ?_⟩
      rw [List.append_nil]
      have hcolumns : b.columnIds.Sublist b.allIds := List.sublist_append_right _ _
      have hall : b.allIds.Sublist (added.flatMap Block.allIds) :=
        List.sublist_flatten_of_mem (List.mem_map_of_mem hadd)
      exact (hcolumns.trans hall).subperm.trans hadded
    | inr hold =>
      exact ⟨b.columnIds, List.mem_cons_of_mem _ (List.mem_map_of_mem hold),
        (List.sublist_append_right _ _).subperm⟩

/-- The rows have the columns that they had. -/
theorem Regrown.of_columnIds
    (hids : (new.flatMap Block.ids).Subperm (minted ++ old.flatMap Block.ids))
    (hcolumns : new.map Block.columnIds = old.map Block.columnIds) : Regrown minted old new := by
  refine .of_kept hids fun b hb => ?_
  rw [← hcolumns]
  exact List.mem_cons_of_mem _ (List.mem_map_of_mem hb)

/-- All blocks have the identifiers that they had. -/
theorem Regrown.of_map_eq (h : new.map (fun b => (b.ids, b.columnIds)) =
    old.map fun b => (b.ids, b.columnIds)) : Regrown minted old new := by
  have hids := congrArg (List.map Prod.fst) h
  have hcolumnIds := congrArg (List.map Prod.snd) h
  rw [List.map_map, List.map_map] at hids hcolumnIds
  refine .of_columnIds ?_ hcolumnIds
  rw [List.flatMap_def, show new.map Block.ids = _ from hids]
  exact (List.sublist_append_right _ _).subperm

end

/-! ## Edits -/

section

variable {β : Type} {row column id : String} {blocks blocks' : List Block} {b : β}

/-- What a change adds to the identifiers in a column and takes from them, it adds to those of the
    tree and takes from them. -/
theorem ids_of_inColumn? (added : List String) (taken : β → List String)
    {f : List ContentBlock → Option (β × List ContentBlock)}
    (hf : ∀ bs b bs', f bs = some (b, bs') →
      (added ++ bs.map (·.id)).Perm (taken b ++ bs'.map (·.id)))
    (h : inColumn? row column (onBlocks f) blocks = some (b, blocks')) :
    (added ++ blocks.flatMap Block.ids).Perm (taken b ++ blocks'.flatMap Block.ids) := by
  have hv : ∀ id l, (Block.row id l).ids =
      [id] ++ l.columns.flatMap fun c => c.blocks.map (·.id) := fun _ _ => rfl
  refine inColumn?_flatMap hv (fun c b c' hc => ?_) h
  obtain ⟨bs, hbs, rfl⟩ := onBlocks_eq_some hc
  exact hf c.blocks b bs hbs

theorem columnIds_of_inColumn? {f : Column → Option (β × Column)}
    (hf : ∀ c b c', f c = some (b, c') → c'.id = c.id)
    (h : inColumn? row column f blocks = some (b, blocks')) :
    blocks'.map Block.columnIds = blocks.map Block.columnIds :=
  inColumn?_map (fun _ _ _ hcolumns => hcolumns) hf h

theorem columnIds_of_onBlocks {f : List ContentBlock → Option (β × List ContentBlock)}
    (h : inColumn? row column (onBlocks f) blocks = some (b, blocks')) :
    blocks'.map Block.columnIds = blocks.map Block.columnIds := by
  refine columnIds_of_inColumn? (fun c b c' hc => ?_) h
  obtain ⟨bs, -, rfl⟩ := onBlocks_eq_some hc
  rfl

theorem ids_of_takeFromColumn? {t : ContentBlock}
    (h : takeFromColumn? row column id blocks = some (t, blocks')) :
    (blocks.flatMap Block.ids).Perm (t.id :: blocks'.flatMap Block.ids) := by
  refine ids_of_inColumn? [] (fun t => [t.id]) (fun bs t rest hbs => ?_) h
  exact (take?_perm hbs).map (·.id)

theorem ids_of_putIntoColumn? {index : Option Nat} {c : ContentBlock}
    (h : putIntoColumn? row column index c blocks = some blocks') :
    (c.id :: blocks.flatMap Block.ids).Perm (blocks'.flatMap Block.ids) ∧
      blocks'.map Block.columnIds = blocks.map Block.columnIds := by
  obtain ⟨⟨u, after⟩, hput, rfl⟩ := Option.map_eq_some_iff.mp h
  refine ⟨?_, columnIds_of_onBlocks hput⟩
  refine ids_of_inColumn? [c.id] (fun _ => []) (fun bs u bs' hbs => ?_) hput
  cases hbs
  exact ((insertAt_perm index c bs).map (·.id)).symm

/-- The identifiers in a row are decided by those of its columns and of the blocks in them. -/
theorem ids_of_columns {l l' : RowLayout}
    (h : l'.columns.map (fun c => (c.id, c.blocks.map (·.id))) =
      l.columns.map fun c => (c.id, c.blocks.map (·.id))) :
    ((Block.row id l').ids, (Block.row id l').columnIds) =
      ((Block.row id l).ids, (Block.row id l).columnIds) := by
  have hids := congrArg (fun views => id :: (views.map Prod.snd).flatten) h
  have hcolumnIds := congrArg (List.map Prod.fst) h
  simp only [List.map_map] at hids hcolumnIds
  exact Prod.ext hids hcolumnIds

/-- A change of a column that keeps its identifier and those of its blocks keeps all that they
    decide. -/
theorem map_of_inColumn? {γ : Type} {v : Block → γ} {f : Column → Option (β × Column)}
    (hrow : ∀ id (l l' : RowLayout), l'.columns.map (fun c => (c.id, c.blocks.map (·.id))) =
      l.columns.map (fun c => (c.id, c.blocks.map (·.id))) → v (.row id l') = v (.row id l))
    (hf : ∀ c b c', f c = some (b, c') →
      (c'.id, c'.blocks.map (·.id)) = (c.id, c.blocks.map (·.id)))
    (h : inColumn? row column f blocks = some (b, blocks')) : blocks'.map v = blocks.map v := by
  refine inRow?_map (fun rowId l _ b l' hl => ?_) h
  obtain ⟨columns, hcolumns, rfl⟩ := inLayout?_eq_some hl
  exact hrow rowId l _ (modifyFirst?_map (fun c _ => hf c) hcolumns)

/-- Setting props over those of a block keeps all that the identifiers decide, if it sets no columns
    of a row. -/
theorem map_of_updateAnywhere? {γ : Type} {v : Block → γ} {updates : Members}
    (hcontent : ∀ (b : ContentBlock) props, v (.content { b with props }) = v (.content b))
    (hrow : ∀ id (l l' : RowLayout), l'.columns.map (fun c => (c.id, c.blocks.map (·.id))) =
      l.columns.map (fun c => (c.id, c.blocks.map (·.id))) → v (.row id l') = v (.row id l))
    (hupdates : ∀ rowId l, (blocks.find? fun b => b.id == id) = some (.row rowId l) →
      Dict.get? updates "columns" = none)
    (h : updateAnywhere? id updates blocks = some blocks') : blocks'.map v = blocks.map v := by
  obtain ⟨⟨u, after⟩, hset, rfl⟩ := Option.map_eq_some_iff.mp h
  split at hset
  · refine modifyFirst?_map (fun b hfind u b' hb => ?_) hset
    obtain ⟨merged, hmerge, ⟨⟩⟩ := Option.map_eq_some_iff.mp hb
    cases b with
    | content b =>
      cases hmerge
      exact hcontent b _
    | row rowId l =>
      obtain ⟨l', hl', rfl⟩ := Option.map_eq_some_iff.mp hmerge
      exact hrow rowId l l' (RowLayout.ids_of_merge (hupdates rowId l hfind) hl')
  · refine modifyFirst?_map (fun b hfind u b' hb => ?_) hset
    obtain ⟨rowId, l, l', rfl, rfl, hl⟩ := onLayout_eq_some hb
    obtain ⟨⟨u, columns⟩, hcolumns, ⟨⟩⟩ := Option.map_eq_some_iff.mp hl
    refine hrow rowId l _ (modifyFirst?_map (fun c _ u c' hc => ?_) hcolumns)
    obtain ⟨bs, hbs, rfl⟩ := onBlocks_eq_some hc
    refine Prod.ext rfl (modifyFirst?_map (fun b _ u b' hb => ?_) hbs)
    cases hb
    rfl

/-! ## Column layouts -/

/-- Widths are all that changes. -/
theorem map_withWidths {γ : Type} {v : Column → γ} (hv : ∀ c width, v { c with width } = v c)
    (widths : List String) (columns : List Column) :
    (withWidths widths columns).map v = columns.map v := by
  induction columns generalizing widths with
  | nil => cases widths <;> rfl
  | cons c columns ih =>
    cases widths with
    | nil => rfl
    | cons width widths => rw [withWidths, List.map_cons, List.map_cons, ih, hv]

/-- Blocks are all that changes. -/
theorem map_appendToLast {γ : Type} {v : Column → γ}
    (hv : ∀ c blocks, v { c with blocks } = v c) (overflow : List ContentBlock)
    (columns : List Column) : (appendToLast overflow columns).map v = columns.map v := by
  induction columns with
  | nil => rfl
  | cons c columns ih =>
    cases columns with
    | nil => exact congrArg (· :: []) (hv c _)
    | cons c' columns => exact congrArg (v c :: ·) ih

theorem columnIds_of_appendToLast (overflow : List ContentBlock) (columns : List Column) :
    (appendToLast overflow columns).map (·.id) = columns.map (·.id) :=
  map_appendToLast (fun _ _ => rfl) overflow columns

theorem blocks_of_appendToLast (overflow : List ContentBlock) {columns : List Column}
    (h : columns = [] → overflow = []) :
    (appendToLast overflow columns).flatMap (·.blocks) =
      columns.flatMap (·.blocks) ++ overflow := by
  induction columns with
  | nil => rw [h rfl]; rfl
  | cons c columns ih =>
    cases columns with
    | nil => simp [appendToLast]
    | cons c' columns =>
      have hstep : appendToLast overflow (c :: c' :: columns) =
        c :: appendToLast overflow (c' :: columns) := rfl
      rw [hstep, List.flatMap_cons, ih (by simp), ← List.append_assoc, ← List.flatMap_cons]

/-- New columns are empty and plain, and each of them takes one identifier. -/
theorem yields_newColumns (count : Nat) :
    Yields (newColumns count) fun minted columns =>
      minted = columns.map (·.id) ∧ columns.length = count ∧
        ∀ c ∈ columns, c.blocks = [] ∧ c.style = none := by
  induction count with
  | zero => exact yields_pure ⟨rfl, rfl, by simp⟩
  | succ count ih =>
    have hmake : Yields (Column.make "") fun minted c =>
        minted = [c.id] ∧ c.blocks = [] ∧ c.style = none :=
      yields_mint.bind_pure fun minted id hid => ⟨hid, rfl, rfl⟩
    rw [newColumns, List.replicate_succ, List.mapM_cons]
    refine hmake.bind fun minted c hc => Yields.bind_pure ih fun minted' columns hcolumns => ?_
    refine ⟨?_, ?_, List.forall_mem_cons.mpr ⟨hc.2, hcolumns.2.2⟩⟩
    · rw [hc.1, hcolumns.1]
      rfl
    · rw [List.length_cons, hcolumns.2.1]

/-- A preset has at least one column, or says nothing of columns. -/
theorem widths?_ne_nil {preset : Preset} {widths : List String}
    (h : preset.widths? = some widths) : widths ≠ [] := by
  cases preset <;> cases h <;> exact List.cons_ne_nil _ _

/-- Columns that are cut to some number, with the blocks of those that go at the end and columns
    without blocks behind, hold the blocks that they held, in order. -/
theorem blocks_of_refitted {widths : List String} (hwidths : widths ≠ []) (columns : List Column)
    {added : List Column} (hadded : added.flatMap (·.blocks) = []) :
    (withWidths widths (appendToLast ((columns.drop widths.length).flatMap (·.blocks))
      (columns.take widths.length) ++ added)).flatMap (·.blocks) =
        columns.flatMap (·.blocks) := by
  have hwidth : 0 < widths.length := List.length_pos_of_ne_nil hwidths
  -- Without columns that stay there are none that go.
  have hoverflow : columns.take widths.length = [] →
      (columns.drop widths.length).flatMap (·.blocks) = [] := by
    intro htake
    rw [List.take_eq_nil_iff] at htake
    cases htake with
    | inl hzero => omega
    | inr hnil => rw [hnil, List.drop_nil, List.flatMap_nil]
  rw [List.flatMap_def, map_withWidths (fun _ _ => rfl), ← List.flatMap_def, List.flatMap_append,
    hadded, List.append_nil, blocks_of_appendToLast _ hoverflow, ← List.flatMap_append,
    List.take_append_drop]

/-- Another column layout keeps all blocks of the row, in order, and mints the columns that it
    adds. -/
theorem yields_applyPreset (preset : Preset) (l : RowLayout) :
    Yields (Editing.applyPreset preset l) fun minted l' =>
      l'.columns.flatMap (·.blocks) = l.columns.flatMap (·.blocks) ∧
        (l'.columns.map (·.id)).Subperm (minted ++ l.columns.map (·.id)) := by
  rw [Editing.applyPreset]
  split
  · exact yields_pure ⟨rfl, List.Subperm.refl _⟩
  · rename_i widths hwidths
    refine (yields_newColumns _).bind fun minted added hadded => yields_pure ?_
    obtain ⟨hminted, -, hempty⟩ := hadded
    have hblocks : added.flatMap (·.blocks) = [] :=
      List.flatMap_eq_nil_iff.mpr fun c hc => (hempty c hc).1
    refine ⟨blocks_of_refitted (widths?_ne_nil hwidths) l.columns hblocks, ?_⟩
    rw [map_withWidths (fun _ _ => rfl), List.map_append, columnIds_of_appendToLast,
      List.append_nil, hminted]
    have hkept : ((l.columns.take widths.length).map (·.id)).Sublist (l.columns.map (·.id)) :=
      (List.take_sublist _ _).map _
    exact (List.perm_append_comm.subperm).trans ((List.Subperm.refl _).append hkept.subperm)

end

end Editing

/-! ## Operations -/

namespace Editor

open Editing

variable {e e' : Editor} {row column toRow toColumn id : String}

theorem addBlock_regrown (kind : Kind) (index : Option Nat) :
    Yields (e.addBlock kind index) fun minted made => Regrown minted e.blocks made.2.blocks := by
  refine (yields_newBlock kind).bind_pure fun minted b hb => ?_
  have hnew : (insertAt index b e.blocks).Subperm ([b] ++ e.blocks) :=
    (insertAt_perm index b e.blocks).subperm
  refine .of_subperm hnew ?_
  rwa [List.flatMap_singleton]

theorem addToColumn?_regrown (kind : Kind) (index : Option Nat) :
    Yields (e.addToColumn? row column kind index) fun minted made =>
      ∀ m ∈ made, Regrown minted e.blocks m.2.blocks := by
  rw [addToColumn?]
  split
  · exact yields_pure (by rintro m ⟨⟩)
  · refine (yields_defaultProps kind).bind fun unused props _ =>
      (ContentBlock.yields_make? kind props).bind fun minted b hb => ?_
    cases b with
    | none => exact yields_pure (by rintro m ⟨⟩)
    | some b =>
      refine yields_pure fun m hm => ?_
      obtain ⟨blocks, hput, rfl⟩ := Option.map_eq_some_iff.mp hm
      obtain ⟨hids, hcolumns⟩ := ids_of_putIntoColumn? hput
      refine .of_columnIds (hids.symm.subperm.trans ?_) hcolumns
      have hminted : [b.id].Subperm (unused ++ (minted ++ [])) := by
        rw [List.append_nil]
        exact (hb b rfl).symm.subperm.trans (List.sublist_append_right _ _).subperm
      exact hminted.append (List.Subperm.refl _)

theorem remove?_regrown (h : e.remove? id = some e') : Regrown [] e.blocks e'.blocks := by
  obtain ⟨i, -, rfl⟩ := Option.map_eq_some_iff.mp h
  have hsub : (e.blocks.eraseIdx i).Subperm ([] ++ e.blocks) := (List.eraseIdx_sublist _ _).subperm
  exact .of_subperm hsub (List.Subperm.refl [])

theorem removeFromColumn?_regrown (h : e.removeFromColumn? row column id = some e') :
    Regrown [] e.blocks e'.blocks := by
  obtain ⟨⟨b, blocks⟩, htake, rfl⟩ := Option.map_eq_some_iff.mp h
  refine .of_columnIds ?_ (columnIds_of_onBlocks htake)
  exact (List.sublist_cons_self b.id _).subperm.trans (ids_of_takeFromColumn? htake).symm.subperm

theorem update?_regrown {updates : Members}
    (hupdates : ∀ rowId l, (e.blocks.find? fun b => b.id == id) = some (.row rowId l) →
      Dict.get? updates "columns" = none)
    (h : e.update? id updates = some e') : Regrown [] e.blocks e'.blocks := by
  obtain ⟨blocks, hset, rfl⟩ := Option.map_eq_some_iff.mp h
  exact .of_map_eq
    (map_of_updateAnywhere? (fun _ _ => rfl) (fun _ _ _ => ids_of_columns) hupdates hset)

theorem updateSettings?_regrown {updates : Members} (h : e.updateSettings? updates = some e') :
    Regrown [] e.blocks e'.blocks := by
  obtain ⟨settings, -, rfl⟩ := Option.map_eq_some_iff.mp h
  exact .refl [] e.blocks

theorem updateRowStyle?_regrown {updates : Members}
    (h : e.updateRowStyle? row updates = some e') : Regrown [] e.blocks e'.blocks := by
  obtain ⟨⟨u, blocks⟩, hset, rfl⟩ := Option.map_eq_some_iff.mp h
  refine .of_map_eq (inRow?_map (fun rowId l _ u l' hl => ?_) hset)
  obtain ⟨style, -, ⟨⟩⟩ := Option.map_eq_some_iff.mp hl
  rfl

theorem updateColumnStyle?_regrown {updates : Members}
    (h : e.updateColumnStyle? row column updates = some e') :
    Regrown [] e.blocks e'.blocks := by
  obtain ⟨⟨u, blocks⟩, hset, rfl⟩ := Option.map_eq_some_iff.mp h
  refine .of_map_eq (map_of_inColumn? (fun _ _ _ => ids_of_columns) (fun c u c' hc => ?_) hset)
  obtain ⟨style, -, ⟨⟩⟩ := Option.map_eq_some_iff.mp hc
  rfl

theorem move?_regrown {origin target : Nat} (h : e.move? origin target = some e') :
    Regrown [] e.blocks e'.blocks := by
  obtain ⟨blocks, hmove, rfl⟩ := Option.map_eq_some_iff.mp h
  have hsub : blocks.Subperm ([] ++ e.blocks) := (reorder?_perm hmove).subperm
  exact .of_subperm hsub (List.Subperm.refl [])

theorem moveWithinColumn?_regrown {origin target : Nat}
    (h : e.moveWithinColumn? row column origin target = some e') :
    Regrown [] e.blocks e'.blocks := by
  obtain ⟨⟨u, blocks⟩, hmove, rfl⟩ := Option.map_eq_some_iff.mp h
  have hids := ids_of_inColumn? [] (fun _ => []) (fun bs u bs' hbs => by
    obtain ⟨moved, hmoved, ⟨⟩⟩ := Option.map_eq_some_iff.mp hbs
    exact ((reorder?_perm hmoved).map (·.id)).symm) hmove
  exact .of_columnIds hids.symm.subperm (columnIds_of_onBlocks hmove)

theorem moveNested?_regrown {index : Nat}
    (h : e.moveNested? row column toRow toColumn id index = some e') :
    Regrown [] e.blocks e'.blocks := by
  obtain ⟨blocks, hmove, rfl⟩ := Option.map_eq_some_iff.mp h
  simp only [Editing.moveNested?, Option.bind_eq_bind, Option.bind_eq_some_iff] at hmove
  obtain ⟨_, -, ⟨b, rest⟩, htake, hput⟩ := hmove
  obtain ⟨hids, hcolumns⟩ := ids_of_putIntoColumn? hput
  refine .of_columnIds ?_ (hcolumns.trans (columnIds_of_onBlocks htake))
  exact ((ids_of_takeFromColumn? htake).trans hids).symm.subperm

theorem moveIntoColumn?_regrown {index : Nat}
    (h : e.moveIntoColumn? id row column index = some e') : Regrown [] e.blocks e'.blocks := by
  obtain ⟨origin, b, blocks, -, hb, hput, rfl⟩ := moveIntoColumn?_eq_some h
  obtain ⟨hids, hcolumns⟩ := ids_of_putIntoColumn? hput
  have hout := (cons_eraseIdx_perm hb).flatMap_right Block.ids
  refine .of_kept (hids.symm.trans hout).subperm fun x hx => ?_
  have hmem : x.columnIds ∈ blocks.map Block.columnIds := List.mem_map_of_mem hx
  rw [hcolumns] at hmem
  exact List.mem_cons_of_mem _
    (List.map_subset _ (List.eraseIdx_sublist e.blocks origin).subset hmem)

theorem moveToCanvas?_regrown {index : Nat}
    (h : e.moveToCanvas? row column id index = some e') : Regrown [] e.blocks e'.blocks := by
  obtain ⟨⟨b, rest⟩, htake, rfl⟩ := Option.map_eq_some_iff.mp h
  have hput := insertUpTo_perm index (Block.content b) rest
  refine .of_kept ?_ fun x hx => ?_
  · exact ((hput.flatMap_right Block.ids).trans (ids_of_takeFromColumn? htake).symm).subperm
  · cases List.mem_cons.mp (hput.subset hx) with
    | inl heq =>
      rw [heq]
      exact List.mem_cons_self
    | inr hold =>
      rw [← columnIds_of_onBlocks htake]
      exact List.mem_cons_of_mem _ (List.mem_map_of_mem hold)

theorem duplicate?_regrown (id : String) :
    Yields (e.duplicate? id) fun minted made =>
      ∀ m ∈ made, Regrown minted e.blocks m.2.blocks := by
  rw [duplicate?]
  split
  · exact yields_pure (by rintro m ⟨⟩)
  · rename_i i _
    split
    · exact yields_pure (by rintro m ⟨⟩)
    · rename_i b hb
      refine b.yields_duplicate.bind_pure fun minted copy hcopy => ?_
      rintro m ⟨⟩
      obtain ⟨hi, -⟩ := List.getElem?_eq_some_iff.mp hb
      have hnew : (e.blocks.insertIdx (i + 1) copy).Subperm ([copy] ++ e.blocks) :=
        (List.perm_insertIdx copy e.blocks hi).subperm
      refine .of_subperm hnew ?_
      rw [List.flatMap_singleton]
      exact hcopy.symm.subperm

theorem withCopy?_perm {copyId : String} {bs bs' : List ContentBlock} {u : Unit}
    (h : withCopy? id copyId bs = some (u, bs')) :
    (copyId :: bs.map (·.id)).Perm (bs'.map (·.id)) := by
  simp only [withCopy?, Option.bind_eq_bind, Option.bind_eq_some_iff] at h
  obtain ⟨i, -, b, hb, ⟨⟩⟩ := h
  obtain ⟨hi, -⟩ := List.getElem?_eq_some_iff.mp hb
  exact ((List.perm_insertIdx { b with id := copyId } bs hi).map (·.id)).symm

theorem duplicateInColumn?_regrown (row column id : String) :
    Yields (e.duplicateInColumn? row column id) fun minted made =>
      ∀ m ∈ made, Regrown minted e.blocks m.2.blocks := by
  rw [duplicateInColumn?]
  split
  · exact yields_pure (by rintro m ⟨⟩)
  · refine yields_mint.bind_pure fun minted copyId hminted m hm => ?_
    obtain ⟨⟨u, blocks⟩, hcopy, rfl⟩ := Option.map_eq_some_iff.mp hm
    have hids := ids_of_inColumn? [copyId] (fun _ => []) (fun bs u bs' => withCopy?_perm) hcopy
    rw [hminted]
    exact .of_columnIds hids.symm.subperm (columnIds_of_onBlocks hcopy)

theorem applyPreset?_regrown (row : String) (preset : Preset) :
    Yields (e.applyPreset? row preset) fun minted changed =>
      ∀ e' ∈ changed, Regrown minted e.blocks e'.blocks := by
  rw [applyPreset?]
  split
  · exact yields_pure (by rintro e' ⟨⟩)
  · rename_i l hl
    refine (yields_applyPreset preset l).bind_pure fun minted l' h e' he' => ?_
    obtain ⟨⟨u, blocks⟩, hset, rfl⟩ := Option.map_eq_some_iff.mp he'
    -- The row that is changed is the one whose layout was replaced.
    have hsame : ∀ k ∈ findRow? row e.blocks, k = l :=
      fun k hk => Option.some.inj (hk.symm.trans hl)
    constructor
    case ids =>
      have hrow : ∀ rowId, (Block.row rowId l').ids = (Block.row rowId l).ids := by
        intro rowId
        have hblocks := congrArg (fun bs => rowId :: bs.map (·.id)) h.1
        simp only [List.map_flatMap] at hblocks
        exact hblocks
      have hids : (e.blocks.flatMap Block.ids).Perm (blocks.flatMap Block.ids) := by
        refine inRow?_flatMap [] (fun _ => []) (fun rowId k hk u k' hk' => ?_) hset
        cases hk'
        rw [hsame k hk, hrow]
      exact hids.symm.subperm.trans (List.sublist_append_right minted _).subperm
    case columnIds =>
      refine inRow?_forall (fun rowId k hk u k' _ hk' => ?_) hset (Regrown.refl minted _).columnIds
      cases hk'
      obtain ⟨oldId, hmem⟩ := mem_of_findRow? hl
      exact ⟨_, List.mem_cons_of_mem _ (List.mem_map_of_mem hmem), h.2⟩

theorem setWidths?_regrown {widths : List String} (h : e.setWidths? row widths = some e') :
    Regrown [] e.blocks e'.blocks := by
  obtain ⟨⟨u, blocks⟩, hset, rfl⟩ := Option.map_eq_some_iff.mp h
  refine .of_map_eq (inRow?_map (fun rowId l _ u l' hl => ?_) hset)
  cases hl
  exact ids_of_columns (map_withWidths (fun _ _ => rfl) widths l.columns)

theorem dropNested?_regrown {index : Nat}
    (h : e.dropNested? row column toRow toColumn id index = some e') :
    Regrown [] e.blocks e'.blocks := by
  rw [dropNested?] at h
  split at h
  · exact moveNested?_regrown h
  · simp only [Option.bind_eq_bind, Option.bind_eq_some_iff] at h
    obtain ⟨c, -, origin, -, h⟩ := h
    exact moveWithinColumn?_regrown h

theorem dropOn?_regrown (source : DragSource) (target : DropTarget) :
    Yields (e.dropOn? source target) fun minted changed =>
      ∀ e' ∈ changed, Regrown minted e.blocks e'.blocks := by
  match source, target with
  | .palette kind, .canvas index =>
    refine (addBlock_regrown kind (some index)).bind_pure fun minted made hmade => ?_
    rintro e' ⟨⟩
    exact hmade
  | .palette kind, .column row column index =>
    refine (addToColumn?_regrown kind (some index)).bind_pure fun minted made hmade e' he' => ?_
    obtain ⟨m, hm, rfl⟩ := Option.map_eq_some_iff.mp he'
    exact hmade m hm
  | .canvas id, .canvas index =>
    refine yields_pure fun e' he' => ?_
    simp only [Option.bind_eq_bind, Option.mem_def, Option.bind_eq_some_iff] at he'
    obtain ⟨origin, -, h⟩ := he'
    exact move?_regrown h
  | .canvas id, .column row column index =>
    exact yields_pure fun e' he' => moveIntoColumn?_regrown he'
  | .nested row column id, .canvas index =>
    exact yields_pure fun e' he' => moveToCanvas?_regrown he'
  | .nested row column id, .column toRow toColumn index =>
    exact yields_pure fun e' he' => dropNested?_regrown he'

theorem drop_regrown (target : DropTarget) :
    Yields (e.drop target) fun minted d => Regrown minted e.blocks d.2.blocks := by
  rw [drop]
  split
  · exact yields_pure (.refl [] e.blocks)
  · rename_i source _
    refine (@dropOn?_regrown e.cancelDrag source target).bind fun minted changed hchanged => ?_
    cases changed with
    | none => exact yields_pure (.refl _ e.blocks)
    | some e' =>
      refine yields_pure ?_
      rw [List.append_nil]
      exact hchanged e' rfl

theorem settle_regrown {minted : List String} {changed : Option Editor}
    (h : ∀ e' ∈ changed, Regrown minted e.blocks e'.blocks) :
    Regrown minted e.blocks (e.settle changed).2.blocks := by
  cases changed with
  | none => exact .refl minted e.blocks
  | some e' => exact h e' rfl

theorem settleMade_regrown {minted : List String} {made : Option (String × Editor)}
    (h : ∀ m ∈ made, Regrown minted e.blocks m.2.blocks) :
    Regrown minted e.blocks (e.settleMade made).2.blocks := by
  cases made with
  | none => exact .refl minted e.blocks
  | some m => exact h m rfl

end Editor

namespace Operation

open Editing Editor

/-- The operation sets no columns of a row as if they were props, and each block that it pastes
    has distinct identifiers. -/
def Admitted : Operation → Editor → Prop
  | update id updates, e =>
    ∀ rowId l, (e.blocks.find? fun b => b.id == id) = some (.row rowId l) →
      Dict.get? updates "columns" = none
  | paste added _, _ => ∀ b ∈ added, DistinctIds [b]
  | _, _ => True

/-- The blocks that an operation adds from outside. -/
def pasted : Operation → List Block
  | paste added _ => added
  | _ => []

/-- **Every operation but pasting makes its tree of the old one** and of what it mints. -/
theorem run_regrown {op : Operation} {e : Editor} (htravels : op.travels = false)
    (hpaste : ∀ added replacing, op ≠ paste added replacing) (hop : op.Admitted e) :
    Yields (op.run e) fun minted r => Regrown minted e.blocks r.2.blocks := by
  cases op with
  | addBlock kind index =>
    exact (addBlock_regrown kind index).bind_pure fun _ _ hmade => hmade
  | addToColumn row column kind index =>
    exact (addToColumn?_regrown kind index).bind_pure fun _ _ => settleMade_regrown
  | remove id => exact yields_pure (settle_regrown fun e' => remove?_regrown)
  | removeFromColumn row column id =>
    exact yields_pure (settle_regrown fun e' => removeFromColumn?_regrown)
  | update id updates => exact yields_pure (settle_regrown fun e' => update?_regrown hop)
  | updateSettings updates =>
    exact yields_pure (settle_regrown fun e' => updateSettings?_regrown)
  | updateRowStyle row updates =>
    exact yields_pure (settle_regrown fun e' => updateRowStyle?_regrown)
  | updateColumnStyle row column updates =>
    exact yields_pure (settle_regrown fun e' => updateColumnStyle?_regrown)
  | move origin target => exact yields_pure (settle_regrown fun e' => move?_regrown)
  | moveWithinColumn row column origin target =>
    exact yields_pure (settle_regrown fun e' => moveWithinColumn?_regrown)
  | moveNested row column toRow toColumn id index =>
    exact yields_pure (settle_regrown fun e' => moveNested?_regrown)
  | moveIntoColumn id row column index =>
    exact yields_pure (settle_regrown fun e' => moveIntoColumn?_regrown)
  | moveToCanvas row column id index =>
    exact yields_pure (settle_regrown fun e' => moveToCanvas?_regrown)
  | duplicate id =>
    exact (duplicate?_regrown id).bind_pure fun _ _ => settleMade_regrown
  | duplicateInColumn row column id =>
    exact (duplicateInColumn?_regrown row column id).bind_pure fun _ _ => settleMade_regrown
  | applyPreset row preset =>
    exact (applyPreset?_regrown row preset).bind_pure fun _ _ => settle_regrown
  | setWidths row widths => exact yields_pure (settle_regrown fun e' => setWidths?_regrown)
  | drop target =>
    exact (drop_regrown target).bind_pure fun _ _ hd => hd
  | selectBlock id => exact yields_pure (.refl [] e.blocks)
  | selectColumn column => exact yields_pure (.refl [] e.blocks)
  | hover id => exact yields_pure (.refl [] e.blocks)
  | startDrag source => exact yields_pure (.refl [] e.blocks)
  | aim target => exact yields_pure (.refl [] e.blocks)
  | cancelDrag => exact yields_pure (.refl [] e.blocks)
  | markClean => exact yields_pure (.refl [] e.blocks)
  | paste added replacing => exact absurd rfl (hpaste added replacing)
  | undo => cases htravels
  | redo => cases htravels

end Operation

end Letterpress

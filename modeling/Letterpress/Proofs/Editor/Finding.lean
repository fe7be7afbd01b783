/-
  What can be found in a tree.

  * `mem_ids_iff` and `isSome_findColumn?_iff` say which blocks and columns can be found, by the
    identifiers in the tree.
  * `mem_ids_cut`, `findRow?_cut` and `findRow?_cut_self` say so of a tree without one of its blocks,
    `findRow?_of_inRow?` of one with a row changed.
  * `Carries old new`: what can be found in the old tree can be found in the new one.
  * `ensures_columnIds_applyPreset`: the columns that a preset keeps.
-/
import Letterpress.Proofs.Editor.Relocation

namespace Letterpress

open Minting Editing

/-! ## Blocks and columns -/

namespace Block

/-- The identifiers of the blocks in the columns. -/
def nestedIds : Block → List String
  | .content _ => []
  | .row _ l => l.columns.flatMap fun c => c.blocks.map (·.id)

theorem ids_eq (b : Block) : b.ids = b.id :: b.nestedIds := by
  cases b <;> rfl

theorem id_mem_ids (b : Block) : b.id ∈ b.ids := by
  rw [ids_eq]
  exact List.mem_cons_self

end Block

namespace Editing

section

variable {row column id : String} {blocks old new left right : List Block} {b : Block}

@[simp] theorem isRowWith_row (rowId : String) (l : RowLayout) :
    isRowWith row (.row rowId l) = (rowId == row) := by
  simp [isRowWith, Block.isRow, Block.row?, Block.id]

theorem isSome_findNested? : (findNested? id b).isSome = true ↔ id ∈ b.nestedIds := by
  cases b with
  | content b => simp [findNested?, Block.row?, Block.nestedIds]
  | row rowId l =>
    simp [findNested?, Block.row?, Block.nestedIds, Column.find?, List.findSome?_isSome_iff]

/-- The blocks that can be found are those whose identifiers are in the tree. -/
theorem mem_ids_iff : id ∈ blocks.flatMap Block.ids ↔ (findAnywhere? id blocks).isSome = true := by
  rw [findAnywhere?, List.mem_flatMap]
  cases hfind : blocks.find? fun b => b.id == id with
  | some b =>
    have hb : b.id = id := by simpa using List.find?_some hfind
    refine iff_of_true ⟨b, List.mem_of_find?_eq_some hfind, ?_⟩ rfl
    rw [← hb]
    exact b.id_mem_ids
  | none =>
    rw [Option.isSome_map, List.findSome?_isSome_iff]
    refine exists_congr fun b => and_congr_right fun hb => ?_
    have hne : ¬ b.id = id := by simpa using List.find?_eq_none.mp hfind b hb
    rw [isSome_findNested?, Block.ids_eq, List.mem_cons]
    exact or_iff_right fun heq => hne heq.symm

/-- The columns that can be found are those of the row that is found. -/
theorem isSome_findColumn?_iff : (findColumn? row column blocks).isSome = true ↔
    ∃ l, findRow? row blocks = some l ∧ column ∈ l.columns.map (·.id) := by
  rw [findColumn?, Option.isSome_bind, Option.any_eq_true]
  simp [RowLayout.column?]

theorem row_mem_of_findRow? {l : RowLayout} (h : findRow? row blocks = some l) :
    .row row l ∈ blocks := by
  obtain ⟨x, hx, hrow⟩ := Option.bind_eq_some_iff.mp h
  have hmem := List.mem_of_find?_eq_some hx
  cases x with
  | content c => cases hrow
  | row id l' =>
    cases hrow
    have hid : id = row := by simpa using List.find?_some hx
    rwa [← hid]

/-- What a change of a row is for the rows that are found: that one is changed and all others are
    the same. -/
theorem findRow?_of_inRow? {β : Type} {f : RowLayout → Option (β × RowLayout)} {x : β}
    (h : inRow? row f old = some (x, new)) :
    ∃ l l', findRow? row old = some l ∧ f l = some (x, l') ∧ findRow? row new = some l' ∧
      ∀ other, other ≠ row → findRow? other new = findRow? other old := by
  obtain ⟨before, y, y', after, hold, hnew, hbefore, hfind, hy⟩ := modifyFirst?_eq_some h
  obtain ⟨id, l, l', rfl, rfl, hl⟩ := onLayout_eq_some hy
  obtain rfl : id = row := by simpa using List.find?_some hfind
  refine ⟨l, l', findRow?_of_find? hfind, hl, ?_, fun other hother => ?_⟩
  · rw [hnew]
    exact findRow?_of_find? (find?_append_cons hbefore (by simp))
  · have hne : (id == other) = false := by simpa using hother.symm
    simp only [findRow?, hold, hnew, List.find?_append, List.find?_cons, isRowWith_row, hne]

/-! ## Trees without a block -/

section Cut

variable (hids : ((left ++ b :: right).flatMap Block.ids).Nodup)

include hids

/-- A block of a tree without another block is one whose identifier is not in that block. -/
theorem mem_ids_cut (h : id ∈ (left ++ b :: right).flatMap Block.ids) :
    id ∈ (left ++ right).flatMap Block.ids ↔ id ∉ b.ids := by
  have hperm : ((left ++ b :: right).flatMap Block.ids).Perm
      (b.ids ++ (left ++ right).flatMap Block.ids) := List.perm_middle.flatMap_right _
  obtain ⟨-, -, hdisjoint⟩ := List.nodup_append'.mp (hperm.nodup_iff.mp hids)
  refine ⟨fun hrest hb => hdisjoint hb hrest, fun hb => ?_⟩
  cases List.mem_append.mp (hperm.subset h) with
  | inl hmem => exact absurd hmem hb
  | inr hrest => exact hrest

/-- The identifier of a block is not in the tree without it. -/
theorem id_notMem_cut : b.id ∉ (left ++ right).flatMap Block.ids := by
  have hmem : b.id ∈ (left ++ b :: right).flatMap Block.ids :=
    List.mem_flatMap.mpr ⟨b, by simp, b.id_mem_ids⟩
  rw [mem_ids_cut hids hmem]
  exact fun hb => hb b.id_mem_ids

theorem row_notMem_cut (l : RowLayout) : .row b.id l ∉ left ++ right := fun h =>
  id_notMem_cut hids (List.mem_flatMap.mpr ⟨_, h, (Block.row b.id l).id_mem_ids⟩)

theorem findRow?_cut_self : findRow? b.id (left ++ right) = none :=
  Option.eq_none_iff_forall_ne_some.mpr fun l hl => row_notMem_cut hids l (row_mem_of_findRow? hl)

/-- The row of the identifier of a block is that block. -/
theorem row_mem_cut {l : RowLayout} :
    .row b.id l ∈ left ++ b :: right ↔ b = .row b.id l := by
  constructor
  · intro h
    cases List.mem_cons.mp (List.perm_middle.subset h) with
    | inl heq => exact heq.symm
    | inr hrest => exact absurd hrest (row_notMem_cut hids l)
  · intro h
    rw [← h]
    simp

end Cut

theorem findRow?_cut (h : row ≠ b.id) :
    findRow? row (left ++ right) = findRow? row (left ++ b :: right) := by
  have hrow : isRowWith row b = false := by
    simp only [isRowWith, Bool.and_eq_false_iff, beq_eq_false_iff_ne]
    exact .inr h.symm
  simp only [findRow?, List.find?_append, List.find?_cons, hrow]

/-! ## Trees that carry another one -/

/-- What can be found in the old tree can be found in the new one. -/
structure Carries (old new : List Block) : Prop where
  ids : old.flatMap Block.ids ⊆ new.flatMap Block.ids
  columns : ∀ row column, (findColumn? row column old).isSome = true →
    (findColumn? row column new).isSome = true

theorem isSome_findColumn?_of_outline (houtline : outline new = outline old) :
    (findColumn? row column new).isSome = (findColumn? row column old).isSome := by
  rw [isSome_findColumn?, houtline, ← isSome_findColumn?]

theorem Carries.of_outline (hids : old.flatMap Block.ids ⊆ new.flatMap Block.ids)
    (houtline : outline new = outline old) : Carries old new := by
  refine ⟨hids, fun row column h => ?_⟩
  rwa [isSome_findColumn?_of_outline houtline]

/-- Blocks that keep their identifiers and their outlines. -/
theorem Carries.of_map_eq (h : new.map (fun b => (b.ids, b.outline?)) =
    old.map fun b => (b.ids, b.outline?)) : Carries old new := by
  have hids := congrArg (List.map Prod.fst) h
  have houtline := congrArg (List.map Prod.snd) h
  rw [List.map_map, List.map_map] at hids houtline
  refine .of_outline ?_ (outline_eq_of_map houtline)
  rw [List.flatMap_def, List.flatMap_def, show new.map Block.ids = _ from hids]
  exact List.Subset.refl _

/-- The identifiers in a row and its outline are decided by those of its columns and of the blocks
    in them. -/
theorem outline_of_columns (rowId : String) (l l' : RowLayout)
    (h : l'.columns.map (fun c => (c.id, c.blocks.map (·.id))) =
      l.columns.map fun c => (c.id, c.blocks.map (·.id))) :
    ((Block.row rowId l').ids, (Block.row rowId l').outline?) =
      ((Block.row rowId l).ids, (Block.row rowId l).outline?) :=
  congrArg (fun views => (views.1, some (rowId, views.2))) (ids_of_columns h)

/-- The order of the blocks does not matter, if their identifiers are distinct. -/
theorem Carries.of_perm (hids : (old.flatMap Block.ids).Nodup) (h : new.Perm old) :
    Carries old new := by
  refine ⟨(h.flatMap_right Block.ids).symm.subset, fun row column hcolumn => ?_⟩
  obtain ⟨l, hl, hmem⟩ := isSome_findColumn?_iff.mp hcolumn
  refine isSome_findColumn?_iff.mpr ⟨l, ?_, hmem⟩
  -- the row that is found is the only one of its identifier
  obtain ⟨left, right, rfl⟩ := List.append_of_mem (h.symm.subset (row_mem_of_findRow? hl))
  have hnew : ((left ++ .row row l :: right).flatMap Block.ids).Nodup :=
    (h.flatMap_right Block.ids).nodup_iff.mpr hids
  refine findRow?_of_find? (find?_append_cons (fun x hx => ?_) (by simp))
  rw [Bool.eq_false_iff]
  intro hrow
  have hx' : (Block.row row l).id = x.id :=
    (beq_iff_eq.mp (Bool.and_eq_true_iff.mp hrow).2).symm
  refine id_notMem_cut hnew ?_
  rw [hx']
  exact List.mem_flatMap.mpr ⟨x, List.mem_append_left _ hx, x.id_mem_ids⟩

theorem outline_of_onBlocks {β : Type} {f : List ContentBlock → Option (β × List ContentBlock)}
    {x : β} (h : inColumn? row column (onBlocks f) old = some (x, new)) :
    outline new = outline old := by
  refine outline_of_inColumn? (fun c x c' hc => ?_) h
  obtain ⟨bs, -, rfl⟩ := onBlocks_eq_some hc
  rfl

theorem id_of_take? {bs rest : List ContentBlock} {t : ContentBlock}
    (h : take? id bs = some (t, rest)) : t.id = id := by
  induction bs generalizing rest with
  | nil => cases h
  | cons b bs ih =>
    rw [take?] at h
    split at h
    · rename_i hb
      cases h
      exact hb
    · obtain ⟨⟨t', rest'⟩, hrest, ⟨⟩⟩ := Option.map_eq_some_iff.mp h
      exact ih hrest

theorem id_of_takeFromColumn? {t : ContentBlock}
    (h : takeFromColumn? row column id old = some (t, new)) : t.id = id := by
  obtain ⟨_, _, bs, bs', -, -, htake⟩ := exists_slot_of_inColumn? h
  exact id_of_take? htake

theorem outline_of_putIntoColumn? {index : Option Nat} {c : ContentBlock}
    (h : putIntoColumn? row column index c old = some new) : outline new = outline old := by
  obtain ⟨⟨u, blocks⟩, hput, rfl⟩ := Option.map_eq_some_iff.mp h
  exact outline_of_onBlocks hput

end

/-! ## Columns that a preset drops -/

/-- The columns that a preset has no place for. -/
def droppedIds (preset : Preset) (l : RowLayout) : List String :=
  match preset.widths? with
  | none => []
  | some widths => (l.columns.drop widths.length).map (·.id)

/-- A preset keeps the other columns.  It adds columns only where it drops none, so no new column
    takes the place of one that is dropped. -/
theorem ensures_columnIds_applyPreset {preset : Preset} {l : RowLayout}
    (hids : (l.columns.map (·.id)).Nodup) :
    Ensures (applyPreset preset l) fun l' => ∀ column ∈ l.columns.map (·.id),
      (column ∈ l'.columns.map (·.id) ↔ column ∉ droppedIds preset l) := by
  rw [applyPreset, droppedIds]
  cases preset.widths? with
  | none => exact ensures_pure fun column hcolumn => by simpa using hcolumn
  | some widths =>
    have hcolumnIds : ∀ added, (withWidths widths (appendToLast
        ((l.columns.drop widths.length).flatMap (·.blocks)) (l.columns.take widths.length) ++
          added)).map (·.id) = (l.columns.take widths.length).map (·.id) ++ added.map (·.id) := by
      intro added
      rw [map_withWidths (fun _ _ => rfl), List.map_append, columnIds_of_appendToLast]
    dsimp only
    by_cases hfew : l.columns.length ≤ widths.length
    · refine ensures_bind fun added => ensures_pure fun column hcolumn => ?_
      rw [hcolumnIds, List.take_of_length_le hfew, List.drop_of_length_le hfew]
      exact iff_of_true (List.mem_append_left _ hcolumn) List.not_mem_nil
    · have hnone : newColumns (widths.length - l.columns.length) = pure [] := by
        rw [Nat.sub_eq_zero_of_le (Nat.le_of_not_le hfew)]
        rfl
      rw [hnone, pure_bind]
      refine ensures_pure fun column hcolumn => ?_
      rw [← List.take_append_drop widths.length l.columns, List.map_append] at hids hcolumn
      obtain ⟨-, -, hdisjoint⟩ := List.nodup_append'.mp hids
      rw [hcolumnIds, List.map_nil, List.append_nil]
      refine ⟨fun hkept hdropped => hdisjoint hkept hdropped, fun hdropped => ?_⟩
      exact (List.mem_append.mp hcolumn).resolve_right hdropped

end Editing

/-- The blocks of a tree are its rows and its content blocks. -/
theorem SameHoldings.ids_subset {old new : List Block} (h : SameHoldings old new) :
    old.flatMap Block.ids ⊆ new.flatMap Block.ids := by
  have hids : ∀ (blocks : List Block) id, id ∈ blocks.flatMap Block.ids ↔
      id ∈ blocks.flatMap Block.rowIds ∨ id ∈ (blocks.flatMap Block.contents).map (·.id) := by
    intro blocks id
    have hblock : ∀ b : Block, b.ids = b.rowIds ++ b.contents.map (·.id) := by
      intro b
      cases b <;> simp [Block.ids, Block.rowIds, Block.contents, List.map_flatMap]
    simp only [List.mem_flatMap, hblock, List.mem_append, List.map_flatMap]
    grind
  intro id hid
  rw [hids] at hid ⊢
  exact hid.imp (fun hrow => h.rowIds.symm.subset hrow)
    fun hcontent => (h.contents.map (·.id)).symm.subset hcontent

end Letterpress

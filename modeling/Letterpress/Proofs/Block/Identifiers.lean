/-
  The identifiers in a block.

  * `Block.columnIds` are the identifiers of the columns of a block, `Block.allIds` those of the
    block, of the blocks in its columns and of the columns.
  * `DistinctIds`: the identifiers of all blocks of a tree differ from each other, and so do those
    of the columns of each row.
  * `Block.yields_duplicate`: a copy has the identifiers that are taken for it, once each.
    `Editor.yields_newBlock`: a new block has no others.
-/
import Letterpress.Editor.Edit
import Letterpress.Proofs.Block.Minting

namespace Letterpress

open Minting

/-! ## Views -/

namespace Block

/-- The identifiers of the columns. -/
def columnIds : Block → List String
  | .content _ => []
  | .row _ l => l.columns.map (·.id)

/-- The identifiers of the block, of the blocks in its columns and of the columns. -/
def allIds (b : Block) : List String := b.ids ++ b.columnIds

end Block

/-- All blocks of a tree have identifiers of their own, and so have the columns of each row. -/
structure DistinctIds (blocks : List Block) : Prop where
  ids : (blocks.flatMap Block.ids).Nodup
  columnIds : ∀ b ∈ blocks, b.columnIds.Nodup

instance (blocks : List Block) : Decidable (DistinctIds blocks) :=
  decidable_of_iff ((blocks.flatMap Block.ids).Nodup ∧ ∀ b ∈ blocks, b.columnIds.Nodup)
    ⟨fun h => ⟨h.1, h.2⟩, fun h => ⟨h.ids, h.columnIds⟩⟩

/-! ## Lists -/

section

variable {α β : Type} {f : α → Minting β} {g : β → List String}

/-- Identifiers that are taken for each item are taken for the list. -/
theorem yields_mapM (hf : ∀ a, Yields (f a) fun minted b => minted.Perm (g b)) (l : List α) :
    Yields (l.mapM f) fun minted bs => minted.Perm (bs.flatMap g) := by
  induction l with
  | nil => exact yields_pure (List.Perm.refl [])
  | cons a l ih =>
    rw [List.mapM_cons]
    refine (hf a).bind fun minted b hb => ih.bind_pure fun minted' bs hbs => ?_
    rw [List.flatMap_cons]
    exact hb.append hbs

theorem ensures_mapM {P : β → Prop} {l : List α} (hf : ∀ a ∈ l, Ensures (f a) P) :
    Ensures (l.mapM f) fun bs => ∀ b ∈ bs, P b := by
  induction l with
  | nil => exact ensures_pure (by simp)
  | cons a l ih =>
    obtain ⟨ha, hl⟩ := List.forall_mem_cons.mp hf
    rw [List.mapM_cons]
    refine ha.bind fun b hb => (ih hl).bind fun bs hbs => ensures_pure ?_
    exact List.forall_mem_cons.mpr ⟨hb, hbs⟩

end

/-! ## Copies -/

theorem ContentBlock.yields_duplicate (b : ContentBlock) :
    Yields b.duplicate fun minted copy => minted.Perm [copy.id] := by
  refine yields_mint.bind_pure fun minted id hid => ?_
  rw [hid]

theorem Column.yields_duplicate (c : Column) :
    Yields c.duplicate fun minted copy => minted.Perm (copy.id :: copy.blocks.map (·.id)) := by
  refine yields_mint.bind fun minted id hid => ?_
  refine (yields_mapM ContentBlock.yields_duplicate c.blocks).bind_pure fun minted' blocks h => ?_
  rw [← List.map_eq_flatMap] at h
  rw [hid]
  exact h.cons id

theorem RowLayout.yields_duplicate (l : RowLayout) :
    Yields l.duplicate fun minted copy =>
      minted.Perm (copy.columns.flatMap fun c => c.id :: c.blocks.map (·.id)) :=
  (yields_mapM Column.yields_duplicate l.columns).bind_pure fun _ _ hcolumns => hcolumns

/-- The identifiers of a row, column by column. -/
theorem Block.allIds_row (id : String) (l : RowLayout) :
    (Block.row id l).allIds.Perm
      (id :: l.columns.flatMap fun c => c.id :: c.blocks.map (·.id)) := by
  have hcolumns : ∀ columns : List Column,
      ((columns.flatMap fun c => c.blocks.map (·.id)) ++ columns.map (·.id)).Perm
        (columns.flatMap fun c => c.id :: c.blocks.map (·.id)) := by
    intro columns
    induction columns with
    | nil => rfl
    | cons c columns ih =>
      simp only [List.flatMap_cons, List.map_cons, List.append_assoc, List.cons_append] at ih ⊢
      rw [← List.append_assoc]
      refine List.perm_middle.trans (List.Perm.cons _ ?_)
      rw [List.append_assoc]
      exact ih.append_left _
  exact (hcolumns l.columns).cons id

/-- **A copy has new identifiers throughout**: those that are taken for it, once each. -/
theorem Block.yields_duplicate (b : Block) :
    Yields b.duplicate fun minted copy => minted.Perm copy.allIds := by
  cases b with
  | content b =>
    exact b.yields_duplicate.bind_pure fun _ _ hcopy => hcopy
  | row id l =>
    refine l.yields_duplicate.bind fun minted copy hcopy =>
      yields_mint.bind_pure fun minted' id hid => ?_
    rw [hid]
    calc
      List.Perm _ ((copy.columns.flatMap fun c => c.id :: c.blocks.map (·.id)) ++ [id]) :=
        hcopy.append_right _
      List.Perm _ (id :: copy.columns.flatMap fun c => c.id :: c.blocks.map (·.id)) :=
        List.perm_append_singleton _ _
      List.Perm _ _ := (Block.allIds_row id copy).symm

/-! ## New blocks -/

theorem Column.yields_make (width : String) :
    Yields (Column.make width) fun minted c => minted.Perm (c.id :: c.blocks.map (·.id)) :=
  yields_mint.bind_pure fun minted id hid => by rw [hid]; rfl

theorem RowLayout.yields_make (preset : Preset) :
    Yields (RowLayout.make preset) fun minted l =>
      minted.Perm (l.columns.flatMap fun c => c.id :: c.blocks.map (·.id)) :=
  (yields_mapM Column.yields_make preset.initialWidths).bind_pure fun _ _ hcolumns => hcolumns

theorem yields_defaultProps (kind : Kind) : Yields (defaultProps kind) fun _ _ => True := by
  rw [defaultProps.eq_def]
  split
  · exact (RowLayout.yields_make .twoEqual).bind_pure fun _ _ _ => trivial
  · exact yields_pure trivial

theorem ContentBlock.yields_make? (kind : Kind) (props : Members) :
    Yields (ContentBlock.make? kind props) fun minted made =>
      ∀ b ∈ made, minted.Perm [b.id] := by
  rw [ContentBlock.make?]
  split
  · exact yields_pure (by rintro b ⟨⟩)
  · refine yields_mint.bind_pure fun minted id hid => ?_
    rintro b ⟨⟩
    rw [hid]

/-- A new block has only identifiers that are taken for it, each at most once. -/
theorem Editor.yields_newBlock (kind : Kind) :
    Yields (Editor.newBlock kind) fun minted b => b.allIds.Subperm minted := by
  refine (yields_defaultProps kind).bind fun unused props _ =>
    (ContentBlock.yields_make? kind props).bind fun minted made hmade => ?_
  cases made with
  | some b =>
    refine yields_pure ?_
    rw [List.append_nil]
    exact (hmade b rfl).symm.subperm.trans (List.sublist_append_right unused minted).subperm
  | none =>
    refine (RowLayout.yields_make .twoEqual).bind fun minted' l hl =>
      yields_mint.bind_pure fun minted'' id hid => ?_
    have hrow : (minted' ++ minted'').Perm (Block.row id l).allIds := by
      rw [hid]
      exact ((List.perm_append_singleton id minted').trans (hl.cons id)).trans
        (Block.allIds_row id l).symm
    refine hrow.symm.subperm.trans ?_
    exact ((List.sublist_append_right minted _).trans (List.sublist_append_right unused _)).subperm

end Letterpress

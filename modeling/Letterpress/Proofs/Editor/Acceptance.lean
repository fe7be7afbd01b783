/-
  When an edit is accepted, and what it is then.

  * `exists_item_of_findIdx?`, `exists_slot_of_inColumn?_place` and `exists_takeFromColumn?`: what is
    found in a list and in a column; `reorder?_eq_none_iff`: which items do not move.
  * `yields_addBlock` and `yields_addToColumn?`: the block that is made, with its kind and its
    identifier; `isSome_addToColumn?`: when there is one.
  * `moveWithinColumn?_of_slot`, `exists_moveIntoColumn?` and `exists_moveNested?`: moves of what is
    there; `moveIntoColumn?_of_row`: rows do not move into columns.
-/
import Letterpress.Proofs.Editor.Finding

namespace Letterpress

open Minting Editing

/-! ## Lists and columns -/

namespace Editing

theorem exists_item_of_findIdx? {α : Type} {p : α → Bool} {l : List α} {i : Nat}
    (h : l.findIdx? p = some i) : ∃ a, l[i]? = some a ∧ l.find? p = some a := by
  obtain ⟨hi, hp, hbefore⟩ := List.findIdx?_eq_some_iff_getElem.mp h
  refine ⟨l[i], List.getElem?_eq_getElem hi, ?_⟩
  exact List.find?_eq_some_iff_getElem.mpr ⟨hp, i, hi, rfl, fun j hj => by simpa using hbefore j hj⟩

/-- A move is refused if the two indices are the same, or the second one is out of range. -/
theorem reorder?_eq_none_iff {α : Type} {l : List α} {origin target : Nat}
    (h : origin < l.length) :
    reorder? origin target l = none ↔ origin = target ∨ l.length ≤ target := by
  rw [reorder?, List.getElem?_eq_getElem h]
  by_cases hrange : origin = target ∨ l.length ≤ target
  · rw [if_pos (by simpa using hrange)]
    exact iff_of_true rfl hrange
  · rw [if_neg (by simpa using hrange)]
    exact iff_of_false (by simp) hrange

section

variable {row column : String} {s : Slot} {bs : List ContentBlock}

theorem Slot.Named.takeFromColumn? (h : s.Named row column) (id : String) :
    takeFromColumn? row column id (s.fill bs) = (take? id bs).map fun r => (r.1, s.fill r.2) :=
  h.inColumn?_onBlocks _

theorem Slot.Named.putIntoColumn? (h : s.Named row column) (index : Option Nat)
    (b : ContentBlock) :
    putIntoColumn? row column index b (s.fill bs) = some (s.fill (insertAt index b bs)) := by
  rw [Editing.putIntoColumn?, h.inColumn?_onBlocks]
  rfl

/-- A place in a column that is found is one in its slot. -/
theorem exists_slot_of_inColumn?_place {index : List ContentBlock → Option Nat}
    {tree : List Block} {p : Place} (h : Place.inColumn? row column index tree = some p) :
    ∃ s : Slot, s.Named row column ∧
      ∃ bs i, tree = s.fill bs ∧ index bs = some i ∧ p = s.place i := by
  cases hcolumn : findColumn? row column tree with
  | none => simp [Place.inColumn?, hcolumn] at h
  | some c =>
    obtain ⟨s, hs, rfl⟩ := exists_slot_of_findColumn? hcolumn
    rw [hs.inColumn?] at h
    obtain ⟨i, hi, rfl⟩ := Option.map_eq_some_iff.mp h
    exact ⟨s, hs, c.blocks, i, rfl, hi, rfl⟩

/-- A block that has a place in a column can be taken out of it. -/
theorem exists_takeFromColumn? {id : String} {tree : List Block} {p : Place}
    (h : Place.inColumn? row column (fun bs => bs.findIdx? fun b => b.id == id) tree = some p) :
    ∃ b rest, takeFromColumn? row column id tree = some (b, rest) := by
  obtain ⟨s, hs, bs, i, rfl, hi, -⟩ := exists_slot_of_inColumn?_place h
  obtain ⟨b, hb, -⟩ := exists_item_of_findIdx? hi
  refine ⟨b, s.fill (bs.eraseIdx i), ?_⟩
  rw [hs.takeFromColumn?, take?_eq_bind, hi, Option.bind_some, hb]
  rfl

end

end Editing

/-! ## New blocks -/

/-- A block is made of each kind but a row, and it has that kind. -/
theorem ContentBlock.ensures_make?_kind (kind : Kind) (props : Members) :
    Ensures (ContentBlock.make? kind props) fun made =>
      (∀ b ∈ made, b.kind = kind) ∧ (made = none → kind = .row) := by
  rw [ContentBlock.make?]
  split
  · rename_i hrow
    exact ensures_pure ⟨by rintro b ⟨⟩, fun _ => by simpa [Kind.isRow] using hrow⟩
  · refine ensures_bind fun id => ensures_pure ⟨?_, by rintro ⟨⟩⟩
    rintro b ⟨⟩
    rfl

namespace Editor

variable {e : Editor} {row column toRow toColumn id : String} {b : ContentBlock}

theorem ensures_newBlock_kind (kind : Kind) : Ensures (newBlock kind) fun b => b.kind = kind := by
  refine ensures_bind fun props =>
    (ContentBlock.ensures_make?_kind kind props).bind fun made hmade => ?_
  cases made with
  | some b => exact ensures_pure (hmade.1 b rfl)
  | none =>
    rw [hmade.2 rfl]
    exact ensures_bind fun l => ensures_bind fun id => ensures_pure rfl

/-- A new block at the top level is put where it is asked for, under a new identifier. -/
theorem yields_addBlock (kind : Kind) (index : Option Nat) :
    Yields (e.addBlock kind index) fun minted made => ∃ b, b.kind = kind ∧ b.id ∈ minted ∧
      made = (b.id, (e.select b.id).record (insertAt index b e.blocks)) := by
  have hnew := (yields_newBlock kind).and_ensures (ensures_newBlock_kind kind)
  refine hnew.bind_pure fun minted b hb => ⟨b, hb.2, hb.1.subset ?_, rfl⟩
  exact List.mem_append_left _ b.id_mem_ids

/-- What a new block in a column is, if one is made. -/
theorem yields_addToColumn? (kind : Kind) (index : Option Nat) :
    Yields (e.addToColumn? row column kind index) fun minted made => ∀ m ∈ made, ∃ b blocks,
      b.kind = kind ∧ b.id ∈ minted ∧ putIntoColumn? row column index b e.blocks = some blocks ∧
      m = (b.id, (e.select b.id).record blocks) := by
  rw [addToColumn?]
  split
  · exact yields_pure (by rintro m ⟨⟩)
  · refine (yields_defaultProps kind).bind fun unused props _ =>
      ((ContentBlock.yields_make? kind props).and_ensures
        (ContentBlock.ensures_make?_kind kind props)).bind fun minted made hmade => ?_
    obtain ⟨hminted, hkind, -⟩ := hmade
    cases made with
    | none => exact yields_pure (by rintro m ⟨⟩)
    | some b =>
      refine yields_pure fun m hm => ?_
      obtain ⟨blocks, hblocks, rfl⟩ := Option.map_eq_some_iff.mp hm
      refine ⟨b, blocks, hkind b rfl, ?_, hblocks, rfl⟩
      rw [List.append_nil]
      exact List.mem_append_right _ ((hminted b rfl).symm.subset List.mem_cons_self)

/-- A block of each kind but a row is made in every column that is there. -/
theorem isSome_addToColumn? {kind : Kind} (hkind : kind ≠ .row)
    (hcolumn : (findColumn? row column e.blocks).isSome = true) (index : Option Nat) :
    Ensures (e.addToColumn? row column kind index) fun made => made.isSome = true := by
  have hnest : ¬ (!kind.canNest) = true := by simpa [Kind.canNest, Kind.isRow] using hkind
  rw [addToColumn?, if_neg hnest]
  refine ensures_bind fun props =>
    (ContentBlock.ensures_make?_kind kind props).bind fun made hmade => ?_
  cases made with
  | none => exact absurd (hmade.2 rfl) hkind
  | some b =>
    refine ensures_pure ?_
    rw [Option.isSome_map, isSome_putIntoColumn?, hcolumn]

/-! ## Moves -/

/-- A move within a column happens in its slot. -/
theorem moveWithinColumn?_of_slot {s : Slot} {bs : List ContentBlock} (hs : s.Named row column)
    (htree : e.blocks = s.fill bs) (origin target : Nat) :
    e.moveWithinColumn? row column origin target =
      (reorder? origin target bs).map fun bs' => e.record (s.fill bs') := by
  rw [moveWithinColumn?, htree, hs.inColumn?_onBlocks, Option.map_map, Option.map_map]
  rfl

/-- A content block moves into every column that is there. -/
theorem exists_moveIntoColumn? {i : Nat}
    (hi : (e.blocks.findIdx? fun b => b.id == id) = some i)
    (hb : e.blocks[i]? = some (.content b)) (hkind : b.kind ≠ .row)
    (hcolumn : (findColumn? row column e.blocks).isSome = true) (index : Nat) :
    ∃ blocks, putIntoColumn? row column (some index) b (e.blocks.eraseIdx i) = some blocks ∧
      e.moveIntoColumn? id row column index = some ((e.select b.id).record blocks) := by
  have hput : (putIntoColumn? row column (some index) b (e.blocks.eraseIdx i)).isSome = true := by
    rw [isSome_putIntoColumn?, isSome_findColumn?_of_outline (outline_eraseIdx hb), hcolumn]
  obtain ⟨blocks, hblocks⟩ := Option.isSome_iff_exists.mp hput
  obtain ⟨c, hc⟩ := Option.isSome_iff_exists.mp hcolumn
  have hnest : ¬ (!b.kind.canNest) = true := by simpa [Kind.canNest, Kind.isRow] using hkind
  refine ⟨blocks, hblocks, ?_⟩
  simp only [moveIntoColumn?, hi, hb, hc, hblocks, Option.bind_eq_bind, Option.bind_some,
    if_neg hnest]
  rfl

/-- Rows do not move into columns. -/
theorem moveIntoColumn?_of_row {x : Block} {index : Nat}
    (hx : (e.blocks.find? fun b => b.id == id) = some x) (hkind : x.kind = .row) :
    e.moveIntoColumn? id row column index = none := by
  have hid := List.find?_some hx
  have hany : (e.blocks.any fun b => b.id == id) = true :=
    List.any_eq_true.mpr ⟨x, List.mem_of_find?_eq_some hx, hid⟩
  obtain ⟨i, hi⟩ := Option.isSome_iff_exists.mp (List.findIdx?_isSome.trans hany)
  obtain ⟨y, hy, hfind⟩ := exists_item_of_findIdx? hi
  cases hx.symm.trans hfind
  cases x with
  | row rowId l => simp only [moveIntoColumn?, hi, hy, Option.bind_eq_bind, Option.bind_some]
  | content b =>
    have hkind : b.kind = .row := hkind
    have hnest : (!b.kind.canNest) = true := by simp [Kind.canNest, Kind.isRow, hkind]
    simp only [moveIntoColumn?, hi, hy, Option.bind_eq_bind, Option.bind_some, if_pos hnest]
    rfl

/-- A block that can be taken out of a column moves into every other one that is there. -/
theorem exists_moveNested? {rest : List Block}
    (htake : takeFromColumn? row column id e.blocks = some (b, rest))
    (hcolumn : (findColumn? toRow toColumn e.blocks).isSome = true) (index : Nat) :
    ∃ blocks, putIntoColumn? toRow toColumn (some index) b rest = some blocks ∧
      e.moveNested? row column toRow toColumn id index = some (e.record blocks) := by
  have hput : (putIntoColumn? toRow toColumn (some index) b rest).isSome = true := by
    rw [isSome_putIntoColumn?, isSome_findColumn?_of_outline (outline_of_takeFromColumn? htake),
      hcolumn]
  obtain ⟨blocks, hblocks⟩ := Option.isSome_iff_exists.mp hput
  obtain ⟨c, hc⟩ := Option.isSome_iff_exists.mp hcolumn
  refine ⟨blocks, hblocks, ?_⟩
  simp only [Editor.moveNested?, Editing.moveNested?, hc, htake, hblocks, Option.bind_eq_bind,
    Option.bind_some]
  rfl

end Editor

end Letterpress

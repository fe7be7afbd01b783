/-
  Copies of blocks.

  * `Operation.Makes`: the operation makes a block and selects it, and the tree is recorded once.
  * `Editor.duplicateInColumn?_eq`: the copy of a block in a column stands in the slot of the
    column, after the block.
  * `Slot.named_of_distinct`: where identifiers are distinct, each column is found by those that it
    has.
  * `duplicates_faithfully`: a copy stands after its original and differs from it in identifiers
    alone, all of which are new.
  * `second_row_is_not_copied_from`: of two rows with one identifier only the first one is looked
    at.
-/
import Letterpress.Proofs.Block.Anonymous
import Letterpress.Proofs.Editor.Identifiers
import Letterpress.Proofs.Editor.Lookup

namespace Letterpress

open Minting Editing

/-! ## Copies in a list -/

theorem insertIdx_after {α : Type} (before after : List α) (a copy : α) :
    (before ++ a :: after).insertIdx (before.length + 1) copy = before ++ a :: copy :: after := by
  induction before with
  | nil => rfl
  | cons x before ih => rw [List.cons_append, List.length_cons, List.insertIdx_succ_cons, ih]; rfl

theorem getElem?_append_cons {α : Type} (before after : List α) (a : α) :
    (before ++ a :: after)[before.length]? = some a := by
  rw [List.getElem?_append_right (Nat.le_refl _), Nat.sub_self]
  rfl

/-! ## Operations that make a block -/

/-- The operation makes a block and answers with its identifier, which is selected then.  The new
    tree is recorded once, and all else in the session stays. -/
def Operation.Makes (op : Operation) (e : Editor) (s : Supply) (id : String) (tree : List Block)
    (s' : Supply) : Prop :=
  let past := e.history.snapshots.take (e.history.index + 1)
  op.run e s =
    ((.made id, { e with
      blocks := tree
      selection := .block id
      history := ⟨past ++ [tree], past.length⟩
      dirty := true }), s')

section

variable {e : Editor} {row column id : String} {before after : List Block} {b : Block}
  {c : ContentBlock} {above below : List ContentBlock}

/-! ## At the top level -/

theorem Editor.duplicate?_eq (hcut : e.blocks = before ++ b :: after) (hb : b.id = id)
    (hbefore : id ∉ before.map Block.id) : e.duplicate? id = (do
      let copy ← b.duplicate
      return some (copy.id, (e.select copy.id).record (before ++ b :: copy :: after))) := by
  have hindex : (e.blocks.findIdx? fun b => b.id == id) = some before.length := by
    rw [hcut, findIdx?_append_cons (beq_of_notMem hbefore) (by simpa using hb)]
  have hblock : e.blocks[before.length]? = some b := by rw [hcut, getElem?_append_cons]
  simp only [Editor.duplicate?, hindex, hblock]
  simp only [hcut, insertIdx_after]

/-! ## In a column -/

theorem withCopy?_eq (hc : c.id = id) (habove : id ∉ above.map (·.id)) (copyId : String) :
    Editor.withCopy? id copyId (above ++ c :: below) =
      some ((), above ++ c :: { c with id := copyId } :: below) := by
  have hindex : ((above ++ c :: below).findIdx? fun b => b.id == id) = some above.length :=
    findIdx?_append_cons (beq_of_notMem habove) (by simpa using hc)
  simp only [Editor.withCopy?, hindex, getElem?_append_cons, Option.bind_eq_bind, Option.bind_some,
    insertIdx_after]
  rfl

/-- The copy of a block in a column stands in the slot of the column, after the block. -/
theorem Editor.duplicateInColumn?_eq {slot : Slot} (h : slot.Named row column)
    (hcut : e.blocks = slot.fill (above ++ c :: below)) (hc : c.id = id)
    (habove : id ∉ above.map (·.id)) : e.duplicateInColumn? row column id = (do
      let copyId ← mint
      return some (copyId, (e.select copyId).record
        (slot.fill (above ++ c :: { c with id := copyId } :: below)))) := by
  have hfind : (findColumn? row column e.blocks).bind (fun col => Column.find? col id) =
      some c := by
    rw [hcut, h.findColumn?, Option.bind_some]
    exact find?_append_cons (beq_of_notMem habove) (by simpa using hc)
  have hput : ∀ copyId, inColumn? row column (onBlocks (Editor.withCopy? id copyId)) e.blocks =
      some ((), slot.fill (above ++ c :: { c with id := copyId } :: below)) := by
    intro copyId
    rw [hcut, h.inColumn?_onBlocks, withCopy?_eq hc habove]
    rfl
  simp only [Editor.duplicateInColumn?, hfind, hput]
  rfl

/-- Where identifiers are distinct, the column of a slot is the one that its identifiers name. -/
theorem Editing.Slot.named_of_distinct {slot : Slot} {bs : List ContentBlock}
    (h : DistinctIds (slot.fill bs)) : slot.Named slot.rowId slot.column.id := by
  have hrow : .row slot.rowId (slot.row bs) ∈ slot.fill bs := by simp [Slot.fill]
  have hcolumns := h.columnIds _ hrow
  have hid : slot.rowId ∉ (slot.before ++ slot.after).flatMap Block.ids := id_notMem_cut h.ids
  simp only [Block.columnIds, Slot.row, List.map_append, List.map_cons, List.nodup_append',
    List.disjoint_cons_right] at hcolumns
  obtain ⟨-, -, hcolumn, -⟩ := hcolumns
  constructor
  case before =>
    intro x hx
    rw [Bool.eq_false_iff]
    intro hnamed
    have hx' : x.id = slot.rowId := beq_iff_eq.mp (Bool.and_eq_true_iff.mp hnamed).2
    exact hid (List.mem_flatMap.mpr ⟨x, List.mem_append_left _ hx, hx' ▸ x.id_mem_ids⟩)
  case row => rfl
  case left => exact beq_of_notMem hcolumn
  case column => rfl

end

/-! ## The operations -/

/-- **A copy is faithful and stands in the right place.**  For the first block of an identifier, at
    the top level or in a column, the copy stands directly after it and differs from it in
    identifiers alone.  These are minted, once each, so they are new if the supply is fresh.  All
    other blocks stay as they are, in their order; the copy is selected, its identifier is the
    answer, and the tree is recorded once.  Where identifiers are distinct, every block in a column
    is found by its own and those of its row and its column. -/
theorem duplicates_faithfully (e : Editor) (s : Supply) :
    (∀ id ∈ e.blocks.map Block.id, ∃ before b after copy minted s',
      e.blocks = before ++ b :: after ∧ b.id = id ∧ id ∉ before.map Block.id ∧
        copy.anonymous = b.anonymous ∧ minted.Perm copy.allIds ∧ s.Mints minted s' ∧
        (∀ known, s.Fresh known → AllNew known minted) ∧
        (Operation.duplicate id).Makes e s copy.id (before ++ b :: copy :: after) s') ∧
      (∀ row column id c, findColumn? row column e.blocks = some c → id ∈ c.blocks.map (·.id) →
        ∃ slot above b below copyId s', Slot.Named slot row column ∧
          e.blocks = slot.fill (above ++ b :: below) ∧ b.id = id ∧ id ∉ above.map (·.id) ∧
          s.Mints [copyId] s' ∧ (∀ known, s.Fresh known → AllNew known [copyId]) ∧
          (Operation.duplicateInColumn row column id).Makes e s copyId
            (slot.fill (above ++ b :: { b with id := copyId } :: below)) s') ∧
      (DistinctIds e.blocks → ∀ slot bs, e.blocks = Slot.fill slot bs →
        ∃ c, findColumn? slot.rowId slot.column.id e.blocks = some c ∧ c.blocks = bs) := by
  refine ⟨fun id hid => ?_, fun row column id c hcolumn hid => ?_, fun hids slot bs hcut => ?_⟩
  · obtain ⟨before, b, after, hcut, hb, hbefore⟩ := exists_first_of_mem_map hid
    obtain ⟨minted, hmints, hminted, hcopy⟩ :=
      b.yields_duplicate.and_ensures b.anonymous_duplicate s
    refine ⟨before, b, after, _, minted, _, hcut, hb, hbefore, hcopy, hminted, hmints,
      fun known hfresh => (hfresh.mints hmints).1, ?_⟩
    rw [Operation.Makes, Operation.run, Editor.duplicate?_eq hcut hb hbefore]
    rfl
  · obtain ⟨slot, hslot, hcut⟩ := exists_slot_of_findColumn? hcolumn
    obtain ⟨above, b, below, hblocks, hb, habove⟩ := exists_first_of_mem_map hid
    rw [hblocks] at hcut
    obtain ⟨minted, hmints, rfl⟩ := yields_mint s
    refine ⟨slot, above, b, below, _, _, hslot, hcut, hb, habove, hmints,
      fun known hfresh => (hfresh.mints hmints).1, ?_⟩
    rw [Operation.Makes, Operation.run, Editor.duplicateInColumn?_eq hslot hcut hb habove]
    rfl
  · rw [hcut] at hids ⊢
    exact ⟨_, (Slot.named_of_distinct hids).findColumn?, rfl⟩

/-- A row with two columns is copied after itself, and a block of its second column there. -/
theorem duplicates_faithfully_of_two_columns :
    let text (id : String) : ContentBlock := ⟨id, .text, []⟩
    let c : Column := ⟨"c", "50%", [text "1"], none⟩
    let d : Column := ⟨"d", "50%", [text "2", text "3"], none⟩
    let l : RowLayout := ⟨.twoEqual, [c, d], RowLayout.initialGap, true, .initial⟩
    let e := Editor.start [.row "r" l] .initial
    let slot : Slot := ⟨[], [], "r", l, [c], [], d⟩
    let known := e.blocks.flatMap Block.allIds
    "r" ∈ e.blocks.map Block.id ∧ findColumn? "r" "d" e.blocks = some d ∧
      "2" ∈ d.blocks.map (·.id) ∧ DistinctIds e.blocks ∧ e.blocks = slot.fill d.blocks ∧
      Supply.tally.Fresh known ∧
      (∃ copy, copy.anonymous = (Block.row "r" l).anonymous ∧
        ((Operation.duplicate "r").run e .tally).1.2.blocks = [.row "r" l, copy]) ∧
      (∃ id, AllNew known [id] ∧
        ((Operation.duplicateInColumn "r" "d" "2").run e .tally).1.1 = .made id) ∧
      ∃ c, findColumn? slot.rowId slot.column.id e.blocks = some c ∧ c.blocks = d.blocks := by
  intro text c d l e slot known
  have hr : "r" ∈ e.blocks.map Block.id := by simp [e, Editor.start, Block.id]
  have hd : findColumn? "r" "d" e.blocks = some d := rfl
  have h2 : "2" ∈ d.blocks.map (·.id) := by simp [d, text]
  have hids : DistinctIds e.blocks := by decide
  have hcut : e.blocks = slot.fill d.blocks := rfl
  have hfresh : Supply.tally.Fresh known := Supply.tally_fresh 0 (by decide)
  obtain ⟨htop, hnested, hfound⟩ := duplicates_faithfully e .tally
  refine ⟨hr, hd, h2, hids, hcut, hfresh, ?_, ?_, hfound hids slot d.blocks hcut⟩
  · obtain ⟨before, b, after, copy, minted, s', hblocks, -, -, hcopy, -, -, -, hrun⟩ := htop "r" hr
    obtain ⟨rfl, rfl, rfl⟩ : before = [] ∧ b = .row "r" l ∧ after = [] := by
      cases before with
      | nil => exact ⟨rfl, (List.cons.inj hblocks).1.symm, (List.cons.inj hblocks).2.symm⟩
      | cons x before => simp [e, Editor.start] at hblocks
    exact ⟨copy, hcopy, by rw [hrun]; rfl⟩
  · obtain ⟨_, _, _, _, id, s', -, -, -, -, -, hnew, hrun⟩ := hnested "r" "d" "2" d hd h2
    exact ⟨id, hnew known hfresh, by rw [hrun]⟩

/-- **Of two rows with one identifier only the first one is looked at.**  A block in a column of the
    second one cannot be copied there, although it is the only one with its three identifiers; so a
    column has to be found before a block in it can be copied. -/
theorem second_row_is_not_copied_from :
    let b : ContentBlock := ⟨"b", .text, []⟩
    let c : Column := ⟨"c", "100%", [b], none⟩
    let rowOf (c : Column) : RowLayout :=
      ⟨.twoEqual, [c], RowLayout.initialGap, true, .initial⟩
    let first : Block := .row "r" (rowOf ⟨"x", "100%", [], none⟩)
    let slot : Slot := ⟨[first], [], "r", rowOf c, [], [], c⟩
    let e := Editor.start [first, .row "r" (rowOf c)] .initial
    e.blocks = slot.fill [b] ∧
      (∀ s, (Operation.duplicateInColumn "r" "c" "b").run e s = ((.refused, e), s)) ∧
      ¬ ∀ (e : Editor) (s : Supply) (slot : Slot) (above : List ContentBlock) (b : ContentBlock)
        (below : List ContentBlock), e.blocks = slot.fill (above ++ b :: below) →
          ∃ copyId tree s',
            (Operation.duplicateInColumn slot.rowId slot.column.id b.id).Makes e s copyId tree
              s' := by
  intro b c rowOf first slot e
  have hcut : e.blocks = slot.fill [b] := rfl
  have hrefused : ∀ s, (Operation.duplicateInColumn "r" "c" "b").run e s = ((.refused, e), s) :=
    fun _ => rfl
  refine ⟨hcut, hrefused, fun hall => ?_⟩
  obtain ⟨copyId, tree, s', hmakes⟩ := hall e .tally slot [] b [] hcut
  have hrun := hmakes.symm.trans (hrefused .tally)
  cases hrun

end Letterpress
